import DelegationStrategy.Lib.Bytes

/-!
# Accounts over RPC

What the collectors ask a node for: the accounts of a program that pass filters
(`getProgramAccounts`), again and again until an answer comes (`retry_blocking` of
`collect/src/common.rs`). A node serves a fixed set of accounts (`ProgramAccounts`): a call
fails, or returns the accounts that pass, in any order.

`perm_of_retryBlocking`: whatever calls failed, what is returned are the accounts that pass.
-/

namespace DelegationStrategy.Collect

open DelegationStrategy.Lib

/-- Why a collector stops: with an error, or with a panic. -/
inductive Failure where
  | error (message : String)
  | panic (message : String)
  deriving DecidableEq, Repr

/-! ## Keys and accounts -/

/-- 32 bytes. -/
structure Pubkey where
  bytes : List UInt8
  size : bytes.length = 32
  deriving DecidableEq

/-- The key in the bytes from an offset on. -/
def pubkeyAt (data : List UInt8) (offset : Nat) (h : offset + 32 ≤ data.length) : Pubkey where
  bytes := (data.drop offset).take 32
  size := by
    rw [List.length_take, List.length_drop]
    omega

/-- The `u64` in the bytes from an offset on. -/
def u64At (data : List UInt8) (offset : Nat) : UInt64 :=
  UInt64.ofNat (readLE ((data.drop offset).take 8))

/-- `Pubkey::to_string` shows keys in base 58. -/
def Pubkey.base58 (key : Pubkey) : String := Lib.base58 key.bytes

theorem Pubkey.base58_injective : Function.Injective Pubkey.base58 := by
  rintro ⟨bytes, size⟩ ⟨bytes', size'⟩ h
  obtain rfl := base58_inj (size.trans size'.symm) h
  rfl

/-- A key by its first byte. -/
def keyOfByte (byte : UInt8) : Pubkey := ⟨byte :: List.replicate 31 0, rfl⟩

/-- What is read of an account. -/
structure Account where
  data : List UInt8
  deriving DecidableEq, Repr

/-! ## Filters -/

/-- `RpcFilterType`; the bytes of `Memcmp` are raw. -/
inductive RpcFilterType where
  | dataSize (size : Nat)
  | memcmp (offset : Nat) (bytes : List UInt8)
  deriving DecidableEq, Repr

/-- Whether data pass a filter. -/
def RpcFilterType.allows (data : List UInt8) : RpcFilterType → Bool
  | dataSize size => data.length = size
  | memcmp offset bytes =>
    offset + bytes.length ≤ data.length && (data.drop offset).take bytes.length == bytes

/-- Bytes that stand at an offset are found there. -/
theorem allows_memcmp_append {front bytes rest : List UInt8} {offset : Nat}
    (h : front.length = offset) :
    RpcFilterType.allows (front ++ bytes ++ rest) (.memcmp offset bytes) = true := by
  show (decide (offset + bytes.length ≤ (front ++ bytes ++ rest).length) &&
    ((front ++ bytes ++ rest).drop offset).take bytes.length == bytes) = true
  rw [List.append_assoc, List.drop_left' h, List.take_left' rfl]
  simp [h]

/-- A node that serves a fixed set of accounts of a program. -/
structure ProgramAccounts where
  accounts : List (Pubkey × Account)
  /-- The answer to each of the calls that are made with some filters. -/
  answers : List RpcFilterType → Nat → Except Failure (List (Pubkey × Account))
  exact : ∀ filters call found, answers filters call = .ok found →
    found.Perm (accounts.filter fun a => filters.all (RpcFilterType.allows a.2.data))

/-- A node that fails no call and returns the accounts as they are stored. -/
def ProgramAccounts.reliable (accounts : List (Pubkey × Account)) : ProgramAccounts where
  accounts := accounts
  answers filters _ := .ok (accounts.filter fun a => filters.all (RpcFilterType.allows a.2.data))
  exact _ _ found h := by
    cases h
    exact List.Perm.refl _

/-! ## Retries -/

section Retry

variable {α : Type} {makeCall : Nat → Except Failure α}

/-- The loop of `retry_blocking` from a call on, with this many backoffs left; nothing
catches a panic. -/
def retryFrom (makeCall : Nat → Except Failure α) : Nat → Nat → Except Failure α
  | call, 0 => makeCall call
  | call, backoffs + 1 =>
    match makeCall call with
    | .ok result => .ok result
    | .error (.error _) => retryFrom makeCall (call + 1) backoffs
    | .error (.panic message) => .error (.panic message)

/-- `retry_blocking` with the quadratic backoffs of so many attempts. -/
def retryBlocking (makeCall : Nat → Except Failure α) (maxAttempts : Nat) : Except Failure α :=
  retryFrom makeCall 0 maxAttempts

theorem exists_call_of_retryFrom {call backoffs : Nat} {result : α}
    (h : retryFrom makeCall call backoffs = .ok result) : ∃ n, makeCall n = .ok result := by
  induction backoffs generalizing call with
  | zero => exact ⟨call, h⟩
  | succ backoffs ih =>
    rw [retryFrom] at h
    cases hcall : makeCall call with
    | ok result' =>
      rw [hcall] at h
      exact ⟨call, hcall.trans h⟩
    | error failure =>
      rw [hcall] at h
      cases failure with
      | error err => exact ih h
      | panic message => cases h

/-- What is returned is what a call returned. -/
theorem exists_call_of_retryBlocking {maxAttempts : Nat} {result : α}
    (h : retryBlocking makeCall maxAttempts = .ok result) : ∃ n, makeCall n = .ok result :=
  exists_call_of_retryFrom h

end Retry

/-- **What a query returns** are the accounts that pass its filters. -/
theorem perm_of_retryBlocking {rpc : ProgramAccounts} {filters : List RpcFilterType}
    {maxAttempts : Nat} {found : List (Pubkey × Account)}
    (h : retryBlocking (rpc.answers filters) maxAttempts = .ok found) :
    found.Perm (rpc.accounts.filter fun a => filters.all (RpcFilterType.allows a.2.data)) := by
  obtain ⟨call, hcall⟩ := exists_call_of_retryBlocking h
  exact rpc.exact filters call found hcall

end DelegationStrategy.Collect
