import Mathlib.Data.List.Basic
import Mathlib.Data.Nat.Digits.Defs

/-!
# Bytes, numbers and base 58

Numbers as bytes with the lowest byte first, and the base 58 text of bytes, as keys are
shown: a `1` for each leading zero byte and then the digits of the number, the highest
first.

- `readLE_inj`: different bytes of one length spell different numbers.
- `base58_inj`: they have different texts.
-/

namespace DelegationStrategy.Lib

/-! ## Numbers -/

/-- The number that bytes spell, the lowest byte first. -/
def readLE (bytes : List UInt8) : Nat := Nat.ofDigits 256 (bytes.map UInt8.toNat)

/-- The lowest bytes of a number. -/
def toLE : Nat → Nat → List UInt8
  | 0, _ => []
  | width + 1, n => UInt8.ofNat n :: toLE width (n / 256)

@[simp] theorem length_toLE (width n : Nat) : (toLE width n).length = width := by
  induction width generalizing n with
  | zero => rfl
  | succ width ih => simp [toLE, ih]

/-- **Bytes of one length** that spell the same number are the same. -/
theorem readLE_inj {bytes bytes' : List UInt8} (hlen : bytes.length = bytes'.length)
    (h : readLE bytes = readLE bytes') : bytes = bytes' := by
  have hdigit : ∀ bytes : List UInt8, ∀ d ∈ bytes.map UInt8.toNat, d < 256 := by
    intro bytes d hd
    obtain ⟨byte, -, rfl⟩ := List.mem_map.mp hd
    exact byte.toNat_lt
  refine List.map_injective_iff.mpr (fun _ _ => UInt8.toNat_inj.mp) ?_
  exact Nat.ofDigits_inj_of_len_eq (by decide) (by simpa using hlen) (hdigit bytes)
    (hdigit bytes') h

/-! ## Base 58 -/

/-- The digits, without `0`, `O`, `I` and `l`. -/
def base58Alphabet : List Char :=
  "123456789ABCDEFGHJKLMNPQRSTUVWXYZabcdefghijkmnopqrstuvwxyz".toList

/-- The base 58 text of bytes. -/
def base58 (bytes : List UInt8) : String :=
  String.ofList (List.replicate (bytes.takeWhile (· = 0)).length '1' ++
    ((Nat.digits 58 (readLE bytes.reverse)).reverse.map fun d => base58Alphabet.getD d '1'))

/-- The number that digits spell. -/
def readBase58 (digits : List Char) : Nat :=
  Nat.ofDigits 58 (digits.reverse.map fun c => base58Alphabet.idxOf c)

theorem idxOf_base58Alphabet {d : Nat} (h : d < 58) :
    base58Alphabet.idxOf (base58Alphabet.getD d '1') = d := by
  have hall : ∀ d < 58, base58Alphabet.idxOf (base58Alphabet.getD d '1') = d := by
    decide
  exact hall d h

/-- The number can be read from the text: leading ones are zeros. -/
theorem readBase58_base58 (bytes : List UInt8) :
    readBase58 (base58 bytes).toList = readLE bytes.reverse := by
  have hdigits : ((Nat.digits 58 (readLE bytes.reverse)).map fun d =>
      base58Alphabet.idxOf (base58Alphabet.getD d '1')) =
      Nat.digits 58 (readLE bytes.reverse) := by
    rw [← List.map_id (Nat.digits 58 _), List.map_map]
    exact List.map_congr_left fun d hd =>
      idxOf_base58Alphabet (Nat.digits_lt_base (by decide) hd)
  have hone : base58Alphabet.idxOf '1' = 0 := by decide
  unfold readBase58 base58
  rw [String.toList_ofList, List.reverse_append, List.map_append, List.reverse_replicate,
    List.map_replicate, hone, Nat.ofDigits_append, Nat.ofDigits_replicate_zero, Nat.mul_zero,
    Nat.add_zero]
  simp only [List.map_reverse, List.reverse_reverse, List.map_map]
  exact (congrArg (Nat.ofDigits 58) hdigits).trans (Nat.ofDigits_digits 58 _)

/-- **Different bytes** of one length have different texts. -/
theorem base58_inj {bytes bytes' : List UInt8} (hlen : bytes.length = bytes'.length)
    (h : base58 bytes = base58 bytes') : bytes = bytes' := by
  refine List.reverse_inj.mp (readLE_inj (by simpa using hlen) ?_)
  rw [← readBase58_base58, ← readBase58_base58, h]

example : base58 [0, 0, 1, 2] = "115T" := by decide

end DelegationStrategy.Lib
