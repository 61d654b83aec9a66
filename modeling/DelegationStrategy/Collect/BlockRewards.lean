import DelegationStrategy.Collect.Snapshot
import Mathlib.Algebra.Ring.Nat

/-!
# Block rewards

`collect/src/validators_block_rewards.rs`. The collector reads the block rewards
of an epoch from BigQuery and writes them to a snapshot. Neither its query nor
the loop over the result looks at what the rows share: the snapshot has every row
of the epoch once (`perm_of_collect`), also when several rows have one identity
and vote account, with different authorized voters for example.
-/

namespace DelegationStrategy.Collect

open DelegationStrategy.Lib

/-- `ValidatorBlockRewards`; `node_account` is not stored. -/
structure ValidatorBlockRewards where
  identityAccount : String
  voteAccount : String
  authorizedVoter : String
  amount : Nat
  deriving DecidableEq, Repr

/-- The fields by which `store_block_rewards` collects the rows into a map. -/
def ValidatorBlockRewards.account (r : ValidatorBlockRewards) : String × String :=
  (r.identityAccount, r.voteAccount)

/-- `ValidatorsBlockRewardsSnapshot`; the fields that are only logged are left out. -/
structure ValidatorsBlockRewardsSnapshot where
  epoch : Nat
  createdAt : Timestamp
  blockRewards : List ValidatorBlockRewards
  deriving DecidableEq, Repr

/-- `str::parse::<u64>`: an optional sign, then digits, and the number fits. -/
def parseU64 (s : String) : Option Nat :=
  let digits := match s.toList with
    | '+' :: digits => digits
    | digits => digits
  if digits ≠ [] ∧ digits.all Char.isDigit then
    let n := digits.foldl (fun n c => 10 * n + (c.toNat - '0'.toNat)) 0
    if n < 2 ^ 64 then some n else none
  else none

/-- A row of the BigQuery table, the amount as the text that the client returns. -/
structure BlockRewardsEtlRow where
  epoch : Nat
  identityAccount : String
  voteAccount : String
  amount : String
  authorizedVoter : String
  deriving DecidableEq, Repr

def BlockRewardsEtlRow.parse (row : BlockRewardsEtlRow) : Option ValidatorBlockRewards :=
  (parseU64 row.amount).map fun amount => {
    identityAccount := row.identityAccount
    voteAccount := row.voteAccount
    authorizedVoter := row.authorizedVoter
    amount := amount }

/-- `query_validator_block_rewards`; `none` if an amount is not a `u64`. -/
def queryValidatorBlockRewards (scan : Scan) (table : List BlockRewardsEtlRow) (epoch : Nat) :
    Option (List ValidatorBlockRewards) :=
  (scan.order (table.filter fun row => row.epoch = epoch)).mapM BlockRewardsEtlRow.parse

structure BlockRewardsParams where
  loadingLimit : Nat
  epoch : Option Nat
  maxDataDelayHours : Nat
  deriving DecidableEq, Repr

def MILLISECONDS_PER_HOUR : Nat := 3600000
def MILLISECONDS_PER_SLOT : Nat := 400

inductive CollectError where
  /-- "Failed to parse amount" -/
  | amount
  /-- "Upstream stakes-etl load is overdue." -/
  | overdue
  deriving DecidableEq, Repr

/-- `collect_validator_block_rewards_info`, after epoch 0: the snapshot that is written, or
none if the rows are not there yet. -/
def collectValidatorBlockRewardsInfo (params : BlockRewardsParams) (createdAt : Timestamp)
    (currentEpoch slotIndex : Nat) (scan : Scan) (table : List BlockRewardsEtlRow) :
    Except CollectError (Option ValidatorsBlockRewardsSnapshot) :=
  let lookingAtEpoch := params.epoch.getD (currentEpoch - 1)
  match queryValidatorBlockRewards scan table lookingAtEpoch with
  | none => .error .amount
  | some blockRewards =>
    if blockRewards.length ≤ params.loadingLimit then
      let hoursSinceEpochEnd :=
        min (slotIndex * MILLISECONDS_PER_SLOT) (2 ^ 64 - 1) / MILLISECONDS_PER_HOUR
      if params.epoch.isNone ∧ 0 < params.maxDataDelayHours ∧
          params.maxDataDelayHours ≤ hoursSinceEpochEnd then .error .overdue
      else .ok none
    else .ok (some {
      epoch := lookingAtEpoch
      createdAt := createdAt
      blockRewards := blockRewards })

/-- With enough rows a snapshot of them is written. -/
theorem collect_of_query {params : BlockRewardsParams} {createdAt : Timestamp}
    {currentEpoch slotIndex : Nat} {scan : Scan} {table : List BlockRewardsEtlRow}
    {blockRewards : List ValidatorBlockRewards}
    (h : queryValidatorBlockRewards scan table (params.epoch.getD (currentEpoch - 1)) =
      some blockRewards) (hlimit : params.loadingLimit < blockRewards.length) :
    collectValidatorBlockRewardsInfo params createdAt currentEpoch slotIndex scan table =
      .ok (some ⟨params.epoch.getD (currentEpoch - 1), createdAt, blockRewards⟩) := by
  unfold collectValidatorBlockRewardsInfo
  dsimp only
  rw [h]
  exact if_neg (Nat.not_le.mpr hlimit)

/-- What a collector that writes a snapshot has read. -/
theorem collect_cases {params : BlockRewardsParams} {createdAt : Timestamp}
    {currentEpoch slotIndex : Nat} {scan : Scan} {table : List BlockRewardsEtlRow}
    {snapshot : ValidatorsBlockRewardsSnapshot}
    (h : collectValidatorBlockRewardsInfo params createdAt currentEpoch slotIndex scan table =
      .ok (some snapshot)) :
    snapshot.createdAt = createdAt ∧ params.loadingLimit < snapshot.blockRewards.length ∧
      queryValidatorBlockRewards scan table snapshot.epoch = some snapshot.blockRewards := by
  unfold collectValidatorBlockRewardsInfo at h
  dsimp only at h
  cases hquery : queryValidatorBlockRewards scan table
      (params.epoch.getD (currentEpoch - 1)) with
  | none =>
    rw [hquery] at h
    nomatch h
  | some blockRewards =>
    rw [hquery] at h
    dsimp only at h
    by_cases hlen : blockRewards.length ≤ params.loadingLimit
    · rw [if_pos hlen] at h
      split at h
      · nomatch h
      · nomatch h
    · rw [if_neg hlen] at h
      obtain rfl := Option.some.inj (Except.ok.inj h)
      exact ⟨rfl, Nat.lt_of_not_le hlen, hquery⟩

/-- **Nothing is merged**: the snapshot has every row of its epoch once. -/
theorem perm_of_collect {params : BlockRewardsParams} {createdAt : Timestamp}
    {currentEpoch slotIndex : Nat} {scan : Scan} {table : List BlockRewardsEtlRow}
    {snapshot : ValidatorsBlockRewardsSnapshot}
    (h : collectValidatorBlockRewardsInfo params createdAt currentEpoch slotIndex scan table =
      .ok (some snapshot)) :
    (snapshot.blockRewards.map some).Perm
      ((table.filter fun row => row.epoch = snapshot.epoch).map BlockRewardsEtlRow.parse) := by
  obtain ⟨-, -, hquery⟩ := collect_cases h
  rw [map_some_of_mapM hquery]
  exact (scan.perm _).map _

end DelegationStrategy.Collect
