import DelegationStrategy.Collect.Snapshot
import DelegationStrategy.Lib.FanOut
import DelegationStrategy.Lib.Query
import Mathlib.Algebra.Order.BigOperators.Group.List
import Mathlib.Tactic.Linarith
import Mathlib.Tactic.Ring

/-!
# Take rates

`load_take_rates` (`store/src/utils.rs`) divides what validators take by all rewards, over
the epochs of the last 30 days, in one BigQuery query over five tables of rewards.

- The rewards of validators are summed up before they are joined ("so raw duplicate keys
  can't fan out"): each row counts once (`sum_validatorRewards`).
- The rewards of stakers are joined as they are, and inflation and MEV rewards of one stake
  account and epoch multiply: each row counts as often as the other table has rows
  (`sum_stakerRewards`). What is counted too much is the `excess`.

So a take rate is right exactly if the excess is zero or there is nothing to take
(`takeRate_iff`). It is always a share (`takeRate_mem_unit`). Quotients are exact here.
-/

namespace DelegationStrategy.Store

open DelegationStrategy.Lib DelegationStrategy.Collect

/-! ## The tables -/

structure EpochsEtlRow where
  epoch : Nat
  epochEndTime : Option Timestamp
  deriving DecidableEq, Repr

structure StakesEtlRow where
  stakeAccount : String
  voteAccount : Option String
  epoch : Nat
  deriving DecidableEq, Repr

/-- A row of `rewards_inflation` or `rewards_mev`; a row without a key joins nothing and is
left out. -/
structure StakerReward where
  stakeAccount : String
  epoch : Nat
  amount : Option Rat
  deriving DecidableEq, Repr

/-- A row of `rewards_validators_inflation`, `rewards_validators_mev` or
`rewards_validators_blocks`. -/
structure ValidatorReward where
  voteAccount : String
  epoch : Nat
  amount : Option Rat
  deriving DecidableEq, Repr

structure RewardTables where
  epochs : List EpochsEtlRow
  stakes : List StakesEtlRow
  rewardsInflation : List StakerReward
  rewardsMev : List StakerReward
  rewardsValidatorsInflation : List ValidatorReward
  rewardsValidatorsMev : List ValidatorReward
  rewardsValidatorsBlocks : List ValidatorReward
  deriving DecidableEq, Repr

def StakerReward.key (reward : StakerReward) : String × Nat := (reward.stakeAccount, reward.epoch)
def StakesEtlRow.key (stake : StakesEtlRow) : String × Nat := (stake.stakeAccount, stake.epoch)
def ValidatorReward.key (reward : ValidatorReward) : String × Nat :=
  (reward.voteAccount, reward.epoch)

/-- `COALESCE(amount, 0)` -/
def StakerReward.value (reward : StakerReward) : Rat := reward.amount.getD 0
def ValidatorReward.value (reward : ValidatorReward) : Rat := reward.amount.getD 0

/-! ## The queries -/

/-- `TAKE_RATE_WINDOW_DAYS` -/
def takeRateWindowDays : Nat := 30

/-- A day in microseconds. -/
def day : Timestamp := 24 * 60 * minute

/-- `min_epoch`: the first epoch that ended in the window. -/
def minEpoch (epochs : List EpochsEtlRow) : Option Nat :=
  -- without an end there is no window, and the comparison with `NULL` selects nothing
  (epochs.filterMap EpochsEtlRow.epochEndTime).max?.bind fun last =>
    ((epochs.filter fun row => row.epochEndTime.any fun endTime =>
      last - takeRateWindowDays * day ≤ endTime).map EpochsEtlRow.epoch).min?

/-- The join condition of `inflation` and of `mev`. -/
def onStake (minEpoch : Nat) (stake : StakesEtlRow) (reward : StakerReward) : Bool :=
  decide (stake.stakeAccount = reward.stakeAccount ∧ stake.epoch = reward.epoch ∧
    minEpoch ≤ reward.epoch)

/-- A row of the joins in `stakers`. -/
abbrev StakersJoin := (StakesEtlRow × Option StakerReward) × Option StakerReward

/-- The joins in `stakers`, with the `WHERE`. -/
def stakersJoin (tables : RewardTables) (minEpoch : Nat) : List StakersJoin :=
  (leftJoin (fun row reward => onStake minEpoch row.1 reward)
    (leftJoin (onStake minEpoch) tables.stakes tables.rewardsInflation) tables.rewardsMev).filter
      fun row => row.1.1.voteAccount.isSome && decide (minEpoch ≤ row.1.1.epoch)

structure StakersRow where
  voteAccount : Option String
  epoch : Nat
  stakerInflation : Rat
  stakerMev : Rat

/-- What `stakers` groups by. -/
def stakersKey (row : StakersJoin) : Option String × Nat := (row.1.1.voteAccount, row.1.1.epoch)

def joinedInflation (row : StakersJoin) : Rat := (row.1.2.map StakerReward.value).getD 0
def joinedMev (row : StakersJoin) : Rat := (row.2.map StakerReward.value).getD 0

/-- `stakers`. -/
def stakers (tables : RewardTables) (minEpoch : Nat) : List StakersRow :=
  let rows := stakersJoin tables minEpoch
  (rows.map stakersKey).dedup.map fun k =>
    let group := rows.filter fun row => stakersKey row = k
    { voteAccount := k.1
      epoch := k.2
      stakerInflation := (group.map joinedInflation).sum
      stakerMev := (group.map joinedMev).sum }

/-- `SUM` ignores `NULL`, and of nothing but `NULL`s the sum is `NULL`. -/
def sqlSum (values : List (Option Rat)) : Option Rat :=
  if values.reduceOption = [] then none else some values.reduceOption.sum

/-- One row for each vote account and epoch: `vi`, `vm` and `vb`. -/
def preAggregate (minEpoch : Nat) (table : List ValidatorReward) : List ValidatorReward :=
  let rows := table.filter fun reward => minEpoch ≤ reward.epoch
  (rows.map ValidatorReward.key).dedup.map fun k =>
    { voteAccount := k.1
      epoch := k.2
      amount := sqlSum ((rows.filter fun reward => reward.key = k).map ValidatorReward.amount) }

/-- The join condition of `vi`, `vm` and `vb`. -/
def onValidator (row : StakersRow) (reward : ValidatorReward) : Bool :=
  decide ((some reward.voteAccount, reward.epoch) = (row.voteAccount, row.epoch))

/-- A row of the joins of the outer query. -/
structure RewardsRow where
  stakers : StakersRow
  vi : Option ValidatorReward
  vm : Option ValidatorReward
  vb : Option ValidatorReward

/-- The joins of the outer query. -/
def rewardsRows (tables : RewardTables) (minEpoch : Nat) : List RewardsRow :=
  let rows := leftJoin onValidator (stakers tables minEpoch)
    (preAggregate minEpoch tables.rewardsValidatorsInflation)
  let rows := leftJoin (fun row => onValidator row.1) rows
    (preAggregate minEpoch tables.rewardsValidatorsMev)
  let rows := leftJoin (fun row => onValidator row.1.1) rows
    (preAggregate minEpoch tables.rewardsValidatorsBlocks)
  rows.map fun row => ⟨row.1.1.1, row.1.1.2, row.1.2, row.2⟩

/-- `COALESCE(vi.amount, 0) + COALESCE(vm.amount, 0) + COALESCE(vb.amount, 0)`. -/
def RewardsRow.validator (row : RewardsRow) : Rat :=
  (row.vi.map ValidatorReward.value).getD 0 + (row.vm.map ValidatorReward.value).getD 0 +
    (row.vb.map ValidatorReward.value).getD 0

/-- `SAFE_DIVIDE`: `NULL` if the divisor is 0. -/
def safeDivide (a b : Rat) : Option Rat := if b = 0 then none else some (a / b)

/-- The outer query, `WHERE take_rate IS NOT NULL`. -/
def takeRates (tables : RewardTables) (minEpoch : Nat) : List (Option String × Rat) :=
  let rows := rewardsRows tables minEpoch
  (rows.map fun row => row.stakers.voteAccount).dedup.filterMap fun voteAccount =>
    let group := rows.filter fun row => row.stakers.voteAccount = voteAccount
    (safeDivide (group.map RewardsRow.validator).sum
      (group.map fun row =>
        row.stakers.stakerInflation + row.stakers.stakerMev + row.validator).sum).map
          fun takeRate => (voteAccount, takeRate)

/-- `load_take_rates`. A row without a vote account would fail the conversion. -/
def loadTakeRates (scan : Scan) (tables : RewardTables) : Option (Dict String Rat) :=
  match minEpoch tables.epochs with
  | none => some Dict.empty
  | some minEpoch =>
    ((scan.order (takeRates tables minEpoch)).mapM fun row : Option String × Rat =>
      row.1.map fun voteAccount => (voteAccount, row.2)).map Dict.ofList

/-! ## What is to be counted -/

/-- The stakes of a vote account in the window. -/
def windowStakes (tables : RewardTables) (voteAccount : String) : List StakesEtlRow :=
  tables.stakes.filter fun stake => stake.voteAccount = some voteAccount ∧
    (minEpoch tables.epochs).any fun minEpoch => minEpoch ≤ stake.epoch

/-- The rows of a table for the epochs in which the vote account has stakes. -/
def validatorTotal (tables : RewardTables) (voteAccount : String)
    (table : List ValidatorReward) : Rat :=
  ((table.filter fun reward => reward.voteAccount = voteAccount ∧
    reward.epoch ∈ (windowStakes tables voteAccount).map StakesEtlRow.epoch).map
      ValidatorReward.value).sum

/-- What the validator takes, each row once. -/
def validatorAmount (tables : RewardTables) (voteAccount : String) : Rat :=
  validatorTotal tables voteAccount tables.rewardsValidatorsInflation +
    validatorTotal tables voteAccount tables.rewardsValidatorsMev +
    validatorTotal tables voteAccount tables.rewardsValidatorsBlocks

/-- The rows of a table for the stakes of the vote account. -/
def stakerTotal (tables : RewardTables) (voteAccount : String) (table : List StakerReward) : Rat :=
  ((table.filter fun reward =>
    reward.key ∈ (windowStakes tables voteAccount).map StakesEtlRow.key).map
      StakerReward.value).sum

/-- What its stakers get, each row once. -/
def stakerAmount (tables : RewardTables) (voteAccount : String) : Rat :=
  stakerTotal tables voteAccount tables.rewardsInflation +
    stakerTotal tables voteAccount tables.rewardsMev

/-- The rows of a stake account in an epoch. -/
def stakeRewards (table : List StakerReward) (stake : StakesEtlRow) : List StakerReward :=
  table.filter fun reward => reward.key = stake.key

/-- What a stake gets from a table. -/
def stakeAmount (table : List StakerReward) (stake : StakesEtlRow) : Rat :=
  ((stakeRewards table stake).map StakerReward.value).sum

/-- What is counted once more for each further row of the other table. -/
def excess (tables : RewardTables) (voteAccount : String) : Rat :=
  ((windowStakes tables voteAccount).map fun stake =>
    ((stakeRewards tables.rewardsMev stake).length - 1 : Nat) *
        stakeAmount tables.rewardsInflation stake +
      ((stakeRewards tables.rewardsInflation stake).length - 1 : Nat) *
        stakeAmount tables.rewardsMev stake).sum

section Counting

variable {tables : RewardTables} {voteAccount : String} {m : Nat}

theorem windowStakes_eq (hm : minEpoch tables.epochs = some m) :
    windowStakes tables voteAccount = tables.stakes.filter fun stake =>
      decide (stake.voteAccount = some voteAccount ∧ m ≤ stake.epoch) := by
  unfold windowStakes
  rw [hm]
  refine List.filter_congr fun stake _ => decide_eq_decide.mpr ?_
  simp

/-- The keys of the groups of a vote account. -/
def keysOf (tables : RewardTables) (m : Nat) (voteAccount : String) :
    List (Option String × Nat) :=
  ((stakersJoin tables m).map stakersKey).dedup.filter fun k => k.1 = some voteAccount

theorem nodup_keysOf : (keysOf tables m voteAccount).Nodup :=
  (List.nodup_dedup _).filter _

/-- The joined rows of the vote account are the joins of its stakes. -/
theorem filter_stakersJoin (hm : minEpoch tables.epochs = some m) :
    (stakersJoin tables m).filter (fun row => decide (row.1.1.voteAccount = some voteAccount)) =
      leftJoin (fun row reward => onStake m row.1 reward)
        (leftJoin (onStake m) (windowStakes tables voteAccount) tables.rewardsInflation)
          tables.rewardsMev := by
  have hcond : ∀ row : StakersJoin, (decide (row.1.1.voteAccount = some voteAccount) &&
      (row.1.1.voteAccount.isSome && decide (m ≤ row.1.1.epoch))) =
        decide (row.1.1.voteAccount = some voteAccount ∧ m ≤ row.1.1.epoch) := by
    intro row
    cases row.1.1.voteAccount with
    | none => simp
    | some _ => simp [Bool.decide_and]
  rw [stakersJoin, List.filter_filter, windowStakes_eq hm, List.filter_congr fun row _ => hcond row]
  refine (filter_leftJoin _ (fun row : StakesEtlRow × Option StakerReward =>
    decide (row.1.voteAccount = some voteAccount ∧ m ≤ row.1.epoch)) _ _).trans ?_
  rw [filter_leftJoin (onStake m) fun stake =>
    decide (stake.voteAccount = some voteAccount ∧ m ≤ stake.epoch)]

theorem mem_keysOf {row : StakersJoin} (hrow : row ∈ stakersJoin tables m) :
    stakersKey row ∈ keysOf tables m voteAccount ↔ row.1.1.voteAccount = some voteAccount := by
  unfold keysOf
  rw [List.mem_filter, List.mem_dedup, decide_eq_true_iff]
  exact and_iff_right (List.mem_map_of_mem hrow)

/-- The groups of the vote account have the joins of its stakes. -/
theorem sum_keysOf (hm : minEpoch tables.epochs = some m) (f : StakersJoin → Rat) :
    ((keysOf tables m voteAccount).map fun k =>
        (((stakersJoin tables m).filter fun row => stakersKey row = k).map f).sum).sum =
      ((leftJoin (fun row reward => onStake m row.1 reward)
        (leftJoin (onStake m) (windowStakes tables voteAccount) tables.rewardsInflation)
          tables.rewardsMev).map f).sum := by
  rw [sum_groups f nodup_keysOf, ← filter_stakersJoin hm]
  refine congrArg (fun rows : List StakersJoin => (rows.map f).sum)
    (List.filter_congr fun row hrow => ?_)
  exact decide_eq_decide.mpr (mem_keysOf hrow)

/-- The partners of a stake of the window. -/
theorem filter_onStake (hm : minEpoch tables.epochs = some m) {stake : StakesEtlRow}
    (hstake : stake ∈ windowStakes tables voteAccount) (table : List StakerReward) :
    table.filter (onStake m stake) = stakeRewards table stake := by
  rw [windowStakes_eq hm] at hstake
  obtain ⟨-, hepoch⟩ := of_decide_eq_true (List.mem_filter.mp hstake).2
  refine List.filter_congr fun reward _ => decide_eq_decide.mpr ?_
  unfold StakerReward.key StakesEtlRow.key
  rw [Prod.mk.injEq]
  constructor
  · rintro ⟨haccount, hsame, -⟩
    exact ⟨haccount.symm, hsame.symm⟩
  · rintro ⟨haccount, hsame⟩
    exact ⟨haccount.symm, hsame.symm, hsame ▸ hepoch⟩

/-- **The rewards of stakers fan out**: a row is counted once for each row of the other
table. -/
theorem sum_stakerRewards (hm : minEpoch tables.epochs = some m) :
    (((stakers tables m).filter fun row => row.voteAccount = some voteAccount).map fun row =>
        row.stakerInflation + row.stakerMev).sum =
      ((windowStakes tables voteAccount).map fun stake =>
        (max 1 (stakeRewards tables.rewardsMev stake).length : Nat) *
            stakeAmount tables.rewardsInflation stake +
          (max 1 (stakeRewards tables.rewardsInflation stake).length : Nat) *
            stakeAmount tables.rewardsMev stake).sum := by
  have hgroups : ((stakers tables m).filter fun row => row.voteAccount = some voteAccount).map
      (fun row => row.stakerInflation + row.stakerMev) =
      (keysOf tables m voteAccount).map fun k =>
        ((((stakersJoin tables m).filter fun row => stakersKey row = k).map joinedInflation).sum +
          (((stakersJoin tables m).filter fun row => stakersKey row = k).map joinedMev).sum) := by
    unfold stakers keysOf
    dsimp only
    rw [List.filter_map, List.map_map]
    rfl
  rw [hgroups, List.sum_map_add, sum_keysOf hm, sum_keysOf hm]
  have hleft := sum_join_left (onStake m) (onStake m) (windowStakes tables voteAccount)
    tables.rewardsInflation tables.rewardsMev StakerReward.value
  have hright := sum_join_right (onStake m) (onStake m) (windowStakes tables voteAccount)
    tables.rewardsInflation tables.rewardsMev StakerReward.value
  refine (congrArg₂ (· + ·) hleft hright).trans ?_
  rw [← List.sum_map_add]
  refine congrArg List.sum (List.map_congr_left fun stake hstake => ?_)
  rw [filter_onStake hm hstake, filter_onStake hm hstake]
  rfl

/-- The groups of a vote account are the epochs of its stakes. -/
theorem mem_keysOf_iff (hm : minEpoch tables.epochs = some m) {k : Option String × Nat} :
    k ∈ keysOf tables m voteAccount ↔ k.1 = some voteAccount ∧
      k.2 ∈ (windowStakes tables voteAccount).map StakesEtlRow.epoch := by
  have hvote : ∀ stake ∈ windowStakes tables voteAccount,
      stake.voteAccount = some voteAccount := fun stake hstake =>
    (of_decide_eq_true (List.mem_filter.mp hstake).2).1
  constructor
  · intro hk
    obtain ⟨hmem, hk₁⟩ := List.mem_filter.mp hk
    obtain ⟨row, hrow, rfl⟩ := List.mem_map.mp (List.mem_dedup.mp hmem)
    have hjoin : row ∈ leftJoin (fun row reward => onStake m row.1 reward)
        (leftJoin (onStake m) (windowStakes tables voteAccount) tables.rewardsInflation)
          tables.rewardsMev := by
      rw [← filter_stakersJoin hm]
      exact List.mem_filter.mpr ⟨hrow, hk₁⟩
    have hstake := mem_map_fst_leftJoin.mp (List.mem_map_of_mem (f := Prod.fst) hjoin)
    exact ⟨of_decide_eq_true hk₁, List.mem_map_of_mem
      (mem_map_fst_leftJoin.mp (List.mem_map_of_mem (f := Prod.fst) hstake))⟩
  · rintro ⟨hk₁, hk₂⟩
    obtain ⟨stake, hstake, hepoch⟩ := List.mem_map.mp hk₂
    have hinflation : stake ∈ (leftJoin (onStake m) (windowStakes tables voteAccount)
        tables.rewardsInflation).map Prod.fst := mem_map_fst_leftJoin.mpr hstake
    obtain ⟨row, hrow, rfl⟩ := List.mem_map.mp hinflation
    have hmev : row ∈ (leftJoin (fun row reward => onStake m row.1 reward)
        (leftJoin (onStake m) (windowStakes tables voteAccount) tables.rewardsInflation)
          tables.rewardsMev).map Prod.fst := mem_map_fst_leftJoin.mpr hrow
    obtain ⟨join, hjoin, rfl⟩ := List.mem_map.mp hmev
    rw [← filter_stakersJoin hm] at hjoin
    have hmem := (List.mem_filter.mp hjoin).1
    have hkey : stakersKey join = k := Prod.ext ((hvote _ hstake).trans hk₁.symm) hepoch
    exact hkey ▸ (mem_keysOf hmem).mpr (hvote _ hstake)

theorem getD_sqlSum (values : List (Option Rat)) :
    (sqlSum values).getD 0 = (values.map fun value => value.getD 0).sum := by
  rw [sum_getD_eq fun value : Option Rat => value]
  show (if values.reduceOption = [] then none else some values.reduceOption.sum).getD 0 =
    values.reduceOption.sum
  split
  · next h => rw [h]; rfl
  · rfl

theorem nodup_preAggregate (m : Nat) (table : List ValidatorReward) :
    ((preAggregate m table).map fun reward => (some reward.voteAccount, reward.epoch)).Nodup := by
  unfold preAggregate
  rw [List.map_map]
  refine List.Nodup.map (fun k k' h => ?_) (List.nodup_dedup _)
  obtain ⟨hvote, hepoch⟩ := Prod.mk.inj h
  exact Prod.ext (Option.some.inj hvote) hepoch

/-- **The rewards of validators do not fan out**: what is joined is the sum of the rows. -/
theorem find?_preAggregate (table : List ValidatorReward) {row : StakersRow}
    (hvote : row.voteAccount = some voteAccount) (hepoch : m ≤ row.epoch) :
    (((preAggregate m table).find? (onValidator row)).map ValidatorReward.value).getD 0 =
      ((table.filter fun reward => reward.key = (voteAccount, row.epoch)).map
        ValidatorReward.value).sum := by
  have hfilter : ((table.filter fun reward => m ≤ reward.epoch).filter fun reward =>
      reward.key = (voteAccount, row.epoch)) =
        table.filter fun reward => reward.key = (voteAccount, row.epoch) := by
    rw [List.filter_filter]
    refine List.filter_congr fun reward _ => ?_
    by_cases hkey : reward.key = (voteAccount, row.epoch)
    · have hsame : reward.epoch = row.epoch := (Prod.mk.inj hkey).2
      simp [hkey, hsame, hepoch]
    · simp [hkey]
  cases hfind : (preAggregate m table).find? (onValidator row) with
  | none =>
    have hnil : table.filter (fun reward => reward.key = (voteAccount, row.epoch)) = [] := by
      rw [← hfilter]
      refine List.filter_eq_nil_iff.mpr fun reward hreward hkey => ?_
      have hkey : reward.key = (voteAccount, row.epoch) := of_decide_eq_true hkey
      refine List.find?_eq_none.mp hfind _ (List.mem_map.mpr ⟨reward.key,
        List.mem_dedup.mpr (List.mem_map_of_mem hreward), rfl⟩) (decide_eq_true ?_)
      rw [hkey, hvote]
    rw [hnil]
    rfl
  | some reward =>
    obtain ⟨k, -, rfl⟩ := List.mem_map.mp (List.mem_of_find?_eq_some hfind)
    have hon := List.find?_some hfind
    obtain ⟨hk₁, hk₂⟩ := Prod.mk.inj (of_decide_eq_true hon)
    have hk : k = (voteAccount, row.epoch) :=
      Prod.ext (Option.some.inj (hk₁.trans hvote)) hk₂
    rw [Option.map_some, Option.getD_some, ← hfilter, ← hk]
    unfold ValidatorReward.value
    dsimp only
    rw [getD_sqlSum, List.map_map]
    rfl

/-- A row of `stakers` with its partners. -/
def rewardsRow (tables : RewardTables) (m : Nat) (row : StakersRow) : RewardsRow where
  stakers := row
  vi := (preAggregate m tables.rewardsValidatorsInflation).find? (onValidator row)
  vm := (preAggregate m tables.rewardsValidatorsMev).find? (onValidator row)
  vb := (preAggregate m tables.rewardsValidatorsBlocks).find? (onValidator row)

theorem rewardsRows_eq (tables : RewardTables) (m : Nat) :
    rewardsRows tables m = (stakers tables m).map (rewardsRow tables m) := by
  have hjoin : ∀ {α : Type} (f : α → StakersRow) (l : List α) (table : List ValidatorReward),
      leftJoin (fun row => onValidator (f row)) l (preAggregate m table) =
        l.map fun row => (row, (preAggregate m table).find? (onValidator (f row))) :=
    fun f l table => leftJoin_key (nodup_preAggregate m table)
      (fun row => ((f row).voteAccount, (f row).epoch)) l
  have hfirst : leftJoin onValidator (stakers tables m)
      (preAggregate m tables.rewardsValidatorsInflation) = _ := hjoin (fun row => row) _ _
  unfold rewardsRows
  dsimp only
  rw [hfirst, hjoin fun row : StakersRow × Option ValidatorReward => row.1,
    hjoin fun row : (StakersRow × Option ValidatorReward) × Option ValidatorReward => row.1.1,
    List.map_map, List.map_map, List.map_map]
  rfl

/-- The rows of a table for the groups of a vote account. -/
theorem sum_preAggregate (hm : minEpoch tables.epochs = some m) (table : List ValidatorReward) :
    (((stakers tables m).filter fun row => row.voteAccount = some voteAccount).map fun row =>
        (((preAggregate m table).find? (onValidator row)).map ValidatorReward.value).getD 0).sum =
      validatorTotal tables voteAccount table := by
  have hwindow : ∀ k ∈ keysOf tables m voteAccount, k.1 = some voteAccount ∧ m ≤ k.2 := by
    intro k hk
    obtain ⟨hvote, hepoch⟩ := (mem_keysOf_iff hm).mp hk
    obtain ⟨stake, hstake, hepoch⟩ := List.mem_map.mp hepoch
    rw [windowStakes_eq hm] at hstake
    exact ⟨hvote, hepoch ▸ (of_decide_eq_true (List.mem_filter.mp hstake).2).2⟩
  have hgroups : ((stakers tables m).filter fun row =>
      row.voteAccount = some voteAccount).map (fun row =>
        (((preAggregate m table).find? (onValidator row)).map ValidatorReward.value).getD 0) =
      ((keysOf tables m voteAccount).map fun k => (voteAccount, k.2)).map fun k =>
        ((table.filter fun reward => reward.key = k).map ValidatorReward.value).sum := by
    unfold stakers
    dsimp only
    rw [List.filter_map, List.map_map, List.map_map]
    refine List.map_congr_left fun k hk => ?_
    obtain ⟨hvote, hepoch⟩ := hwindow k hk
    exact find?_preAggregate table hvote hepoch
  have hnd : ((keysOf tables m voteAccount).map fun k => (voteAccount, k.2)).Nodup := by
    refine List.Nodup.map_on (fun k hk k' hk' h => ?_) nodup_keysOf
    exact Prod.ext ((hwindow k hk).1.trans (hwindow k' hk').1.symm) (Prod.mk.inj h).2
  rw [hgroups, sum_groups _ hnd]
  unfold validatorTotal
  refine congrArg (fun rows : List ValidatorReward => (rows.map ValidatorReward.value).sum)
    (List.filter_congr fun reward _ => decide_eq_decide.mpr ?_)
  rw [List.mem_map]
  constructor
  · rintro ⟨k, hk, heq⟩
    obtain ⟨hvote, hepoch⟩ := Prod.mk.inj heq
    exact ⟨hvote.symm, hepoch ▸ ((mem_keysOf_iff hm).mp hk).2⟩
  · rintro ⟨hvote, hepoch⟩
    exact ⟨(some voteAccount, reward.epoch), (mem_keysOf_iff hm).mpr ⟨rfl, hepoch⟩,
      Prod.ext hvote.symm rfl⟩

/-- The rewards of the stakers as the query counts them. -/
def countedStakerAmount (tables : RewardTables) (voteAccount : String) : Rat :=
  ((windowStakes tables voteAccount).map fun stake =>
    (max 1 (stakeRewards tables.rewardsMev stake).length : Nat) *
        stakeAmount tables.rewardsInflation stake +
      (max 1 (stakeRewards tables.rewardsInflation stake).length : Nat) *
        stakeAmount tables.rewardsMev stake).sum

/-- **What is returned** for a vote account. -/
theorem get?_loadTakeRates {scan : Scan} {rates : Dict String Rat} {rate : Rat}
    (hload : loadTakeRates scan tables = some rates) (hrate : rates.get? voteAccount = some rate) :
    countedStakerAmount tables voteAccount + validatorAmount tables voteAccount ≠ 0 ∧
      rate = validatorAmount tables voteAccount /
        (countedStakerAmount tables voteAccount + validatorAmount tables voteAccount) := by
  unfold loadTakeRates at hload
  cases hm : minEpoch tables.epochs with
  | none =>
    rw [hm] at hload
    obtain rfl := Option.some.inj hload
    nomatch hrate
  | some m =>
    rw [hm] at hload
    obtain ⟨converted, hconverted, rfl⟩ := Option.map_eq_some_iff.mp hload
    have hmem := Dict.mem_of_mem_ofList (Dict.mem_of_get? hrate)
    obtain ⟨⟨vote?, rate'⟩, hrow, hconv⟩ := (mem_mapM hconverted).mp hmem
    obtain ⟨vote, rfl, heq⟩ := Option.map_eq_some_iff.mp hconv
    obtain ⟨rfl, rfl⟩ := Prod.mk.inj heq
    rw [Scan.mem_order] at hrow
    obtain ⟨vote?, -, hdiv⟩ := List.mem_filterMap.mp hrow
    obtain ⟨quotient, hquotient, heq⟩ := Option.map_eq_some_iff.mp hdiv
    obtain ⟨rfl, rfl⟩ := Prod.mk.inj heq
    obtain ⟨hne, hrate⟩ := Option.ite_none_left_eq_some.mp hquotient
    have hgroup : (rewardsRows tables m).filter (fun row =>
        row.stakers.voteAccount = some vote) =
        ((stakers tables m).filter fun row => row.voteAccount = some vote).map
          (rewardsRow tables m) := by
      rw [rewardsRows_eq, List.filter_map]
      rfl
    have hvalidator : (((rewardsRows tables m).filter fun row =>
        row.stakers.voteAccount = some vote).map RewardsRow.validator).sum =
          validatorAmount tables vote := by
      rw [hgroup, List.map_map]
      unfold validatorAmount
      rw [← sum_preAggregate hm, ← sum_preAggregate hm, ← sum_preAggregate hm,
        ← List.sum_map_add, ← List.sum_map_add]
      rfl
    have htotal : (((rewardsRows tables m).filter fun row =>
        row.stakers.voteAccount = some vote).map fun row =>
          row.stakers.stakerInflation + row.stakers.stakerMev + row.validator).sum =
          countedStakerAmount tables vote + validatorAmount tables vote := by
      rw [List.sum_map_add, hvalidator, hgroup, List.map_map, countedStakerAmount,
        ← sum_stakerRewards hm]
      rfl
    rw [hvalidator, htotal] at hrate
    rw [htotal] at hne
    exact ⟨hne, (Option.some.inj hrate).symm⟩

/-! ## When a take rate counts every row once -/

/-- No reward is negative. -/
structure NonnegAmounts (tables : RewardTables) : Prop where
  stakers : ∀ reward ∈ tables.rewardsInflation ++ tables.rewardsMev, 0 ≤ reward.value
  validators : ∀ reward ∈ tables.rewardsValidatorsInflation ++ tables.rewardsValidatorsMev ++
    tables.rewardsValidatorsBlocks, 0 ≤ reward.value

/-- The take rate is the share of the validator, each row of the tables counted once, and so
it is between 0 and 1. -/
structure TakesShare (tables : RewardTables) (voteAccount : String) (rate : Rat) : Prop where
  total_ne_zero : stakerAmount tables voteAccount + validatorAmount tables voteAccount ≠ 0
  share : rate = validatorAmount tables voteAccount /
    (stakerAmount tables voteAccount + validatorAmount tables voteAccount)
  unit : NonnegAmounts tables → 0 ≤ rate ∧ rate ≤ 1

theorem sum_stakeAmount (hkey : (tables.stakes.map StakesEtlRow.key).Nodup)
    (table : List StakerReward) :
    ((windowStakes tables voteAccount).map (stakeAmount table)).sum =
      stakerTotal tables voteAccount table := by
  have hnd : ((windowStakes tables voteAccount).map StakesEtlRow.key).Nodup :=
    hkey.sublist (List.filter_sublist.map _)
  have h := @sum_groups _ _ _ StakerReward.key StakerReward.value _ hnd table
  rw [List.map_map] at h
  refine Eq.trans ?_ (h.trans ?_)
  · rfl
  · refine congrArg (fun rows : List StakerReward => (rows.map StakerReward.value).sum)
      (List.filter_congr fun reward _ => ?_)
    exact decide_eq_decide.mpr Iff.rfl

/-- The query counts the excess on top. -/
theorem countedStakerAmount_eq (hkey : (tables.stakes.map StakesEtlRow.key).Nodup) :
    countedStakerAmount tables voteAccount =
      stakerAmount tables voteAccount + excess tables voteAccount := by
  have hmax : ∀ n : Nat, ((max 1 n : Nat) : Rat) = 1 + ((n - 1 : Nat) : Rat) := by
    intro n
    have hn : max 1 n = 1 + (n - 1) := by omega
    rw [hn, Nat.cast_add, Nat.cast_one]
  unfold countedStakerAmount stakerAmount excess
  rw [← sum_stakeAmount hkey, ← sum_stakeAmount hkey, ← List.sum_map_add, ← List.sum_map_add]
  refine congrArg List.sum (List.map_congr_left fun stake _ => ?_)
  rw [hmax, hmax]
  ring

theorem stakeAmount_nonneg {table : List StakerReward}
    (h : ∀ reward ∈ table, 0 ≤ reward.value) (stake : StakesEtlRow) :
    0 ≤ stakeAmount table stake := by
  refine List.sum_nonneg fun value hvalue => ?_
  obtain ⟨reward, hreward, rfl⟩ := List.mem_map.mp hvalue
  exact h reward (List.mem_filter.mp hreward).1

/-- Without negative amounts the excess is zero if the rows that are counted more than once
are. -/
theorem excess_eq_zero_iff (hnonneg : NonnegAmounts tables) :
    excess tables voteAccount = 0 ↔ ∀ stake ∈ windowStakes tables voteAccount,
      (2 ≤ (stakeRewards tables.rewardsMev stake).length →
        stakeAmount tables.rewardsInflation stake = 0) ∧
      (2 ≤ (stakeRewards tables.rewardsInflation stake).length →
        stakeAmount tables.rewardsMev stake = 0) := by
  have hinflation := stakeAmount_nonneg fun reward hreward =>
    hnonneg.stakers reward (List.mem_append_left _ hreward)
  have hmev := stakeAmount_nonneg fun reward hreward =>
    hnonneg.stakers reward (List.mem_append_right _ hreward)
  have hfactor : ∀ {n : Nat} {amount : Rat}, ((n - 1 : Nat) : Rat) * amount = 0 ↔
      (2 ≤ n → amount = 0) := by
    intro n amount
    rw [mul_eq_zero, Nat.cast_eq_zero]
    constructor
    · rintro h hn
      exact h.resolve_left (by omega)
    · intro h
      by_cases hn : 2 ≤ n
      · exact Or.inr (h hn)
      · exact Or.inl (by omega)
  unfold excess
  constructor
  · intro hsum stake hstake
    have hzero := List.all_zero_of_le_zero_le_of_sum_eq_zero (fun amount hamount => ?_) hsum
      (List.mem_map_of_mem hstake)
    · have hleft := mul_nonneg (Nat.cast_nonneg (α := Rat)
        ((stakeRewards tables.rewardsMev stake).length - 1)) (hinflation stake)
      have hright := mul_nonneg (Nat.cast_nonneg (α := Rat)
        ((stakeRewards tables.rewardsInflation stake).length - 1)) (hmev stake)
      exact ⟨hfactor.mp (by linarith), hfactor.mp (by linarith)⟩
    · obtain ⟨stake', -, rfl⟩ := List.mem_map.mp hamount
      exact add_nonneg (mul_nonneg (Nat.cast_nonneg _) (hinflation stake'))
        (mul_nonneg (Nat.cast_nonneg _) (hmev stake'))
  · intro h
    refine List.sum_eq_zero fun amount hamount => ?_
    obtain ⟨stake, hstake, rfl⟩ := List.mem_map.mp hamount
    rw [hfactor.mpr (h stake hstake).1, hfactor.mpr (h stake hstake).2, add_zero]

theorem validatorTotal_nonneg {table : List ValidatorReward}
    (h : ∀ reward ∈ table, 0 ≤ reward.value) : 0 ≤ validatorTotal tables voteAccount table := by
  refine List.sum_nonneg fun value hvalue => ?_
  obtain ⟨reward, hreward, rfl⟩ := List.mem_map.mp hvalue
  exact h reward (List.mem_filter.mp hreward).1

/-- **A take rate is a share**, also one that counts rows too often. -/
theorem takeRate_mem_unit {scan : Scan} {rates : Dict String Rat} {rate : Rat}
    (hnonneg : NonnegAmounts tables) (hload : loadTakeRates scan tables = some rates)
    (hrate : rates.get? voteAccount = some rate) : 0 ≤ rate ∧ rate ≤ 1 := by
  obtain ⟨hne, rfl⟩ := get?_loadTakeRates hload hrate
  have hvalidator : 0 ≤ validatorAmount tables voteAccount := by
    refine add_nonneg (add_nonneg ?_ ?_) ?_ <;>
      refine validatorTotal_nonneg fun reward hreward => hnonneg.validators reward ?_
    · exact List.mem_append_left _ (List.mem_append_left _ hreward)
    · exact List.mem_append_left _ (List.mem_append_right _ hreward)
    · exact List.mem_append_right _ hreward
  have hstaker : 0 ≤ countedStakerAmount tables voteAccount := by
    refine List.sum_nonneg fun amount hamount => ?_
    obtain ⟨stake, -, rfl⟩ := List.mem_map.mp hamount
    exact add_nonneg
      (mul_nonneg (Nat.cast_nonneg _) (stakeAmount_nonneg (fun reward hreward =>
        hnonneg.stakers reward (List.mem_append_left _ hreward)) stake))
      (mul_nonneg (Nat.cast_nonneg _) (stakeAmount_nonneg (fun reward hreward =>
        hnonneg.stakers reward (List.mem_append_right _ hreward)) stake))
  exact ⟨div_nonneg hvalidator (add_nonneg hstaker hvalidator),
    div_le_one_of_le₀ (by linarith) (add_nonneg hstaker hvalidator)⟩

/-- **When a take rate counts every row once**: exactly if there is no excess, or nothing is
taken of something. -/
theorem takeRate_iff (scan : Scan) (tables : RewardTables)
    (hkey : (tables.stakes.map StakesEtlRow.key).Nodup) {rates : Dict String Rat}
    (hload : loadTakeRates scan tables = some rates) {voteAccount : String} {rate : Rat}
    (hrate : rates.get? voteAccount = some rate) :
    TakesShare tables voteAccount rate ↔ excess tables voteAccount = 0 ∨
      (validatorAmount tables voteAccount = 0 ∧ stakerAmount tables voteAccount ≠ 0) := by
  obtain ⟨hne, hvalue⟩ := get?_loadTakeRates hload hrate
  have hunit := fun hnonneg => takeRate_mem_unit hnonneg hload hrate
  rw [countedStakerAmount_eq hkey] at hne hvalue
  constructor
  · rintro ⟨htotal, hshare, -⟩
    by_cases hzero : validatorAmount tables voteAccount = 0
    · exact Or.inr ⟨hzero, by rwa [hzero, add_zero] at htotal⟩
    · left
      rw [hvalue, div_eq_div_iff hne htotal] at hshare
      have hcancel := mul_left_cancel₀ hzero hshare
      linarith
  · rintro (hexcess | ⟨hzero, hstaker⟩)
    · rw [hexcess, add_zero] at hne hvalue
      exact ⟨hne, hvalue, hunit⟩
    · refine ⟨by rwa [hzero, add_zero], ?_, hunit⟩
      rw [hvalue, hzero, zero_div, zero_div]

end Counting

/-! ### Two MEV rows for one stake account -/

/-- A stake with inflation and MEV rewards and a validator that takes inflation. -/
def oneStake (rewardsMev : List StakerReward) : RewardTables where
  epochs := [⟨800, some 0⟩]
  stakes := [⟨"stake", some "vote", 800⟩]
  rewardsInflation := [⟨"stake", 800, some 100⟩]
  rewardsMev := rewardsMev
  rewardsValidatorsInflation := [⟨"vote", 800, some 60⟩, ⟨"vote", 800, some 40⟩]
  rewardsValidatorsMev := []
  rewardsValidatorsBlocks := []

/-- With one MEV row each row counts once. -/
theorem takeRate_iff_single :
    ∃ rates, loadTakeRates .sequential (oneStake [⟨"stake", 800, some 20⟩]) = some rates ∧
      ∃ rate, rates.get? "vote" = some rate ∧
        TakesShare (oneStake [⟨"stake", 800, some 20⟩]) "vote" rate := by
  have hrun : (loadTakeRates .sequential (oneStake [⟨"stake", 800, some 20⟩])).bind
      (fun rates => rates.get? "vote") = some (100 / 220) := by decide +kernel
  obtain ⟨rates, hload, hrate⟩ := Option.bind_eq_some_iff.mp hrun
  exact ⟨rates, hload, _, hrate, (takeRate_iff _ _ (by decide) hload hrate).mpr
    (Or.inl (by decide +kernel))⟩

/-- With two MEV rows the inflation reward counts twice. -/
theorem takeRate_counts_twice :
    ¬ ∀ (scan : Scan) (tables : RewardTables), (tables.stakes.map StakesEtlRow.key).Nodup →
      ∀ rates, loadTakeRates scan tables = some rates → ∀ voteAccount rate,
        rates.get? voteAccount = some rate → TakesShare tables voteAccount rate := by
  intro h
  have hrun : (loadTakeRates .sequential
      (oneStake [⟨"stake", 800, some 10⟩, ⟨"stake", 800, some 10⟩])).bind
        (fun rates => rates.get? "vote") = some (100 / 320) := by decide +kernel
  obtain ⟨rates, hload, hrate⟩ := Option.bind_eq_some_iff.mp hrun
  have hshare := (h _ _ (by decide) rates hload "vote" _ hrate).share
  exact absurd hshare (by decide +kernel)

end DelegationStrategy.Store
