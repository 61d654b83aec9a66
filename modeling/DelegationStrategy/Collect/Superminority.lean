import DelegationStrategy.Collect.Snapshot
import DelegationStrategy.Lib.LargestFirst
import Mathlib.Data.UInt
import Mathlib.Algebra.Order.Ring.Rat
import Mathlib.Tactic.Linarith

/-!
# The superminority

`get_minimum_superminority_stake` (`collect/src/solana_service.rs`) and the rows that
`collect_validators_info` (`collect/src/validators.rs`) makes of the vote accounts.

The threshold is a third of the total stake, rounded down; as stakes are integers, a sum
exceeds it exactly if it exceeds the third itself (`moreThanThird_iff`). Stakes are `u64`s
whose sums wrap around; as long as the total does not, the scan is that of
`Lib.LargestFirst` (`exists_isCut`).

- `superminority_spec`: the minimum stake is that of the last of the fewest validators
  that hold more than a third.
- `superminority_afterRaise`: whoever gains `stake_to_become_superminority` becomes one of
  them, although the total and with it the threshold grow.
-/

namespace DelegationStrategy.Collect

open DelegationStrategy.Lib

/-! ## Vote accounts -/

/-- The fields of `RpcVoteAccountInfo` that the rows are made of. -/
structure RpcVoteAccountInfo where
  votePubkey : String
  nodePubkey : String
  activatedStake : UInt64
  deriving DecidableEq, Repr

structure RpcVoteAccountStatus where
  current : List RpcVoteAccountInfo
  delinquent : List RpcVoteAccountInfo
  deriving DecidableEq, Repr

/-- `current.iter().chain(delinquent.iter())`. -/
def RpcVoteAccountStatus.chain (voteAccounts : RpcVoteAccountStatus) : List RpcVoteAccountInfo :=
  voteAccounts.current ++ voteAccounts.delinquent

/-- `get_minimum_superminority_stake`. -/
def getMinimumSuperminorityStake (voteAccounts : RpcVoteAccountStatus) : UInt64 :=
  let activatedStakes := voteAccounts.chain.map RpcVoteAccountInfo.activatedStake
  let totalActivatedStake := activatedStakes.sum
  let superminorityThreshold := totalActivatedStake / 3
  cutFrom superminorityThreshold 0 0 (activatedStakes.insertionSort fun a b => b ≤ a)

/-- `u64::saturating_sub`. -/
def saturatingSub (a b : UInt64) : UInt64 := if b ≤ a then a - b else 0

/-- The field `superminority` of a row. -/
def superminority (minimumSuperminorityStake : UInt64) (voteAccount : RpcVoteAccountInfo) :
    Bool :=
  minimumSuperminorityStake ≤ voteAccount.activatedStake

/-- The field `stake_to_become_superminority` of a row. -/
def stakeToBecomeSuperminority (minimumSuperminorityStake : UInt64)
    (voteAccount : RpcVoteAccountInfo) : UInt64 :=
  saturatingSub minimumSuperminorityStake voteAccount.activatedStake

/-! ## Rows -/

/-- `ValidatorInfo`; its derived default has every field `None`. -/
structure ValidatorInfo where
  name : Option String := none
  url : Option String := none
  keybase : Option String := none
  iconUrl : Option String := none
  deriving DecidableEq, Repr

/-- What `collect_validators_info` gets from the cluster and from other services. -/
structure ValidatorsSources where
  epoch : Nat
  createdAt : Timestamp
  voteAccounts : RpcVoteAccountStatus
  marinadeStake : Dict String Nat
  foundationStake : Dict String Nat
  institutionalStake : Dict String Nat
  marinadeNativeStake : Dict String Nat
  selfStake : Dict String Nat
  validatorsInfo : Dict String ValidatorInfo
  dataCenters : Dict String (String × IpInfo)
  performance : Dict String ValidatorPerformance

/-- The row of a vote account. -/
def validatorSnapshot (sources : ValidatorsSources) (minimumSuperminorityStake : UInt64)
    (voteAccount : RpcVoteAccountInfo) (performance : ValidatorPerformance) :
    ValidatorSnapshot :=
  let votePubkey := voteAccount.votePubkey
  let identity := voteAccount.nodePubkey
  let info := (sources.validatorsInfo.get? identity).getD {}
  { voteAccount := votePubkey
    identity := identity
    nodeIp := (sources.dataCenters.get? identity).map fun (ip, _) => ip
    dataCenter := (sources.dataCenters.get? identity).map fun (_, dataCenter) =>
      ValidatorDataCenter.new dataCenter
    infoUrl := info.url
    infoName := info.name
    infoKeybase := info.keybase
    infoIconUrl := info.iconUrl
    activatedStake := voteAccount.activatedStake.toNat
    marinadeStake := (sources.marinadeStake.get? votePubkey).getD 0
    foundationStake := (sources.foundationStake.get? votePubkey).getD 0
    selfStake := (sources.selfStake.get? votePubkey).getD 0
    marinadeNativeStake := (sources.marinadeNativeStake.get? votePubkey).getD 0
    institutionalStake := (sources.institutionalStake.get? votePubkey).getD 0
    superminority := superminority minimumSuperminorityStake voteAccount
    stakeToBecomeSuperminority :=
      (stakeToBecomeSuperminority minimumSuperminorityStake voteAccount).toNat
    performance := performance }

/-- `collect_validators_info`; a vote account without performance panics. -/
def collectValidatorsInfo (sources : ValidatorsSources) : Option Snapshot := do
  let minimumSuperminorityStake := getMinimumSuperminorityStake sources.voteAccounts
  let validators ← sources.voteAccounts.chain.mapM fun voteAccount =>
    (sources.performance.get? voteAccount.votePubkey).map
      (validatorSnapshot sources minimumSuperminorityStake voteAccount)
  some { epoch := sources.epoch, createdAt := sources.createdAt, validators := validators }

/-! ## Stakes as numbers -/

/-- The stake that validators hold together. -/
def stakeOf (validators : List RpcVoteAccountInfo) : Nat :=
  (validators.map fun v => v.activatedStake.toNat).sum

/-- The total stake. -/
def RpcVoteAccountStatus.totalStake (voteAccounts : RpcVoteAccountStatus) : Nat :=
  stakeOf voteAccounts.chain

/-- Strictly more than one third of the total. -/
def MoreThanThird (total held : Nat) : Prop := (total : Rat) / 3 < held

/-- Rounding the third down makes no difference to integers. -/
theorem moreThanThird_iff {total held : Nat} : MoreThanThird total held ↔ total / 3 < held := by
  unfold MoreThanThird
  rw [div_lt_iff₀ (by norm_num), Nat.div_lt_iff_lt_mul (by omega)]
  exact_mod_cast Iff.rfl

/-- A sum that stays below `2 ^ 64` does not wrap around. -/
theorem toNat_sum {stakes : List UInt64} (h : (stakes.map UInt64.toNat).sum < 2 ^ 64) :
    stakes.sum.toNat = (stakes.map UInt64.toNat).sum := by
  induction stakes with
  | nil => rfl
  | cons stake stakes ih =>
    rw [List.map_cons, List.sum_cons] at h
    rw [List.sum_cons, UInt64.toNat_add, ih (by omega), List.map_cons, List.sum_cons,
      Nat.mod_eq_of_lt h]

/-- The scan over `u64`s is the scan over their numbers. -/
theorem toNat_cutFrom {threshold : UInt64} {stakes : List UInt64} {accumulated last : UInt64}
    (h : accumulated.toNat + (stakes.map UInt64.toNat).sum < 2 ^ 64) :
    (cutFrom threshold accumulated last stakes).toNat =
      cutFrom threshold.toNat accumulated.toNat last.toNat (stakes.map UInt64.toNat) := by
  induction stakes generalizing accumulated last with
  | nil => rfl
  | cons stake stakes ih =>
    rw [List.map_cons, List.sum_cons] at h
    have hadd : (accumulated + stake).toNat = accumulated.toNat + stake.toNat := by
      rw [UInt64.toNat_add, Nat.mod_eq_of_lt (by omega)]
    rw [List.map_cons]
    unfold cutFrom
    rw [← hadd]
    by_cases hlt : threshold < accumulated + stake
    · rw [if_pos hlt, if_pos (UInt64.lt_iff_toNat_lt.mp hlt)]
    · rw [if_neg hlt, if_neg fun hnat => hlt (UInt64.lt_iff_toNat_lt.mpr hnat)]
      exact ih (by omega)

/-- The stakes, the largest first. -/
def descendingStakes (voteAccounts : RpcVoteAccountStatus) : List Nat :=
  (voteAccounts.chain.map fun v => v.activatedStake.toNat).insertionSort (· ≥ ·)

theorem descendingStakes_perm (voteAccounts : RpcVoteAccountStatus) :
    (descendingStakes voteAccounts).Perm
      (voteAccounts.chain.map fun v => v.activatedStake.toNat) :=
  List.perm_insertionSort _ _

theorem descendingStakes_pairwise (voteAccounts : RpcVoteAccountStatus) :
    (descendingStakes voteAccounts).Pairwise (· ≥ ·) :=
  List.pairwise_insertionSort _ _

/-- The `u64`s are sorted as their numbers are. -/
theorem map_toNat_insertionSort (stakes : List UInt64) :
    (stakes.insertionSort fun a b => b ≤ a).map UInt64.toNat =
      (stakes.map UInt64.toNat).insertionSort (· ≥ ·) :=
  List.map_insertionSort _ _ _ _ fun _ _ _ _ => UInt64.le_iff_toNat_le

section Minimum

variable {voteAccounts : RpcVoteAccountStatus}

/-- **The minimum stake** is where the largest stakes exceed a third of the total. -/
theorem exists_isCut (hpos : 0 < voteAccounts.totalStake)
    (hfit : voteAccounts.totalStake < 2 ^ 64) :
    ∃ k, IsCut (voteAccounts.totalStake / 3) (descendingStakes voteAccounts) k
      (getMinimumSuperminorityStake voteAccounts).toNat := by
  have hsum : (descendingStakes voteAccounts).sum = voteAccounts.totalStake :=
    (descendingStakes_perm voteAccounts).sum_eq
  have hstakes : ((voteAccounts.chain.map RpcVoteAccountInfo.activatedStake).map
      UInt64.toNat).sum = voteAccounts.totalStake := by
    rw [List.map_map]
    rfl
  have hsorted : ((voteAccounts.chain.map RpcVoteAccountInfo.activatedStake).insertionSort
      fun a b => b ≤ a).map UInt64.toNat = descendingStakes voteAccounts := by
    rw [map_toNat_insertionSort, List.map_map]
    rfl
  have hthreshold : ((voteAccounts.chain.map RpcVoteAccountInfo.activatedStake).sum / 3).toNat =
      voteAccounts.totalStake / 3 := by
    rw [UInt64.toNat_div, toNat_sum (by rw [hstakes]; exact hfit), hstakes]
    rfl
  have hmin : (getMinimumSuperminorityStake voteAccounts).toNat =
      cutFrom (voteAccounts.totalStake / 3) 0 0 (descendingStakes voteAccounts) := by
    unfold getMinimumSuperminorityStake
    dsimp only
    rw [toNat_cutFrom (by rw [hsorted, hsum]; simpa using hfit), hthreshold, hsorted]
    rfl
  rw [hmin]
  exact isCut_cutFrom 0 (by rw [hsum]; omega) (Nat.zero_le _)

/-- The stake of the vote accounts that a bound on stakes selects. -/
theorem stakeOf_filter (voteAccounts : RpcVoteAccountStatus) (p : Nat → Bool) :
    stakeOf (voteAccounts.chain.filter fun v => p v.activatedStake.toNat) =
      ((descendingStakes voteAccounts).filter p).sum := by
  rw [((descendingStakes_perm voteAccounts).filter p).sum_eq, List.filter_map]
  rfl

/-- The superminority holds more than a third. -/
theorem stakeOf_superminority (hpos : 0 < voteAccounts.totalStake)
    (hfit : voteAccounts.totalStake < 2 ^ 64) :
    voteAccounts.totalStake / 3 < stakeOf (voteAccounts.chain.filter
      (superminority (getMinimumSuperminorityStake voteAccounts))) := by
  obtain ⟨k, hcut⟩ := exists_isCut hpos hfit
  have hflag : superminority (getMinimumSuperminorityStake voteAccounts) = fun v =>
      decide ((getMinimumSuperminorityStake voteAccounts).toNat ≤ v.activatedStake.toNat) := by
    funext v
    exact decide_eq_decide.mpr UInt64.le_iff_toNat_le
  rw [hflag, stakeOf_filter voteAccounts fun stake => decide (_ ≤ stake)]
  exact hcut.sum_filter_le (descendingStakes_pairwise voteAccounts)

/-- The validators above the minimum do not. -/
theorem stakeOf_above (hpos : 0 < voteAccounts.totalStake)
    (hfit : voteAccounts.totalStake < 2 ^ 64) :
    stakeOf (voteAccounts.chain.filter fun v =>
      getMinimumSuperminorityStake voteAccounts < v.activatedStake) ≤
        voteAccounts.totalStake / 3 := by
  obtain ⟨k, hcut⟩ := exists_isCut hpos hfit
  have habove : (fun v : RpcVoteAccountInfo =>
      decide (getMinimumSuperminorityStake voteAccounts < v.activatedStake)) = fun v =>
      decide ((getMinimumSuperminorityStake voteAccounts).toNat < v.activatedStake.toNat) := by
    funext v
    exact decide_eq_decide.mpr UInt64.lt_iff_toNat_lt
  rw [habove, stakeOf_filter voteAccounts fun stake => decide (_ < stake)]
  exact hcut.sum_filter_lt (descendingStakes_pairwise voteAccounts)

/-- Nothing is missing to the minimum exactly for those who have it. -/
theorem stakeToBecomeSuperminority_eq_zero_iff {minimum : UInt64} {v : RpcVoteAccountInfo} :
    stakeToBecomeSuperminority minimum v = 0 ↔ superminority minimum v = true := by
  unfold stakeToBecomeSuperminority saturatingSub superminority
  rw [decide_eq_true_iff]
  by_cases h : v.activatedStake ≤ minimum
  · rw [if_pos h, sub_eq_zero]
    exact ⟨fun heq => heq ▸ UInt64.le_refl _, fun hle => UInt64.le_antisymm hle h⟩
  · rw [if_neg h]
    exact iff_of_true rfl (UInt64.le_of_lt (UInt64.not_le.mp h))

/-- Sets of validators and sets of stakes: the same sizes exceed a third. -/
theorem sizes_eq (voteAccounts : RpcVoteAccountStatus) :
    {n | ∃ set : List RpcVoteAccountInfo, set.Sublist voteAccounts.chain ∧ set.length = n ∧
      MoreThanThird voteAccounts.totalStake (stakeOf set)} =
    {n | ∃ s : List Nat, s.Subperm (descendingStakes voteAccounts) ∧ s.length = n ∧
      voteAccounts.totalStake / 3 < s.sum} := by
  have hperm := descendingStakes_perm voteAccounts
  ext n
  constructor
  · rintro ⟨set, hset, rfl, hthird⟩
    refine ⟨set.map fun v => v.activatedStake.toNat, ?_, List.length_map _, ?_⟩
    · exact (hset.map _).subperm.trans hperm.symm.subperm
    · exact moreThanThird_iff.mp hthird
  · rintro ⟨s, hs, rfl, hsum⟩
    obtain ⟨s', hs', hsub⟩ := hs.trans hperm.subperm
    obtain ⟨set, hset, rfl⟩ := List.sublist_map_iff.mp hsub
    refine ⟨set, hset, ?_, moreThanThird_iff.mpr ?_⟩
    · rw [← hs'.length_eq, List.length_map]
    · rw [← hs'.sum_eq] at hsum
      exact hsum

end Minimum

/-! ## The rows of a snapshot -/

/-- The fields of a row that the superminority is about. -/
def ValidatorSnapshot.flags (row : ValidatorSnapshot) : String × Nat × Bool × Nat :=
  (row.voteAccount, row.activatedStake, row.superminority, row.stakeToBecomeSuperminority)

/-- What the collector writes for a vote account. -/
def flags (minimum : UInt64) (v : RpcVoteAccountInfo) : String × Nat × Bool × Nat :=
  (v.votePubkey, v.activatedStake.toNat, superminority minimum v,
    (stakeToBecomeSuperminority minimum v).toNat)

/-- A snapshot has a row for each vote account. -/
theorem flags_collectValidatorsInfo {sources : ValidatorsSources} {snapshot : Snapshot}
    (h : collectValidatorsInfo sources = some snapshot) :
    snapshot.validators.map ValidatorSnapshot.flags = sources.voteAccounts.chain.map
      (flags (getMinimumSuperminorityStake sources.voteAccounts)) := by
  obtain ⟨validators, hrows, hsnapshot⟩ := Option.bind_eq_some_iff.mp h
  obtain rfl := Option.some.inj hsnapshot
  refine map_mapM (fun v row hrow => ?_) hrows
  obtain ⟨performance, -, rfl⟩ := Option.map_eq_some_iff.mp hrow
  rfl

/-- **The superminority**: the minimum stake is the `k`-th largest one, for the least number
`k` of validators that can hold more than a third of the total; those who have it hold more
than a third, those above it do not; and the rows of a snapshot say who has it and, of
all others, what is missing. -/
theorem superminority_spec (sources : ValidatorsSources)
    (hpos : 0 < sources.voteAccounts.totalStake)
    (hfit : sources.voteAccounts.totalStake < 2 ^ 64) :
    let voteAccounts := sources.voteAccounts
    let minimum := getMinimumSuperminorityStake voteAccounts
    (∃ k, IsLeast {n | ∃ set : List RpcVoteAccountInfo, set.Sublist voteAccounts.chain ∧
          set.length = n ∧ MoreThanThird voteAccounts.totalStake (stakeOf set)} k ∧
        0 < k ∧ (descendingStakes voteAccounts)[k - 1]? = some minimum.toNat) ∧
      MoreThanThird voteAccounts.totalStake
        (stakeOf (voteAccounts.chain.filter (superminority minimum))) ∧
      ¬ MoreThanThird voteAccounts.totalStake
        (stakeOf (voteAccounts.chain.filter fun v => minimum < v.activatedStake)) ∧
      (∀ v, stakeToBecomeSuperminority minimum v = 0 ↔ superminority minimum v = true) ∧
      ∀ snapshot, collectValidatorsInfo sources = some snapshot →
        snapshot.validators.map ValidatorSnapshot.flags =
          voteAccounts.chain.map (flags minimum) := by
  intro voteAccounts minimum
  obtain ⟨k, hcut⟩ := exists_isCut hpos hfit
  refine ⟨⟨k + 1, ?_, Nat.succ_pos k, hcut.value⟩, ?_, ?_, ?_, ?_⟩
  · rw [sizes_eq]
    exact hcut.isLeast (descendingStakes_pairwise voteAccounts)
  · exact moreThanThird_iff.mpr (stakeOf_superminority hpos hfit)
  · rw [moreThanThird_iff, not_lt]
    exact stakeOf_above hpos hfit
  · exact fun v => stakeToBecomeSuperminority_eq_zero_iff
  · exact fun snapshot h => flags_collectValidatorsInfo h

/-- A vote account with this stake. -/
def voteAccountOf (votePubkey : String) (activatedStake : UInt64) : RpcVoteAccountInfo :=
  ⟨votePubkey, "identity " ++ votePubkey, activatedStake⟩

/-- Two current and two delinquent vote accounts; the third one has a stake of `stake`. -/
def fourVoteAccounts (stake : UInt64) : RpcVoteAccountStatus :=
  ⟨[voteAccountOf "first" 40, voteAccountOf "second" 10],
    [voteAccountOf "third" stake, voteAccountOf "fourth" 20]⟩

/-- A cluster of these vote accounts, with the same performance. -/
def fourSources : ValidatorsSources where
  epoch := 500
  createdAt := 0
  voteAccounts := fourVoteAccounts 30
  marinadeStake := Dict.empty
  foundationStake := Dict.empty
  institutionalStake := Dict.empty
  marinadeNativeStake := Dict.empty
  selfStake := Dict.empty
  validatorsInfo := Dict.empty
  dataCenters := Dict.empty
  performance := Dict.ofList ((fourVoteAccounts 30).chain.map fun v =>
    (v.votePubkey, ⟨5, none, 10, 4, 4, 0, false⟩))

/-- Of a total of 100 the largest stake alone is more than a third. -/
theorem superminority_spec_four :
    getMinimumSuperminorityStake (fourVoteAccounts 30) = 40 ∧
      MoreThanThird 100
        (stakeOf ((fourVoteAccounts 30).chain.filter
          (superminority (getMinimumSuperminorityStake (fourVoteAccounts 30))))) ∧
      ¬ MoreThanThird 100
        (stakeOf ((fourVoteAccounts 30).chain.filter fun v =>
          getMinimumSuperminorityStake (fourVoteAccounts 30) < v.activatedStake)) ∧
      ∃ snapshot, collectValidatorsInfo fourSources = some snapshot ∧
        snapshot.validators.map ValidatorSnapshot.flags =
          [("first", 40, true, 0), ("second", 10, false, 30), ("third", 30, false, 10),
            ("fourth", 20, false, 20)] := by
  obtain ⟨-, hflagged, habove, -, hrows⟩ :=
    superminority_spec fourSources (by decide) (by decide)
  obtain ⟨snapshot, hsnapshot⟩ : ∃ snapshot, collectValidatorsInfo fourSources = some snapshot :=
    Option.isSome_iff_exists.mp (by decide)
  have hflags : (fourVoteAccounts 30).chain.map
      (flags (getMinimumSuperminorityStake (fourVoteAccounts 30))) =
        [("first", 40, true, 0), ("second", 10, false, 30), ("third", 30, false, 10),
          ("fourth", 20, false, 20)] := by
    decide
  exact ⟨by decide, hflagged, habove, snapshot, hsnapshot,
    (hrows snapshot hsnapshot).trans hflags⟩

/-! ## A raised stake -/

/-- The vote account with more stake. -/
def RpcVoteAccountInfo.raise (v : RpcVoteAccountInfo) (stake : UInt64) : RpcVoteAccountInfo :=
  { v with activatedStake := v.activatedStake + stake }

/-- With what is missing, the stake is at least the minimum, and not below what it was. -/
theorem le_raise (minimum : UInt64) (v : RpcVoteAccountInfo) :
    minimum ≤ (v.raise (stakeToBecomeSuperminority minimum v)).activatedStake ∧
      v.activatedStake ≤ (v.raise (stakeToBecomeSuperminority minimum v)).activatedStake := by
  unfold RpcVoteAccountInfo.raise stakeToBecomeSuperminority saturatingSub
  dsimp only
  by_cases h : v.activatedStake ≤ minimum
  · rw [if_pos h, add_sub_cancel]
    exact ⟨UInt64.le_refl _, h⟩
  · rw [if_neg h, add_zero]
    exact ⟨UInt64.le_of_lt (UInt64.not_le.mp h), UInt64.le_refl _⟩

section Raise

variable {before after : RpcVoteAccountStatus} {pre post : List RpcVoteAccountInfo}
  {v v' : RpcVoteAccountInfo}

theorem stakeOf_append (l l' : List RpcVoteAccountInfo) :
    stakeOf (l ++ l') = stakeOf l + stakeOf l' := by
  unfold stakeOf
  rw [List.map_append, List.sum_append]

theorem stakeOf_cons (v : RpcVoteAccountInfo) (l : List RpcVoteAccountInfo) :
    stakeOf (v :: l) = v.activatedStake.toNat + stakeOf l := by
  unfold stakeOf
  rw [List.map_cons, List.sum_cons]

/-- A larger stake of one validator makes the total larger. -/
theorem totalStake_le (hbefore : before.chain = pre ++ v :: post)
    (hafter : after.chain = pre ++ v' :: post) (hle : v.activatedStake ≤ v'.activatedStake) :
    before.totalStake ≤ after.totalStake := by
  have hnat := UInt64.le_iff_toNat_le.mp hle
  unfold RpcVoteAccountStatus.totalStake
  rw [hbefore, hafter, stakeOf_append, stakeOf_append, stakeOf_cons, stakeOf_cons]
  omega

theorem stakeOf_le {l l' : List RpcVoteAccountInfo} (h : l.Sublist l') :
    stakeOf l ≤ stakeOf l' :=
  (h.map _).sum_le_sum fun _ _ => Nat.zero_le _

/-- Whoever has more than a bound, apart from the raised validator, had more before. -/
theorem stakeOf_filter_le (hbefore : before.chain = pre ++ v :: post)
    (hafter : after.chain = pre ++ v' :: post) {bound minimum : UInt64}
    (hv' : v'.activatedStake < minimum) (hbound : bound < minimum) :
    stakeOf (after.chain.filter (superminority minimum)) ≤
      stakeOf (before.chain.filter fun w => bound < w.activatedStake) := by
  have hdrop : superminority minimum v' = false :=
    decide_eq_false (UInt64.not_le.mpr hv')
  have hrest : after.chain.filter (superminority minimum) =
      (pre ++ post).filter (superminority minimum) := by
    rw [hafter, List.filter_append, List.filter_append, List.filter_cons_of_neg (by simp [hdrop])]
  have himp : ∀ w : RpcVoteAccountInfo, superminority minimum w = true →
      decide (bound < w.activatedStake) = true := by
    intro w hw
    exact decide_eq_true (UInt64.lt_of_lt_of_le hbound (of_decide_eq_true hw))
  have hsub : (pre ++ post).Sublist before.chain := by
    rw [hbefore]
    exact (List.sublist_cons_self v post).append_left pre
  rw [hrest]
  exact stakeOf_le ((List.monotone_filter_right _ himp).trans (hsub.filter _))

end Raise

/-- **What is missing is enough**: whoever gains it, and nobody else anything, is in the
superminority of the new stakes. -/
theorem superminority_afterRaise (before after : RpcVoteAccountStatus)
    (pre post : List RpcVoteAccountInfo) (v : RpcVoteAccountInfo)
    (hbefore : before.chain = pre ++ v :: post)
    (hafter : after.chain = pre ++ v.raise
      (stakeToBecomeSuperminority (getMinimumSuperminorityStake before) v) :: post)
    (hpos : 0 < before.totalStake) (hfit : after.totalStake < 2 ^ 64) :
    superminority (getMinimumSuperminorityStake after)
      (v.raise (stakeToBecomeSuperminority (getMinimumSuperminorityStake before) v)) = true := by
  obtain ⟨hmin, hmore⟩ := le_raise (getMinimumSuperminorityStake before) v
  generalize v.raise (stakeToBecomeSuperminority (getMinimumSuperminorityStake before) v) = v' at *
  have htotal := totalStake_le hbefore hafter hmore
  unfold superminority
  rw [decide_eq_true_iff]
  by_contra hnot
  have hbelow := UInt64.not_le.mp hnot
  -- otherwise all of the new superminority were above the old minimum
  have hsubset := stakeOf_filter_le hbefore hafter hbelow (UInt64.lt_of_le_of_lt hmin hbelow)
  have hnew := stakeOf_superminority (hpos.trans_le htotal) hfit
  have hold := stakeOf_above hpos (htotal.trans_lt hfit)
  omega

/-- With ten more the third vote account is in the superminority, although the total grows. -/
theorem superminority_afterRaise_four :
    stakeToBecomeSuperminority (getMinimumSuperminorityStake (fourVoteAccounts 30))
        (voteAccountOf "third" 30) = 10 ∧
      superminority (getMinimumSuperminorityStake (fourVoteAccounts 40))
        ((voteAccountOf "third" 30).raise (stakeToBecomeSuperminority
          (getMinimumSuperminorityStake (fourVoteAccounts 30)) (voteAccountOf "third" 30))) =
        true :=
  ⟨by decide, superminority_afterRaise (fourVoteAccounts 30) (fourVoteAccounts 40)
    [voteAccountOf "first" 40, voteAccountOf "second" 10] [voteAccountOf "fourth" 20]
    (voteAccountOf "third" 30) rfl (by decide) (by decide) (by decide)⟩

end DelegationStrategy.Collect
