import DelegationStrategy.Api.ReportsStaking
import DelegationStrategy.Lib.Binary64
import DelegationStrategy.Lib.Pages

/-!
# The order of the staking plan

`filter_and_sort_stakes` (`api/src/handlers/reports_staking.rs`) drops the records without a
change of stake and sorts the rest: increases first, by descending `next_stake`, then
decreases by the amount that is taken away.

The order holds for all stakes below `2 ^ 63`. The filter subtracts the stakes as doubles, so
it also drops changes between stakes with one double: `filterAndSortStakes_iff` says that the
plan keeps every change exactly if there is no such record.
-/

namespace DelegationStrategy.Api

open DelegationStrategy.Lib DelegationStrategy.Store

/-- `stake as i64`. -/
def u64AsI64 (stake : Nat) : Int := Int.bmod stake (2 ^ 64)

/-- `stake.next_stake as f64 - stake.current_stake as f64 != 0.0` -/
def retainsStake (stake : StakingChange) : Bool :=
  binary64Sub (toBinary64 stake.nextStake) (toBinary64 stake.currentStake) ≠ 0

/-- The key of `sort_by_key`, in the arithmetic of `i64`. -/
def stakeSortKey (a : StakingChange) : Int :=
  if 0 < a.nextStake ∧ a.currentStake < a.nextStake then
    Int.bmod (-u64AsI64 a.nextStake) (2 ^ 64)
  else
    Int.bmod (u64AsI64 a.currentStake - u64AsI64 a.nextStake) (2 ^ 64)

/-- `filter_and_sort_stakes`. -/
def filterAndSortStakes (records : List StakingChange) : List StakingChange :=
  sortBy stakeSortKey (records.filter retainsStake)

/-! ## The plan -/

def StakingChange.Increase (r : StakingChange) : Prop := r.currentStake < r.nextStake

def StakingChange.Decrease (r : StakingChange) : Prop := r.nextStake < r.currentStake

/-- `r` may come before `r'` in a plan. -/
structure InPlanOrder (r r' : StakingChange) : Prop where
  increases_first : ¬ (r.Decrease ∧ r'.Increase)
  descending : r.Increase → r'.Increase → r'.nextStake ≤ r.nextStake
  ascending : r.Decrease → r'.Decrease →
    r.currentStake - r.nextStake ≤ r'.currentStake - r'.nextStake

/-- The plan has every change of stake once, in order. -/
structure KeepsChanges (records plan : List StakingChange) : Prop where
  kept : plan.Perm (records.filter fun r => r.nextStake ≠ r.currentStake)
  ordered : plan.Pairwise InPlanOrder

/-- Stakes that differ have different doubles. -/
def StakesApart (r : StakingChange) : Prop :=
  r.nextStake ≠ r.currentStake → toBinary64 r.nextStake ≠ toBinary64 r.currentStake

/-- The stakes fit into `i64`. -/
def StakesFitI64 (r : StakingChange) : Prop := r.currentStake < 2 ^ 63 ∧ r.nextStake < 2 ^ 63

/-! ## The filter -/

theorem retainsStake_iff {r : StakingChange} :
    retainsStake r ↔ toBinary64 r.nextStake ≠ toBinary64 r.currentStake := by
  unfold retainsStake
  rw [decide_eq_true_eq, Ne, binary64Sub_eq_zero_iff]

/-- A record that is kept is a change. -/
theorem ne_of_retainsStake {r : StakingChange} (h : retainsStake r) :
    r.nextStake ≠ r.currentStake := by
  intro heq
  rw [retainsStake_iff, heq] at h
  exact h rfl

/-- The filter keeps the changes exactly if the stakes of each change have different doubles. -/
theorem filter_retainsStake_iff {records : List StakingChange} :
    (records.filter retainsStake).Perm (records.filter fun r => r.nextStake ≠ r.currentStake) ↔
      ∀ r ∈ records, StakesApart r := by
  have hsub : ∀ r, retainsStake r → decide (r.nextStake ≠ r.currentStake) = true :=
    fun r h => decide_eq_true (ne_of_retainsStake h)
  constructor
  · intro hperm r hr hne
    have hmem := hperm.mem_iff.mpr (List.mem_filter.mpr ⟨hr, decide_eq_true hne⟩)
    exact retainsStake_iff.mp (List.mem_filter.mp hmem).2
  · intro hapart
    refine List.Perm.of_eq (List.filter_congr fun r hr => ?_)
    rw [Bool.eq_iff_iff]
    exact ⟨hsub r, fun h => retainsStake_iff.mpr (hapart r hr (of_decide_eq_true h))⟩

/-! ## The sort -/

theorem u64AsI64_of_lt {stake : Nat} (h : stake < 2 ^ 63) : u64AsI64 stake = stake := by
  unfold u64AsI64
  rw [Int.bmod_eq_of_le] <;> omega

theorem stakeSortKey_of_increase {r : StakingChange} (hfit : StakesFitI64 r) (h : r.Increase) :
    stakeSortKey r = -(r.nextStake : Int) := by
  unfold StakingChange.Increase at h
  unfold stakeSortKey
  rw [if_pos ⟨by omega, h⟩, u64AsI64_of_lt hfit.2]
  have := hfit.2
  rw [Int.bmod_eq_of_le] <;> omega

theorem stakeSortKey_of_decrease {r : StakingChange} (hfit : StakesFitI64 r) (h : r.Decrease) :
    stakeSortKey r = (r.currentStake : Int) - r.nextStake := by
  unfold StakingChange.Decrease at h
  unfold stakeSortKey
  rw [if_neg (by omega), u64AsI64_of_lt hfit.1, u64AsI64_of_lt hfit.2]
  have := hfit.1
  rw [Int.bmod_eq_of_le] <;> omega

/-- The two formulas of the key do not collide: increases have negative keys, and decreases
positive ones. -/
theorem inPlanOrder_of_le {r r' : StakingChange} (hfit : StakesFitI64 r) (hfit' : StakesFitI64 r')
    (h : stakeSortKey r ≤ stakeSortKey r') : InPlanOrder r r' where
  increases_first := by
    rintro ⟨hdec, hinc⟩
    rw [stakeSortKey_of_decrease hfit hdec, stakeSortKey_of_increase hfit' hinc] at h
    unfold StakingChange.Decrease at hdec
    omega
  descending hinc hinc' := by
    rw [stakeSortKey_of_increase hfit hinc, stakeSortKey_of_increase hfit' hinc'] at h
    omega
  ascending hdec hdec' := by
    rw [stakeSortKey_of_decrease hfit hdec, stakeSortKey_of_decrease hfit' hdec'] at h
    unfold StakingChange.Decrease at hdec hdec'
    omega

theorem pairwise_filterAndSortStakes {records : List StakingChange}
    (hfit : ∀ r ∈ records, StakesFitI64 r) :
    (filterAndSortStakes records).Pairwise InPlanOrder := by
  have hmem : ∀ r ∈ filterAndSortStakes records, StakesFitI64 r := fun r hr =>
    hfit r (List.mem_of_mem_filter ((sortBy_perm _ _).mem_iff.mp hr))
  exact (pairwise_sortBy stakeSortKey _).imp_of_mem fun hr hr' h =>
    inPlanOrder_of_le (hmem _ hr) (hmem _ hr') h

/-! ## Every change -/

/-- **The plan** of stakes below `2 ^ 63` has every change in order exactly if no change is
between stakes with one double. -/
theorem filterAndSortStakes_iff {records : List StakingChange}
    (hfit : ∀ r ∈ records, StakesFitI64 r) :
    KeepsChanges records (filterAndSortStakes records) ↔ ∀ r ∈ records, StakesApart r := by
  rw [← filter_retainsStake_iff]
  have hsort : (filterAndSortStakes records).Perm (records.filter retainsStake) :=
    sortBy_perm _ _
  exact ⟨fun h => hsort.symm.trans h.kept,
    fun h => ⟨hsort.trans h, pairwise_filterAndSortStakes hfit⟩⟩

/-- Two increases, a stake without a change and two decreases, one of them to zero. -/
def somePlannedStakes : List StakingChange :=
  [⟨"vote1", "identity1", 1, 7, 9⟩, ⟨"vote2", "identity2", 0, 5, 0⟩,
    ⟨"vote3", "identity3", 1, 4, 4⟩, ⟨"vote4", "identity4", 1, 8, 6⟩,
    ⟨"vote5", "identity5", 1, 0, 2 ^ 60⟩]

theorem somePlannedStakes_keepsChanges :
    KeepsChanges somePlannedStakes (filterAndSortStakes somePlannedStakes) := by
  refine (filterAndSortStakes_iff ?_).mpr ?_
  · simp [somePlannedStakes, StakesFitI64]
  · have hretained : ∀ r ∈ somePlannedStakes, r.nextStake ≠ r.currentStake → retainsStake r := by
      decide +kernel
    exact fun r hr hne => retainsStake_iff.mp (hretained r hr hne)

/-- A stake of ten million SOL and one lamport, of which one lamport is to be taken away. -/
def lamportOver : StakingChange := ⟨"vote", "identity", 1, 10 ^ 16 + 1, 10 ^ 16⟩

/-- The plan does not have it. -/
theorem lamportOver_dropped :
    (∀ r ∈ [lamportOver], StakesFitI64 r) ∧ filterAndSortStakes [lamportOver] = [] ∧
      ¬ KeepsChanges [lamportOver] (filterAndSortStakes [lamportOver]) := by
  have hdropped : filterAndSortStakes [lamportOver] = [] := by decide +kernel
  refine ⟨by simp [lamportOver, StakesFitI64], hdropped, fun h => ?_⟩
  have hkept := h.kept
  rw [hdropped] at hkept
  exact absurd hkept.length_eq (by decide)

/-- Stakes below `2 ^ 53` lamports are apart, and so are stakes that differ by more than 1024. -/
theorem stakesApart_of_fit {r : StakingChange} (hfit : StakesFitI64 r)
    (h : (r.currentStake < 2 ^ 53 ∧ r.nextStake < 2 ^ 53) ∨
      1024 < |(r.nextStake : Int) - r.currentStake|) : StakesApart r := by
  intro hne
  rcases h with ⟨hcurrent, hnext⟩ | hgap
  · rw [toBinary64_of_lt (by omega), toBinary64_of_lt (by omega)]
    omega
  · have hnext : ulp r.nextStake ≤ 2 ^ (63 - 53) := ulp_le_of_lt (by have := hfit.2; omega)
    have hcurrent : ulp r.currentStake ≤ 2 ^ (63 - 53) := ulp_le_of_lt (by have := hfit.1; omega)
    exact toBinary64_ne_of_lt hnext hcurrent hgap

end DelegationStrategy.Api
