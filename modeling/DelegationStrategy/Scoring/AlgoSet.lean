import DelegationStrategy.Lib.Ranking
import DelegationStrategy.Scoring.Eligibility

/-!
# The algo stake set

The script cuts the eligible validators off after `MARINADE_VALIDATORS_COUNT` and gives algo
stake to everyone eligible with at least the worst score before the cut. The rows are sorted
by ranks, which are numbers of greater scores, so the scores of the eligible are a
descending list (`pairwise_eligibleScores`), and the set is its best part
(`inAlgoStakeSet_iff`): who ties with the last one is in.
-/

namespace DelegationStrategy.Scoring

open DelegationStrategy.Lib

/-- The rows marked `in_algo_stake_set`. -/
def algoStakeSet (count : ℕ) (vs : List AlgoValidator) : List RankedValidator :=
  (rankValidators vs).filter (inAlgoStakeSet (minScoreInAlgoSet count (rankValidators vs)))

/-- How many eligible validators have a strictly greater score. -/
def betterEligible (vs : List AlgoValidator) (x : ℚ) : ℕ :=
  vs.countP fun w => w.eligibleStakeAlgo ∧ x < w.score

/-- The scores of the eligible rows, in the order of the ranks. -/
def eligibleScores (vs : List AlgoValidator) : List ℚ :=
  ((rankValidators vs).filter (·.eligibleStakeAlgo)).map (·.score)

section Ranks

variable {vs vs' : List AlgoValidator}

/-- A greater score has a smaller rank. -/
theorem rankMin_lt {scores : List ℚ} {x y : ℚ} (hy : y ∈ scores) (h : x < y) :
    rankMin scores y < rankMin scores x := by
  have hlt : (scores.countP fun z => y < z) < scores.countP fun z => x < z := by
    refine countP_lt_countP ?_ hy (by simpa using h) (by simp)
    intro z _ hz
    exact decide_eq_true (h.trans (of_decide_eq_true hz))
  unfold rankMin
  omega

theorem mem_rankValidators {v : RankedValidator} (hv : v ∈ rankValidators vs) :
    ∃ w ∈ vs, v = { w with rank := rankMin (vs.map (·.score)) w.score } := by
  obtain ⟨w, hw, rfl⟩ := List.mem_map.mp ((rankValidators_perm vs).subset hv)
  exact ⟨w, hw, rfl⟩

/-- The rows are sorted by their ranks, so the best scores come first. -/
theorem pairwise_rankValidators (vs : List AlgoValidator) :
    (rankValidators vs).Pairwise fun v w => w.score ≤ v.score := by
  have hsorted : (rankValidators vs).Pairwise fun v w => v.rank ≤ w.rank :=
    List.pairwise_insertionSort _ _
  refine hsorted.imp_of_mem ?_
  intro v w hv hw hrank
  obtain ⟨v', hv', rfl⟩ := mem_rankValidators hv
  obtain ⟨w', hw', rfl⟩ := mem_rankValidators hw
  by_contra hscore
  exact absurd hrank (not_le.mpr (rankMin_lt (List.mem_map_of_mem hw') (not_le.mp hscore)))

/-! ## The scores of the eligible -/

theorem pairwise_eligibleScores (vs : List AlgoValidator) :
    (eligibleScores vs).Pairwise (· ≥ ·) :=
  List.pairwise_map.mpr ((pairwise_rankValidators vs).filter _)

theorem eligibleScores_perm (vs : List AlgoValidator) :
    (eligibleScores vs).Perm ((vs.filter (·.eligibleStakeAlgo)).map (·.score)) := by
  have hperm := ((rankValidators_perm vs).filter (·.eligibleStakeAlgo)).map (·.score)
  rw [List.filter_map, List.map_map] at hperm
  exact hperm

theorem countP_eligibleScores (vs : List AlgoValidator) (x : ℚ) :
    (eligibleScores vs).countP (fun y => x < y) = betterEligible vs x := by
  rw [(eligibleScores_perm vs).countP_eq, List.countP_map, List.countP_filter, betterEligible]
  refine List.countP_congr ?_
  intro w _
  simp [and_comm]

theorem length_eligibleScores (vs : List AlgoValidator) :
    (eligibleScores vs).length = vs.countP (·.eligibleStakeAlgo) := by
  rw [(eligibleScores_perm vs).length_eq, List.length_map, List.countP_eq_length_filter]

theorem minScoreInAlgoSet_eq_min? (count : ℕ) (vs : List AlgoValidator) :
    minScoreInAlgoSet count (rankValidators vs) = ((eligibleScores vs).take count).min? := by
  rw [minScoreInAlgoSet, validatorsAlgoSet, List.map_take, eligibleScores]

/-- **The set** is the top of the eligible: its members are below fewer than `count` of
them. -/
theorem inAlgoStakeSet_iff {count : ℕ} {v : RankedValidator} (hv : v ∈ rankValidators vs) :
    inAlgoStakeSet (minScoreInAlgoSet count (rankValidators vs)) v = true ↔
      v.eligibleStakeAlgo = true ∧ betterEligible vs v.score < count := by
  unfold inAlgoStakeSet
  rw [Bool.and_eq_true]
  refine and_congr_right ?_
  intro heligible
  have hmem : v.score ∈ eligibleScores vs :=
    List.mem_map_of_mem (List.mem_filter.mpr ⟨hv, heligible⟩)
  rw [← countP_eligibleScores, ← exists_mem_take_le_iff (pairwise_eligibleScores vs) hmem,
    minScoreInAlgoSet_eq_min?]
  cases hmin : ((eligibleScores vs).take count).min? with
  | none =>
    rw [List.min?_eq_none_iff] at hmin
    simp [hmin]
  | some m =>
    obtain ⟨hm, hle⟩ := List.min?_eq_some_iff.mp hmin
    rw [decide_eq_true_iff]
    constructor
    · intro h
      exact ⟨m, hm, h⟩
    · rintro ⟨y, hy, hyv⟩
      exact (hle y hy).trans hyv

end Ranks

/-! ## The size of the set -/

section Size

variable {vs vs' : List AlgoValidator} {count : ℕ}

/-- The set has a row for each score of the eligible that fewer than `count` exceed. -/
theorem length_algoStakeSet (count : ℕ) (vs : List AlgoValidator) :
    (algoStakeSet count vs).length = (eligibleScores vs).countP fun x =>
      (eligibleScores vs).countP (fun y => x < y) < count := by
  rw [algoStakeSet, ← List.countP_eq_length_filter, eligibleScores, List.countP_map,
    List.countP_filter]
  refine List.countP_congr ?_
  intro v hv
  rw [inAlgoStakeSet_iff hv, ← countP_eligibleScores, eligibleScores]
  simp [and_comm]

theorem betterEligible_perm (h : vs.Perm vs') (x : ℚ) :
    betterEligible vs x = betterEligible vs' x :=
  h.countP_eq _

/-- The order of the rows has no influence on their ranks. -/
theorem rankValidators_congr (h : vs.Perm vs') :
    (rankValidators vs).Perm (rankValidators vs') := by
  have hrank : ∀ x, rankMin (vs.map (·.score)) x = rankMin (vs'.map (·.score)) x := by
    intro x
    rw [rankMin, rankMin, (h.map (·.score)).countP_eq]
  refine (rankValidators_perm vs).trans (List.Perm.trans ?_ (rankValidators_perm vs').symm)
  simp only [hrank]
  exact h.map _

theorem algoStakeSet_perm (h : vs.Perm vs') :
    (algoStakeSet count vs).Perm (algoStakeSet count vs') := by
  refine List.Perm.trans ?_ ((rankValidators_congr h).filter _)
  refine List.Perm.of_eq (List.filter_congr ?_)
  intro v hv
  have hv' : v ∈ rankValidators vs' := (rankValidators_congr h).subset hv
  rw [Bool.eq_iff_iff, inAlgoStakeSet_iff hv, inAlgoStakeSet_iff hv', betterEligible_perm h]

/-- **The algo stake set** is the top of the eligible validators. -/
theorem algoStakeSet_spec (count : ℕ) (vs : List AlgoValidator) :
    (∀ v ∈ rankValidators vs,
      inAlgoStakeSet (minScoreInAlgoSet count (rankValidators vs)) v = true ↔
        v.eligibleStakeAlgo = true ∧ betterEligible vs v.score < count) ∧
      min count (vs.countP (·.eligibleStakeAlgo)) ≤ (algoStakeSet count vs).length ∧
      (((vs.filter (·.eligibleStakeAlgo)).map (·.score)).Nodup →
        (algoStakeSet count vs).length = min count (vs.countP (·.eligibleStakeAlgo))) ∧
      ∀ vs', vs.Perm vs' → (algoStakeSet count vs).Perm (algoStakeSet count vs') := by
  refine ⟨fun v hv => inAlgoStakeSet_iff hv, ?least, ?exact, fun vs' h => algoStakeSet_perm h⟩
  case least =>
    rw [length_algoStakeSet, ← length_eligibleScores]
    exact min_le_countP_best (pairwise_eligibleScores vs) count
  case exact =>
    intro hnodup
    have hnodup' : (eligibleScores vs).Nodup := (eligibleScores_perm vs).nodup_iff.mpr hnodup
    have hstrict : (eligibleScores vs).Pairwise (· > ·) :=
      ((pairwise_eligibleScores vs).and hnodup').imp fun h => lt_of_le_of_ne h.1 h.2.symm
    rw [length_algoStakeSet, ← length_eligibleScores, countP_best hstrict]

/-- The rows of the table of votes carry the mark. -/
theorem inAlgoStakeSet_of_mem_votedValidators {V : Type} [LinearOrder V]
    {parseVersion : String → V} {inp : Inputs} {vs : List VotedValidator}
    (h : votedValidators parseVersion inp = some vs) :
    ∃ algo : List AlgoValidator, (vs.map (·.toRankedValidator)).Perm (rankValidators algo) ∧
      ∀ v ∈ vs, v.inAlgoStakeSet = true ↔ v.eligibleStakeAlgo = true ∧
        betterEligible algo v.score < inp.params.marinadeValidatorsCount := by
  obtain ⟨scored, -, -, rfl⟩ := (votedValidators_eq_some_iff parseVersion).mp h
  refine ⟨scored.map (markAlgo parseVersion inp), ?_, ?_⟩
  · rw [voteValidators, List.map_map]
    exact List.Perm.of_eq (List.map_id' _)
  · intro v hv
    obtain ⟨r, hr, rfl⟩ := List.mem_map.mp hv
    exact inAlgoStakeSet_iff hr

end Size

end DelegationStrategy.Scoring
