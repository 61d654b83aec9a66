import DelegationStrategy.Scoring.Conservation

/-!
# Criteria and targets

Stake reaches a validator by three routes, and each of them multiplies by a column
that is zero for whoever fails a criterion of the route: `in_algo_stake_set` for the
algo stake, the valid votes for the two others. For veMNDE the zero must also
survive the cap and the overflow loop.

- With a cap that is not negative, a validator without valid votes starts at power
  zero, and the loop keeps it there (`forall₂_distribute_zero`).
- A negative cap pulls every power below zero, the loop lifts none above the cap
  (`forall₂_distribute_le`), and the script then takes the whole pool for overflow.
-/

namespace DelegationStrategy.Scoring

open DelegationStrategy.Lib

theorem round_zero : round 0 = 0 := by
  simpa using isRounding_round.round_intCast 0

/-! ## The routes -/

section Routes

variable {inp : Inputs} {vs : List VotedValidator}

/-- A scaled row is a voted row with its own entry of the column the loop left. -/
theorem mem_scaledValidators {R : ℤ → ℤ → Prop}
    (hcolumn : List.Forall₂ R (powerColumn inp vs) (redistribute inp vs).vemndePower)
    {v : ScaledValidator} (hv : v ∈ scaledValidators inp vs) :
    ∃ w ∈ vs, ∃ power, v.toVotedValidator = w ∧
      v.msolPower = msolPower (msolValidVotesTotal vs) w ∧
      v.vemndePower = scalePower (redistribute inp vs) power ∧
      R (min (vemndeValidVotes w) (vemndePowerCap inp vs)) power := by
  obtain ⟨⟨row, power⟩, hrow, rfl⟩ := List.mem_map.mp hv
  have hrel : R row.vemndePower power := by
    have hrows := List.forall₂_map_left_iff.mp hcolumn
    exact (List.forall₂_iff_zip.mp hrows).2 hrow
  have hmem : row ∈ powerValidators inp vs := (List.of_mem_zip hrow).1
  obtain ⟨w, hw, rfl⟩ := List.mem_map.mp ((powerValidators_perm inp vs).subset hmem)
  exact ⟨w, hw, power, rfl, rfl, rfl, hrel⟩

/-- Under a negative cap nothing is scaled and the pool is overflow. -/
theorem overflowPower_of_neg (hcap : vemndePowerCap inp vs < 0) : overflowPower inp vs = 1 := by
  have hcolumn : ∀ p ∈ powerColumn inp vs, p ≤ vemndePowerCap inp vs := by
    intro p hp
    obtain ⟨w, -, rfl⟩ := List.mem_map.mp ((powerColumn_perm inp vs).subset hp)
    exact min_le_right _ _
  have hpower : ∀ q ∈ (redistribute inp vs).vemndePower, q ≤ 0 := by
    intro q hq
    rw [redistribute_eq] at hq
    exact (distribute_le hcolumn q hq).trans hcap.le
  have hsum := List.sum_le_card_nsmul _ 0 hpower
  rw [nsmul_zero] at hsum
  exact if_neg (not_lt.mpr hsum)

/-- The veMNDE route: without valid votes no stake, whatever the cap and the overflow. -/
theorem vemndeStake_eq_zero (msolTotal : ℤ) {v : ScaledValidator}
    (hv : v ∈ scaledValidators inp vs) (hel : v.eligibleStakeVemnde = false) :
    vemndeStake (pools inp msolTotal (overflowPower inp vs)) v = 0 := by
  by_cases hcap : vemndePowerCap inp vs < 0
  · have hpool : (pools inp msolTotal (overflowPower inp vs)).stakeControlVemndeSol = 0 := by
      rw [overflowPower_of_neg hcap]
      simp [pools]
    unfold vemndeStake
    rw [hpool, mul_zero]
  · have hcolumn : List.Forall₂ (fun p q => p = 0 → q = 0) (powerColumn inp vs)
        (redistribute inp vs).vemndePower := by
      rw [redistribute_eq]
      exact forall₂_distribute_zero round_zero (not_lt.mp hcap) _
    obtain ⟨w, -, power, rfl, -, hscaled, hzero⟩ := mem_scaledValidators hcolumn hv
    have hvotes : vemndeValidVotes v.toVotedValidator = 0 := by
      unfold vemndeValidVotes
      simp [hel, indicator, round_zero]
    have hpower : power = 0 := hzero (by rw [hvotes]; exact min_eq_left (not_lt.mp hcap))
    unfold vemndeStake
    rw [hscaled, hpower]
    simp [scalePower]

/-- The mSOL route. -/
theorem msolStake_eq_zero (p : Pools) {v : ScaledValidator}
    (hv : v ∈ scaledValidators inp vs) (hel : v.eligibleStakeMsol = false) :
    msolStake p v = 0 := by
  have hany : List.Forall₂ (fun _ _ => True) (powerColumn inp vs)
      (redistribute inp vs).vemndePower := by
    rw [redistribute_eq]
    exact forall₂_distribute (fun _ => trivial) (fun _ _ _ => trivial) _
  obtain ⟨w, -, -, rfl, hpower, -⟩ := mem_scaledValidators hany hv
  have hvotes : msolValidVotes v.toVotedValidator = 0 := by
    unfold msolValidVotes
    simp [hel, indicator, round_zero]
  unfold msolStake
  rw [hpower]
  simp [msolPower, hvotes]

/-- The algo route. -/
theorem algoStake_eq_zero (p : Pools) (total : ℚ) {v : ScaledValidator}
    (hset : v.inAlgoStakeSet = false) : algoStake p total v = 0 := by
  simp [algoStake, algoScore, indicator, hset]

end Routes

/-! ## The criteria -/

section Criteria

variable {V : Type} [LinearOrder V] (parseVersion : String → V)

/-- Blacklisted, without a bond, or on a version below the minimum. -/
def Barred (inp : Inputs) (v : Validator) : Prop :=
  blacklisted inp v = true ∨ bondless inp v = true ∨
    parseVersion v.version < parseVersion inp.params.eligibilityMinVersion

/-- Over the commission or under the stake that a route allows. -/
def OutOfBounds (maxCommission minStake : ℚ) (v : Validator) : Prop :=
  maxCommission < v.maxCommission ∨ v.minimumStake < minStake

/-- The score is below the worst score in the algo set. -/
def belowAlgoSet (minScore : Option ℚ) (score : ℚ) : Prop :=
  match minScore with
  | none => True
  | some m => score < m

/-- The worst score in the algo set of a run. -/
def runMinScore (inp : Inputs) : Option ℚ := do
  let scored ← scoreValidators inp.params inp.validators
  minScoreInAlgoSet inp.params.marinadeValidatorsCount
    (rankValidators (scored.map (markAlgo parseVersion inp)))

/-- What a row of the final table may not have: a stake by any route for the barred, a
stake by one route for whoever fails a criterion of the route. -/
structure RespectsCriteria (inp : Inputs) (v : TargetValidator) : Prop where
  barred : Barred parseVersion inp v.toValidator →
    v.targetStake = 0 ∧ v.targetStakeAlgo = 0 ∧ v.targetStakeMsol = 0 ∧ v.targetStakeVemnde = 0
  algo : OutOfBounds inp.params.eligibilityAlgoStakeMaxCommission
      inp.params.eligibilityAlgoStakeMinStake v.toValidator ∨
        belowAlgoSet (runMinScore parseVersion inp) v.score →
    v.targetStakeAlgo = 0
  msol : OutOfBounds inp.params.eligibilityMsolStakeMaxCommission
      inp.params.eligibilityMsolStakeMinStake v.toValidator ∨
        scoreTooLow (runMinScore parseVersion inp)
          inp.params.eligibilityMsolScoreThresholdMultiplier v.toRankedValidator = true →
    v.targetStakeMsol = 0
  vemnde : OutOfBounds inp.params.eligibilityVemndeStakeMaxCommission
      inp.params.eligibilityVemndeStakeMinStake v.toValidator ∨
        scoreTooLow (runMinScore parseVersion inp)
          inp.params.eligibilityVemndeScoreThresholdMultiplier v.toRankedValidator = true →
    v.targetStakeVemnde = 0

theorem eligible_eq_false {inp : Inputs} {maxCommission minStake : ℚ} {v : Validator}
    (h : Barred parseVersion inp v ∨ OutOfBounds maxCommission minStake v) :
    eligible parseVersion inp maxCommission minStake v = false := by
  unfold eligible
  rcases h with (hblack | hbond | hversion) | (hcommission | hstake)
  · simp [hblack]
  · simp [hbond]
  · simp [hversion]
  · simp [hcommission]
  · simp [hstake]

/-- The eligibility for the two kinds of stake that have a score threshold. -/
theorem eligible_and_score_eq_false {inp : Inputs} {maxCommission minStake multiplier : ℚ}
    {minScore : Option ℚ} {v : RankedValidator}
    (h : Barred parseVersion inp v.toValidator ∨
      OutOfBounds maxCommission minStake v.toValidator ∨
      scoreTooLow minScore multiplier v = true) :
    (eligible parseVersion inp maxCommission minStake v.toValidator &&
      !scoreTooLow minScore multiplier v) = false := by
  rcases or_assoc.mpr h with hfail | hscore
  · rw [eligible_eq_false parseVersion hfail, Bool.false_and]
  · rw [hscore, Bool.not_true, Bool.and_false]

/-- The eligibility of a voted row is recomputed from the input files. -/
theorem mem_votedValidators {inp : Inputs} {vs : List VotedValidator}
    (h : votedValidators parseVersion inp = some vs) {v : VotedValidator} (hv : v ∈ vs) :
    ∃ r : RankedValidator, v = markVotes parseVersion inp (runMinScore parseVersion inp) r ∧
      r.eligibleStakeAlgo = eligibleStakeAlgo parseVersion inp r.toValidator := by
  obtain ⟨scored, hscored, -, rfl⟩ := (votedValidators_eq_some_iff parseVersion).mp h
  have hmin : runMinScore parseVersion inp =
      minScoreInAlgoSet inp.params.marinadeValidatorsCount
        (rankValidators (scored.map (markAlgo parseVersion inp))) := by
    unfold runMinScore
    rw [hscored]
    rfl
  obtain ⟨r, hr, rfl⟩ := List.mem_map.mp hv
  refine ⟨r, by rw [hmin], ?_⟩
  obtain ⟨a, ha, rfl⟩ := List.mem_map.mp ((rankValidators_perm _).subset hr)
  obtain ⟨w, -, rfl⟩ := List.mem_map.mp ha
  rfl

/-- The three flags of a voted row that fails a criterion. -/
theorem flags_eq_false {inp : Inputs} {vs : List VotedValidator}
    (h : votedValidators parseVersion inp = some vs) {v : VotedValidator} (hv : v ∈ vs) :
    (Barred parseVersion inp v.toValidator ∨
        OutOfBounds inp.params.eligibilityAlgoStakeMaxCommission
          inp.params.eligibilityAlgoStakeMinStake v.toValidator ∨
        belowAlgoSet (runMinScore parseVersion inp) v.score →
      v.inAlgoStakeSet = false) ∧
    (Barred parseVersion inp v.toValidator ∨
        OutOfBounds inp.params.eligibilityMsolStakeMaxCommission
          inp.params.eligibilityMsolStakeMinStake v.toValidator ∨
        scoreTooLow (runMinScore parseVersion inp)
          inp.params.eligibilityMsolScoreThresholdMultiplier v.toRankedValidator = true →
      v.eligibleStakeMsol = false) ∧
    (Barred parseVersion inp v.toValidator ∨
        OutOfBounds inp.params.eligibilityVemndeStakeMaxCommission
          inp.params.eligibilityVemndeStakeMinStake v.toValidator ∨
        scoreTooLow (runMinScore parseVersion inp)
          inp.params.eligibilityVemndeScoreThresholdMultiplier v.toRankedValidator = true →
      v.eligibleStakeVemnde = false) := by
  obtain ⟨r, rfl, halgo⟩ := mem_votedValidators parseVersion h hv
  refine ⟨fun hfail => ?_, eligible_and_score_eq_false parseVersion,
    eligible_and_score_eq_false parseVersion⟩
  show (r.eligibleStakeAlgo && _) = false
  rw [halgo, Bool.and_eq_false_iff]
  rcases or_assoc.mpr hfail with hfail | hscore
  · exact Or.inl (eligible_eq_false parseVersion hfail)
  · right
    cases hmin : runMinScore parseVersion inp with
    | none => rfl
    | some m =>
      rw [hmin] at hscore
      exact decide_eq_false (not_le.mpr hscore)

/-- Every row of the final table respects the criteria. -/
theorem respectsCriteria_of_mem {inp : Inputs} {r : Stakes}
    (h : targetStakes parseVersion inp = some r) {v : TargetValidator} (hv : v ∈ r.validators) :
    RespectsCriteria parseVersion inp v := by
  obtain ⟨vs, hvs, hr⟩ := Option.bind_eq_some_iff.mp h
  obtain ⟨rfl, -⟩ := stakesOf_eq_some hr
  obtain ⟨w, hw, rfl⟩ := List.mem_map.mp hv
  have hmem : w.toVotedValidator ∈ vs :=
    (scaledValidators_perm inp vs).subset (List.mem_map_of_mem hw)
  obtain ⟨hset, hmsol, hvemnde⟩ := flags_eq_false parseVersion hvs hmem
  obtain ⟨p, hp⟩ : ∃ p, p = pools inp (msolValidVotesTotal vs) (overflowPower inp vs) := ⟨_, rfl⟩
  rw [← hp]
  -- a flag that is off makes the share zero, and a share of zero is rounded to zero
  have halgoZero : w.inAlgoStakeSet = false →
      (targetValidator p (algoScoreTotal vs) w).targetStakeAlgo = 0 := fun hoff => by
    show round (algoStake p (algoScoreTotal vs) w) = 0
    rw [algoStake_eq_zero p _ hoff, round_zero]
  have hmsolZero : w.eligibleStakeMsol = false →
      (targetValidator p (algoScoreTotal vs) w).targetStakeMsol = 0 := fun hoff => by
    show round (msolStake p w) = 0
    rw [msolStake_eq_zero p hw hoff, round_zero]
  have hvemndeZero : w.eligibleStakeVemnde = false →
      (targetValidator p (algoScoreTotal vs) w).targetStakeVemnde = 0 := fun hoff => by
    show round (vemndeStake p w) = 0
    rw [hp, vemndeStake_eq_zero _ hw hoff, round_zero]
  refine ⟨fun hbarred => ?_, fun hfail => halgoZero (hset (Or.inr hfail)),
    fun hfail => hmsolZero (hmsol (Or.inr hfail)),
    fun hfail => hvemndeZero (hvemnde (Or.inr hfail))⟩
  have h₁ := halgoZero (hset (Or.inl hbarred))
  have h₂ := hmsolZero (hmsol (Or.inl hbarred))
  have h₃ := hvemndeZero (hvemnde (Or.inl hbarred))
  refine ⟨?_, h₁, h₂, h₃⟩
  show (targetValidator p (algoScoreTotal vs) w).targetStakeVemnde +
    (targetValidator p (algoScoreTotal vs) w).targetStakeAlgo +
    (targetValidator p (algoScoreTotal vs) w).targetStakeMsol = 0
  rw [h₁, h₂, h₃]
  rfl

/-- The files hold rows of the final table. -/
theorem mem_scoringRun {inp : Inputs} {out : Outputs}
    (h : scoringRun parseVersion inp = some out) {v : TargetValidator}
    (hv : v ∈ out.scores ∨ v ∈ out.stakes) :
    ∃ r, targetStakes parseVersion inp = some r ∧ v ∈ r.validators := by
  obtain ⟨r, hr, h⟩ := Option.bind_eq_some_iff.mp h
  by_cases hchecks : checks inp r
  · rw [if_pos hchecks] at h
    cases h
    refine ⟨r, hr, ?_⟩
    rcases hv with hscores | hstakes
    · exact (List.perm_insertionSort _ _).subset hscores
    · exact (List.mem_filter.mp ((List.perm_insertionSort _ _).subset hstakes)).1
  · rw [if_neg hchecks] at h
    cases h

/-- A run that passes the checks writes its whole table to the file of the scores. -/
theorem scoringRun_eq_some {inp : Inputs} {r : Stakes} (h : targetStakes parseVersion inp = some r)
    (hchecks : checks inp r) :
    ∃ out, scoringRun parseVersion inp = some out ∧ out.scores.Perm r.validators := by
  unfold scoringRun
  rw [h]
  exact ⟨_, if_pos hchecks, List.perm_insertionSort _ _⟩

end Criteria

end DelegationStrategy.Scoring
