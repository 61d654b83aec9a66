import DelegationStrategy.Scoring.Overflow
import Mathlib.Algebra.BigOperators.Ring.Finset
import Mathlib.Tactic.LinearCombination

/-!
# Stake conservation

The shares of a scoring run before rounding are compared with `TOTAL_STAKE`. The
mSOL pool and the algo pool are handed out whole. The veMNDE pool is not:
`vemnde_power` is scaled by power and overflow together, so it sums to the part
`1 - o` of the votes that found room, and `STAKE_CONTROL_VEMNDE_SOL` is
multiplied by the same `1 - o` again (`sum_vemndeStake`). What overflowed reaches
the algo pool whole, but of what did not overflow the part `o` goes to nobody
(`sum_exactStake`).

So stake is conserved exactly when nothing overflows or everything does
(`targetStakes_conserved_iff`).
-/

namespace DelegationStrategy.Scoring

open DelegationStrategy.Lib

/-! ## The columns of the final table -/

section Columns

variable {inp : Inputs} {vs : List VotedValidator} {r : Stakes}

/-- The scaled rows of a table of votes. -/
def scaledValidators (inp : Inputs) (vs : List VotedValidator) : List ScaledValidator :=
  scaleValidators (powerValidators inp vs) (redistribute inp vs)

/-- A column that scaling leaves alone. -/
theorem scaledValidators_fst {α : Type} (f : PoweredValidator → α) (g : ScaledValidator → α)
    (hg : ∀ (v : PoweredValidator) (power : ℚ),
      g { v.toVotedValidator with msolPower := v.msolPower, vemndePower := power } = f v) :
    (scaledValidators inp vs).map g = (powerValidators inp vs).map f := by
  have hlen := (length_redistribute inp vs).symm
  unfold scaledValidators scaleValidators
  rw [List.map_map]
  conv_rhs => rw [← List.map_fst_zip hlen.le, List.map_map]
  exact List.map_congr_left fun x _ => hg x.1 _

/-- The rows are those of the votes, in another order. -/
theorem scaledValidators_perm (inp : Inputs) (vs : List VotedValidator) :
    ((scaledValidators inp vs).map (·.toVotedValidator)).Perm vs := by
  rw [scaledValidators_fst (·.toVotedValidator) (·.toVotedValidator) fun _ _ => rfl]
  have h := (powerValidators_perm inp vs).map (·.toVotedValidator)
  rw [List.map_map] at h
  exact h.trans (List.Perm.of_eq (List.map_id vs))

theorem scaledValidators_vemndePower (inp : Inputs) (vs : List VotedValidator) :
    (scaledValidators inp vs).map (·.vemndePower) =
      (redistribute inp vs).vemndePower.map (scalePower (redistribute inp vs)) := by
  have hlen := length_redistribute inp vs
  unfold scaledValidators scaleValidators
  rw [List.map_map]
  conv_rhs => rw [← List.map_snd_zip hlen.le, List.map_map]
  rfl

theorem scaledValidators_msolPower (inp : Inputs) (vs : List VotedValidator) :
    ((scaledValidators inp vs).map (·.msolPower)).Perm
      (vs.map (msolPower (msolValidVotesTotal vs))) := by
  rw [scaledValidators_fst (·.msolPower) (·.msolPower) fun _ _ => rfl]
  have h := (powerValidators_perm inp vs).map (·.msolPower)
  rw [List.map_map] at h
  exact h

end Columns

/-! ## The shares before rounding -/

section Shares

variable {inp : Inputs} {vs : List VotedValidator} {r : Stakes}

/-- The stake of a validator before rounding. -/
def exactStake (r : Stakes) (v : ScaledValidator) : ℚ :=
  vemndeStake r.pools v + algoStake r.pools r.algoScoreTotal v + msolStake r.pools v

/-- The part of the valid votes that found no room under the cap. -/
def overflowPower (inp : Inputs) (vs : List VotedValidator) : ℚ :=
  vemndeOverflowPower (redistribute inp vs)

/-- The total score does not depend on the order of the rows. -/
theorem stakesOf_eq (inp : Inputs) (vs : List VotedValidator) :
    stakesOf inp vs =
      if algoScoreTotal vs = 0 then none
      else some {
        pools := pools inp (msolValidVotesTotal vs) (overflowPower inp vs)
        algoScoreTotal := algoScoreTotal vs
        validators := (scaledValidators inp vs).map
          (targetValidator (pools inp (msolValidVotesTotal vs) (overflowPower inp vs))
            (algoScoreTotal vs)) } := by
  have htotal : algoScoreTotal ((scaledValidators inp vs).map (·.toVotedValidator)) =
      algoScoreTotal vs :=
    ((scaledValidators_perm inp vs).map algoScore).sum_eq
  unfold stakesOf
  dsimp only
  rw [show scaleValidators _ _ = scaledValidators inp vs from rfl, htotal]
  rfl

/-- What `stakesOf` returns, when there is an algo score to divide by. -/
theorem exists_stakesOf (h : algoScoreTotal vs ≠ 0) : ∃ r, stakesOf inp vs = some r := by
  rw [stakesOf_eq, if_neg h]
  exact ⟨_, rfl⟩

theorem stakesOf_eq_some (h : stakesOf inp vs = some r) :
    r = {
      pools := pools inp (msolValidVotesTotal vs) (overflowPower inp vs)
      algoScoreTotal := algoScoreTotal vs
      validators := (scaledValidators inp vs).map
        (targetValidator (pools inp (msolValidVotesTotal vs) (overflowPower inp vs))
          (algoScoreTotal vs)) } ∧ algoScoreTotal vs ≠ 0 := by
  rw [stakesOf_eq] at h
  by_cases hzero : algoScoreTotal vs = 0
  · rw [if_pos hzero] at h
    cases h
  · rw [if_neg hzero] at h
    cases h
    exact ⟨rfl, hzero⟩

/-- The scaled power sums to the part of the votes that did not overflow. -/
theorem sum_scaledPower (ho : 0 ≤ (redistribute inp vs).vemndeOverflow)
    (hpos : 0 < (redistribute inp vs).vemndePower.sum) :
    ((scaledValidators inp vs).map (·.vemndePower)).sum = 1 - overflowPower inp vs := by
  rw [scaledValidators_vemndePower]
  unfold overflowPower vemndeOverflowPower
  generalize redistribute inp vs = s at ho hpos ⊢
  have hscale : scalePower s = fun q : ℤ =>
      (q : ℚ) * ((s.vemndePower.sum + s.vemndeOverflow : ℤ) : ℚ)⁻¹ := by
    funext q
    rw [scalePower, if_pos hpos, div_eq_mul_inv]
  have hne : ((s.vemndePower.sum + s.vemndeOverflow : ℤ) : ℚ) ≠ 0 := by
    have : s.vemndePower.sum + s.vemndeOverflow ≠ 0 := by omega
    exact_mod_cast this
  rw [if_pos hpos, hscale, List.sum_map_mul_right, ← Int.cast_list_sum]
  rw [eq_sub_iff_add_eq, ← div_eq_mul_inv, ← add_div, ← Int.cast_add]
  exact div_self hne

/-- The veMNDE shares carry the part that did not overflow twice. -/
theorem sum_vemndeStake (msolTotal : ℤ) (ho : 0 ≤ (redistribute inp vs).vemndeOverflow) :
    ((scaledValidators inp vs).map
        (vemndeStake (pools inp msolTotal (overflowPower inp vs)))).sum =
      inp.params.totalStake * stakeControlVemnde inp * (1 - overflowPower inp vs) ^ 2 := by
  have hsum : ((scaledValidators inp vs).map
      (vemndeStake (pools inp msolTotal (overflowPower inp vs)))).sum =
        ((scaledValidators inp vs).map (·.vemndePower)).sum *
          (inp.params.totalStake * stakeControlVemnde inp * (1 - overflowPower inp vs)) :=
    List.sum_map_mul_right ..
  rw [hsum]
  by_cases hpos : 0 < (redistribute inp vs).vemndePower.sum
  · rw [sum_scaledPower ho hpos]
    ring
  · -- no power at all: everything counts as overflow, and the pool is empty
    have hall : overflowPower inp vs = 1 := if_neg hpos
    rw [hall]
    ring

/-- The mSOL power sums to one as soon as there is a valid vote. -/
theorem sum_msolPower (h : 0 < msolValidVotesTotal vs) :
    (vs.map (msolPower (msolValidVotesTotal vs))).sum = 1 := by
  have hne : ((msolValidVotesTotal vs : ℤ) : ℚ) ≠ 0 := by exact_mod_cast h.ne'
  have hpower : msolPower (msolValidVotesTotal vs) = fun v =>
      (msolValidVotes v : ℚ) * ((msolValidVotesTotal vs : ℤ) : ℚ)⁻¹ := by
    funext v
    rw [msolPower, if_pos h, div_eq_mul_inv]
  have hvotes : (vs.map fun v => (msolValidVotes v : ℚ)).sum = msolValidVotesTotal vs := by
    rw [msolValidVotesTotal, Int.cast_list_sum, List.map_map]
    rfl
  rw [hpower, List.sum_map_mul_right, hvotes, mul_inv_cancel₀ hne]

/-- The mSOL pool and what it leaves unused are its whole stake. -/
theorem sum_msolStake (inp : Inputs) (vs : List VotedValidator) (o : ℚ) :
    ((scaledValidators inp vs).map (msolStake (pools inp (msolValidVotesTotal vs) o))).sum +
        (pools inp (msolValidVotesTotal vs) o).stakeControlMsolUnusedSol =
      inp.params.totalStake * stakeControlMsol inp := by
  have hsum : ((scaledValidators inp vs).map
      (msolStake (pools inp (msolValidVotesTotal vs) o))).sum =
        ((scaledValidators inp vs).map (·.msolPower)).sum *
          (pools inp (msolValidVotesTotal vs) o).stakeControlMsolSol :=
    List.sum_map_mul_right ..
  rw [hsum, (scaledValidators_msolPower inp vs).sum_eq]
  unfold pools
  dsimp only
  by_cases h : 0 < msolValidVotesTotal vs
  · rw [if_pos h, if_pos h, sum_msolPower h]
    ring
  · rw [if_neg h, if_neg h]
    ring

/-- The algo shares sum to the algo pool. -/
theorem sum_algoStake (p : Pools) (h : algoScoreTotal vs ≠ 0) :
    ((scaledValidators inp vs).map (algoStake p (algoScoreTotal vs))).sum =
      p.stakeControlAlgoSol := by
  have hscore : ((scaledValidators inp vs).map fun v => algoScore v.toVotedValidator).sum =
      algoScoreTotal vs := by
    have := ((scaledValidators_perm inp vs).map algoScore).sum_eq
    rwa [List.map_map] at this
  have hshare : algoStake p (algoScoreTotal vs) = fun v =>
      algoScore v.toVotedValidator * ((algoScoreTotal vs)⁻¹ * p.stakeControlAlgoSol) := by
    funext v
    rw [algoStake, div_eq_mul_inv, mul_assoc]
  rw [hshare, List.sum_map_mul_right, hscore, ← mul_assoc, mul_inv_cancel₀ h, one_mul]

/-- All shares together miss the total stake by what is counted twice. -/
theorem sum_exactStake (h : stakesOf inp vs = some r)
    (ho : 0 ≤ (redistribute inp vs).vemndeOverflow) :
    (r.validators.map fun v => exactStake r v.toScaledValidator).sum =
      inp.params.totalStake - inp.params.totalStake * stakeControlVemnde inp *
        (overflowPower inp vs * (1 - overflowPower inp vs)) := by
  obtain ⟨rfl, hne⟩ := stakesOf_eq_some h
  rw [List.map_map]
  show ((scaledValidators inp vs).map fun v => vemndeStake _ v + algoStake _ _ v
    + msolStake _ v).sum = _
  rw [List.sum_map_add, List.sum_map_add, sum_vemndeStake _ ho, sum_algoStake _ hne]
  have hmsol := sum_msolStake inp vs (overflowPower inp vs)
  have halgo : (pools inp (msolValidVotesTotal vs) (overflowPower inp vs)).stakeControlAlgoSol =
      inp.params.totalStake * stakeControlAlgo inp +
        overflowPower inp vs * inp.params.totalStake * stakeControlVemnde inp +
        (pools inp (msolValidVotesTotal vs) (overflowPower inp vs)).stakeControlMsolUnusedSol :=
    rfl
  rw [halgo]
  unfold stakeControlAlgo
  linear_combination hmsol

/-- The total of the targets, as the script would add them up. -/
def targetStakeTotal (r : Stakes) : ℤ := (r.validators.map (·.targetStake)).sum

/-- What rounding the individual targets adds. -/
def roundingError (r : Stakes) : ℚ :=
  (r.validators.map fun v => (v.targetStake : ℚ) - exactStake r v.toScaledValidator).sum

theorem targetStakeTotal_eq (r : Stakes) :
    (targetStakeTotal r : ℚ) =
      (r.validators.map fun v => exactStake r v.toScaledValidator).sum + roundingError r := by
  unfold targetStakeTotal roundingError
  rw [← List.sum_map_add, Int.cast_list_sum, List.map_map]
  congr 1
  exact List.map_congr_left fun v _ => by simp

/-- The error of a target is that of its three parts. -/
theorem targetValidator_error (p : Pools) (total : ℚ) (v : ScaledValidator) :
    ((targetValidator p total v).targetStake : ℚ) -
        (vemndeStake p v + algoStake p total v + msolStake p v) =
      ((round (vemndeStake p v) : ℚ) - vemndeStake p v) +
        ((round (algoStake p total v) : ℚ) - algoStake p total v) +
        ((round (msolStake p v) : ℚ) - msolStake p v) := by
  show ((round _ + round _ + round _ : ℤ) : ℚ) - _ = _
  push_cast
  ring

/-- Three roundings for each validator move the total by at most one half each. -/
theorem abs_roundingError_le (h : stakesOf inp vs = some r) :
    |roundingError r| ≤ 3 * vs.length / 2 := by
  obtain ⟨rfl, _⟩ := stakesOf_eq_some h
  have hlen : (scaledValidators inp vs).length = vs.length := by
    have := (scaledValidators_perm inp vs).length_eq
    rwa [List.length_map] at this
  unfold roundingError
  rw [List.map_map]
  generalize pools inp (msolValidVotesTotal vs) (overflowPower inp vs) = p
  generalize scaledValidators inp vs = rows at hlen
  have hvemnde := abs_le.mp (isRounding_round.abs_sum_error_le (vemndeStake p) rows)
  have halgo := abs_le.mp (isRounding_round.abs_sum_error_le (algoStake p (algoScoreTotal vs)) rows)
  have hmsol := abs_le.mp (isRounding_round.abs_sum_error_le (msolStake p) rows)
  rw [hlen] at hvemnde halgo hmsol
  show |(rows.map fun v => ((targetValidator p (algoScoreTotal vs) v).targetStake : ℚ) -
    (vemndeStake p v + algoStake p (algoScoreTotal vs) v + msolStake p v)).sum| ≤ _
  rw [List.map_congr_left fun v _ => targetValidator_error p (algoScoreTotal vs) v,
    List.sum_map_add, List.sum_map_add, abs_le]
  constructor <;> linarith

end Shares

/-! ## Conservation -/

section Conserved

variable {inp : Inputs} {vs : List VotedValidator} {r : Stakes}

/-- The targets differ from the total stake by their rounding alone, so by 3/2 for
each validator at most. -/
structure Conserved (inp : Inputs) (r : Stakes) : Prop where
  total_eq : (targetStakeTotal r : ℚ) = inp.params.totalStake + roundingError r
  error_le : |(targetStakeTotal r : ℚ) - inp.params.totalStake| ≤ 3 * inp.validators.length / 2

/-- Either all valid votes fit under the cap or none do; or there is no veMNDE
stake to hand out. -/
def NoPartialOverflow (inp : Inputs) (vs : List VotedValidator) : Prop :=
  inp.params.totalStake = 0 ∨ stakeControlVemnde inp = 0 ∨ vemndePowerCap inp vs = 0 ∨
    vemndeValidVotesTotal vs ≤ vemndeVotedCount vs * vemndePowerCap inp vs

/-- Without a validator that has valid votes there are none. -/
theorem vemndeValidVotesTotal_eq_zero (hvotes : ∀ v ∈ vs, 0 ≤ v.vemndeVotes)
    (h : vemndeVotedCount vs = 0) : vemndeValidVotesTotal vs = 0 := by
  refine List.sum_eq_zero fun n hn => ?_
  obtain ⟨v, hv, rfl⟩ := List.mem_map.mp hn
  have hnone := List.countP_eq_zero.mp h v hv
  have := vemndeValidVotes_nonneg (hvotes v hv)
  simp only [decide_eq_true_eq] at hnone
  omega

/-- The part that overflows is neither zero nor one exactly when some valid votes
fit under the cap and some do not. -/
theorem overflowPower_mul_eq_zero_iff (hvotes : ∀ v ∈ vs, 0 ≤ v.vemndeVotes)
    (hcap : 0 ≤ inp.params.vemndeValidatorCap) :
    overflowPower inp vs * (1 - overflowPower inp vs) = 0 ↔
      vemndePowerCap inp vs = 0 ∨
        vemndeValidVotesTotal vs ≤ vemndeVotedCount vs * vemndePowerCap inp vs := by
  have hsum := redistribute_sum inp vs
  have hover := redistribute_overflow hvotes hcap
  have hcap₀ := vemndePowerCap_nonneg hvotes hcap
  have htotal := vemndeValidVotesTotal_nonneg hvotes
  have hfit₀ : (0 : ℤ) ≤ vemndeVotedCount vs * vemndePowerCap inp vs := by positivity
  have hfit_cap : vemndePowerCap inp vs = 0 → vemndeVotedCount vs * vemndePowerCap inp vs = 0 := by
    intro hzero
    rw [hzero, mul_zero]
  have hfit_zero : vemndeVotedCount vs * vemndePowerCap inp vs = 0 →
      vemndePowerCap inp vs = 0 ∨ vemndeValidVotesTotal vs = 0 := by
    intro hzero
    rcases mul_eq_zero.mp hzero with hcount | hcap
    · exact Or.inr (vemndeValidVotesTotal_eq_zero hvotes (by exact_mod_cast hcount))
    · exact Or.inl hcap
  unfold overflowPower vemndeOverflowPower
  generalize redistribute inp vs = s at hsum hover
  generalize (vemndeVotedCount vs : ℤ) * vemndePowerCap inp vs = fit at *
  by_cases hpos : 0 < s.vemndePower.sum
  · -- some votes found room, so the part that overflows is below one
    have hT : (0 : ℚ) < vemndeValidVotesTotal vs := by exact_mod_cast (by omega)
    have hpart : (s.vemndeOverflow : ℚ) / vemndeValidVotesTotal vs < 1 := by
      rw [div_lt_one hT]
      exact_mod_cast (by omega)
    rw [if_pos hpos, hsum, mul_eq_zero, or_iff_left (by linarith), div_eq_zero_iff,
      or_iff_left hT.ne', Int.cast_eq_zero]
    omega
  · -- no votes found room: there are none, or the cap is zero
    rw [if_neg hpos, sub_self, mul_zero]
    have hall : vemndeValidVotesTotal vs ≤ s.vemndeOverflow := by omega
    refine iff_of_true rfl ?_
    omega

/-- Stake is conserved exactly when the overflow is not partial. -/
theorem conserved_iff (hlen : vs.length = inp.validators.length)
    (hvotes : ∀ v ∈ vs, 0 ≤ v.vemndeVotes) (hcap : 0 ≤ inp.params.vemndeValidatorCap)
    (h : stakesOf inp vs = some r) : Conserved inp r ↔ NoPartialOverflow inp vs := by
  have hover : 0 ≤ (redistribute inp vs).vemndeOverflow := by
    rw [redistribute_overflow hvotes hcap]
    exact le_max_left _ _
  have htotal := targetStakeTotal_eq r
  rw [sum_exactStake h hover] at htotal
  have hmissing : Conserved inp r ↔
      inp.params.totalStake * stakeControlVemnde inp *
        (overflowPower inp vs * (1 - overflowPower inp vs)) = 0 := by
    constructor
    · intro hcons
      linarith [hcons.total_eq]
    · intro hzero
      have hsum : (targetStakeTotal r : ℚ) = inp.params.totalStake + roundingError r := by
        linarith
      refine ⟨hsum, ?_⟩
      rw [hsum, add_sub_cancel_left, ← hlen]
      exact abs_roundingError_le h
  rw [hmissing, mul_eq_zero, mul_eq_zero, overflowPower_mul_eq_zero_iff hvotes hcap, or_assoc]
  rfl

variable {V : Type} [LinearOrder V] {parseVersion : String → V}

/-- A scoring run with a positive total score in the algo set conserves the stake
exactly when the veMNDE votes overflow not at all or altogether. -/
theorem targetStakes_conserved_iff (hvs : votedValidators parseVersion inp = some vs)
    (hcap : 0 ≤ inp.params.vemndeValidatorCap) (hscore : 0 < algoScoreTotal vs) :
    ∃ r, targetStakes parseVersion inp = some r ∧
      (Conserved inp r ↔ NoPartialOverflow inp vs) := by
  have hrun : targetStakes parseVersion inp = stakesOf inp vs := by
    unfold targetStakes
    rw [hvs]
    rfl
  obtain ⟨r, hr⟩ : ∃ r, stakesOf inp vs = some r := by
    rw [stakesOf_eq, if_neg hscore.ne']
    exact ⟨_, rfl⟩
  refine ⟨r, hrun.trans hr, ?_⟩
  exact conserved_iff (length_votedValidators parseVersion hvs)
    (fun v hv => (votes_nonneg_of_mem parseVersion hvs hv).2) hcap hr

end Conserved

/-! ## A run that loses stake -/

section Loss

/-- Texts of ones, each a different account. -/
def account (i : ℕ) : String := String.ofList (List.replicate (i + 1) '1')

/-- The parameters as `scoring-fetch-inputs.bash` writes them. -/
def lossParams : Params where
  totalStake := 4000000
  marinadeValidatorsCount := 100
  weightAdjustedCredits := 10
  weightGraceSkipRate := 1
  weightDcConcentration := 2
  eligibilityAlgoStakeMaxCommission := 10
  eligibilityAlgoStakeMinStake := 1000
  eligibilityVemndeStakeMaxCommission := 10
  eligibilityVemndeStakeMinStake := 100
  eligibilityVemndeScoreThresholdMultiplier := 9 / 10
  eligibilityMsolStakeMaxCommission := 10
  eligibilityMsolStakeMinStake := 100
  eligibilityMsolScoreThresholdMultiplier := 8 / 10
  eligibilityMinVersion := "1.14.18"
  vemndeValidatorCap := 1 / 10
  delStratPubkey := "MarinadeA1gorithmicDe1egationStrategy111111"
  stakeControlVemnde := 2 / 10
  stakeControlMsol := 2 / 10

theorem lossParams_bounds : 0 ≤ lossParams.totalStake ∧ 0 ≤ lossParams.vemndeValidatorCap ∧
    lossParams.vemndeValidatorCap ≤ 1 ∧ 0 ≤ lossParams.stakeControlVemnde ∧
    0 ≤ lossParams.stakeControlMsol ∧
    lossParams.stakeControlVemnde + lossParams.stakeControlMsol ≤ 1 := by
  norm_num [lossParams]

/-- The first hundred perform well, the others do not and have little stake. -/
def lossValidator (i : ℕ) : Validator where
  voteAccount := account i
  avgDcConcentration := if i < 100 then 0 else 1
  avgGraceSkipRate := if i < 100 then 0 else 1
  avgAdjustedCredits := if i < 100 then 400000 else 0
  maxCommission := 5
  minimumStake := if i < 100 then 50000 else 500
  version := "1.14.18"

/-- The indices of the rows; never unfolded in a proof but by its lemmas. -/
@[irreducible]
def lossRows : List ℕ := List.range 1001

theorem mem_lossRows {i : ℕ} : i ∈ lossRows ↔ i < 1001 := by
  unfold lossRows
  exact List.mem_range

theorem length_lossRows : lossRows.length = 1001 := by
  unfold lossRows
  exact List.length_range

/-- The rows below `k`. -/
theorem filter_lossRows {k : ℕ} (hk : k ≤ 1001) :
    lossRows.filter (fun i => i < k) = List.range k := by
  obtain ⟨m, hm⟩ := Nat.exists_eq_add_of_le hk
  have hlow : (List.range k).filter (fun i => i < k) = List.range k :=
    List.filter_eq_self.mpr fun i hi => decide_eq_true (List.mem_range.mp hi)
  have hhigh : ((List.range m).map (k + ·)).filter (fun i => i < k) = [] := by
    rw [List.filter_eq_nil_iff]
    intro i hi
    obtain ⟨j, -, rfl⟩ := List.mem_map.mp hi
    simp
  unfold lossRows
  rw [hm, List.range_add, List.filter_append, hlow, hhigh, List.append_nil]

theorem countP_lossRows {k : ℕ} (hk : k ≤ 1001) : lossRows.countP (fun i => i < k) = k := by
  rw [List.countP_eq_length_filter, filter_lossRows hk, List.length_range]

/-- A column that is `a` in the rows below `k` and zero in the others. -/
theorem sum_lossColumn {M : Type} [AddCommMonoid M] {k : ℕ} (hk : k ≤ 1001) (a : M) :
    (lossRows.map fun i => if i < k then a else 0).sum = k • a := by
  rw [List.sum_map_ite, filter_lossRows hk]
  simp

theorem countP_lossColumn {k : ℕ} (hk : k ≤ 1001) {a : ℤ} (ha : 0 < a) :
    (lossRows.map fun i => if i < k then a else 0).countP (fun n => 0 < n) = k := by
  rw [List.countP_map]
  refine (List.countP_congr fun i _ => ?_).trans (countP_lossRows hk)
  by_cases hi : i < k
  · simp [hi, ha]
  · simp [hi]

def lossVotes : Votes := ⟨⟨[(account 0, 1000)], by simp⟩, by simp⟩

/-- 1001 validators, all with a bond; one of them has all the veMNDE votes, and one with little
stake is on the blacklist. -/
def lossInputs : Inputs where
  params := lossParams
  blacklist := [⟨account 100, "SLOW_VOTER"⟩]
  validators := lossRows.map lossValidator
  msolVotes := ⟨Dict.empty, by simp [Dict.empty]⟩
  vemndeVotes := lossVotes
  bonds := lossRows.map account

theorem account_inj {i j : ℕ} (h : account i = account j) : i = j := by
  have := congrArg String.length h
  simpa [account] using this

theorem lossVotes_of (i : ℕ) : lossVotes.of (account i) = if i = 0 then 1000 else 0 := by
  unfold Votes.of lossVotes Dict.get?
  by_cases h : i = 0
  · subst h
    simp
  · have hne : ¬ account 0 = account i := fun heq => h (account_inj heq).symm
    simp [hne, h]

theorem delStratVemnde_loss : delStratVemnde lossInputs = 0 := by
  show lossVotes.of "MarinadeA1gorithmicDe1egationStrategy111111" = 0
  have hne : ¬ account 0 = "MarinadeA1gorithmicDe1egationStrategy111111" := by decide
  unfold Votes.of lossVotes Dict.get?
  simp [hne]

/-- The score of the row `i`. -/
def lossScore (i : ℕ) : ℚ := if i < 100 then 1 else 0

/-- A column of two values is normalized to ones and zeros. -/
theorem normalize_lossColumn {a b : ℚ} {f : ℕ → ℚ} (h : b < a)
    (hf : f = fun i => if i < 100 then a else b) :
    normalize (lossRows.map f) = some (lossRows.map lossScore) := by
  have hne : a - b ≠ 0 := (sub_pos.mpr h).ne'
  have hpos : ∀ i, i < 100 → f i = a := fun i hi => by rw [hf]; exact if_pos hi
  have hneg : ∀ i, ¬ i < 100 → f i = b := fun i hi => by rw [hf]; exact if_neg hi
  have hlo : b ∈ lossRows.map f :=
    List.mem_map.mpr ⟨100, mem_lossRows.mpr (by omega), hneg 100 (by omega)⟩
  have hhi : a ∈ lossRows.map f :=
    List.mem_map.mpr ⟨0, mem_lossRows.mpr (by omega), hpos 0 (by omega)⟩
  have hbounds : ∀ x ∈ lossRows.map f, b ≤ x ∧ x ≤ a := by
    intro x hx
    obtain ⟨i, _, rfl⟩ := List.mem_map.mp hx
    by_cases hi : i < 100
    · rw [hpos i hi]
      exact ⟨h.le, le_rfl⟩
    · rw [hneg i hi]
      exact ⟨le_rfl, h.le⟩
  rw [normalize_eq_some hlo hhi hbounds h, List.map_map]
  refine congrArg some (List.map_congr_left fun i _ => ?_)
  show (f i - b) / (a - b) = lossScore i
  unfold lossScore
  by_cases hi : i < 100
  · rw [if_pos hi, hpos i hi, div_self hne]
  · rw [if_neg hi, hneg i hi, sub_self, zero_div]

def lossScored (i : ℕ) : ScoredValidator :=
  { lossValidator i with
    normalizedDcConcentration := lossScore i
    normalizedGraceSkipRate := lossScore i
    normalizedAdjustedCredits := lossScore i
    score := lossScore i }

theorem score_loss (i : ℕ) :
    score lossParams (lossScore i) (lossScore i) (lossScore i) = lossScore i := by
  show (0 + lossScore i * 2 + lossScore i * 1 + lossScore i * 10) / (10 + 1 + 2) = _
  ring

theorem scoreValidators_loss :
    scoreValidators lossParams lossInputs.validators = some (lossRows.map lossScored) := by
  have hshare : (fun i => 1 - (if i < 100 then (0 : ℚ) else 1)) =
      fun i => if i < 100 then (1 : ℚ) else 0 := by
    funext i
    by_cases hi : i < 100
    · rw [if_pos hi, if_pos hi, sub_zero]
    · rw [if_neg hi, if_neg hi, sub_self]
  have hdc := normalize_lossColumn
    (f := (fun v : Validator => 1 - v.avgDcConcentration) ∘ lossValidator) zero_lt_one hshare
  have hgsr := normalize_lossColumn
    (f := (fun v : Validator => 1 - v.avgGraceSkipRate) ∘ lossValidator) zero_lt_one hshare
  have hac := normalize_lossColumn (a := 400000) (b := 0)
    (f := (fun v : Validator => v.avgAdjustedCredits) ∘ lossValidator) (by norm_num) rfl
  unfold scoreValidators
  rw [show lossInputs.validators = lossRows.map lossValidator from rfl, List.map_map,
    List.map_map, List.map_map, hdc, hgsr, hac]
  show (if (10 + 1 + 2 : ℚ) = 0 then none else some _) = _
  rw [if_neg (by norm_num), List.zip_map', List.zip_map', List.zip_map', List.map_map]
  refine congrArg some (List.map_congr_left fun i _ => ?_)
  show ScoredValidator.mk _ _ _ _ (score lossParams _ _ _) = lossScored i
  rw [score_loss]
  rfl

variable {V : Type} [LinearOrder V] (parseVersion : String → V)

theorem blacklisted_loss (i : ℕ) :
    blacklisted lossInputs (lossValidator i) = decide (i = 100) := by
  show ([⟨account 100, "SLOW_VOTER"⟩].any fun row : BlacklistRow =>
    decide (row.voteAccount = account i)) = _
  rw [List.any_cons, List.any_nil, Bool.or_false]
  exact decide_eq_decide.mpr ⟨fun h => (account_inj h).symm, fun h => congrArg account h.symm⟩

theorem any_blacklisted_loss : lossInputs.validators.any (blacklisted lossInputs) = true := by
  have hlisted : 100 ∈ lossRows := mem_lossRows.mpr (by omega)
  exact List.any_eq_true.mpr ⟨_, List.mem_map_of_mem hlisted, blacklisted_loss 100⟩

/-- Of the shared criteria only the stake can fail, but for the row of the blacklist. -/
theorem eligible_loss {i : ℕ} (hi : i ∈ lossRows) (minStake : ℚ) :
    eligible parseVersion lossInputs 10 minStake (lossValidator i) =
      (!decide (i = 100) && !decide ((lossValidator i).minimumStake < minStake)) := by
  have hbond : bondless lossInputs (lossValidator i) = false := by
    have : account i ∈ lossRows.map account := List.mem_map.mpr ⟨i, hi, rfl⟩
    show (!(lossRows.map account).contains (account i)) = false
    simpa using this
  have hcommission : decide ((10 : ℚ) < (lossValidator i).maxCommission) = false := by
    show decide ((10 : ℚ) < 5) = false
    norm_num
  have hversion : decide (parseVersion (lossValidator i).version <
      parseVersion lossInputs.params.eligibilityMinVersion) = false :=
    decide_eq_false (lt_irrefl _)
  unfold eligible
  rw [hbond, hcommission, hversion, blacklisted_loss]
  simp

def lossAlgo (i : ℕ) : AlgoValidator := markAlgo parseVersion lossInputs (lossScored i)

theorem eligibleStakeAlgo_loss {i : ℕ} (hi : i ∈ lossRows) :
    (lossAlgo parseVersion i).eligibleStakeAlgo = decide (i < 100) := by
  show eligible parseVersion lossInputs 10 1000 (lossValidator i) = _
  rw [eligible_loss parseVersion hi]
  show (!decide (i = 100) && !decide ((if i < 100 then (50000 : ℚ) else 500) < 1000)) = _
  by_cases h : i < 100
  · have hlisted : i ≠ 100 := by omega
    rw [if_pos h]
    norm_num [h, hlisted]
  · rw [if_neg h]
    norm_num [h]

def lossRanked (i : ℕ) : RankedValidator :=
  { lossAlgo parseVersion i with
    rank := rankMin ((lossRows.map (lossAlgo parseVersion)).map (·.score)) (lossScore i) }

theorem rankValidators_loss :
    (rankValidators (lossRows.map (lossAlgo parseVersion))).Perm
      (lossRows.map (lossRanked parseVersion)) := by
  have h := rankValidators_perm (lossRows.map (lossAlgo parseVersion))
  rw [List.map_map] at h
  exact h

theorem minScoreInAlgoSet_loss :
    minScoreInAlgoSet 100 (rankValidators (lossRows.map (lossAlgo parseVersion))) = some 1 := by
  have hperm := rankValidators_loss parseVersion
  apply minScoreInAlgoSet_eq (by omega)
  · intro v hv hel
    obtain ⟨i, hi, rfl⟩ := List.mem_map.mp (hperm.subset hv)
    rw [show (lossRanked parseVersion i).eligibleStakeAlgo =
      (lossAlgo parseVersion i).eligibleStakeAlgo from rfl, eligibleStakeAlgo_loss _ hi] at hel
    exact if_pos (of_decide_eq_true hel)
  · have h₀ : 0 ∈ lossRows := mem_lossRows.mpr (by omega)
    refine ⟨_, hperm.symm.subset (List.mem_map.mpr ⟨0, h₀, rfl⟩), ?_⟩
    exact (eligibleStakeAlgo_loss parseVersion h₀).trans rfl

def lossVoted (i : ℕ) : VotedValidator :=
  markVotes parseVersion lossInputs (some 1) (lossRanked parseVersion i)

theorem votedValidators_loss :
    ∃ vs, votedValidators parseVersion lossInputs = some vs ∧
      vs.Perm (lossRows.map (lossVoted parseVersion)) := by
  refine ⟨voteValidators parseVersion lossInputs
    (rankValidators (lossRows.map (lossAlgo parseVersion))), ?_, ?_⟩
  · refine (votedValidators_eq_some_iff parseVersion).mpr
      ⟨_, scoreValidators_loss, any_blacklisted_loss, ?_⟩
    rw [List.map_map]
    rfl
  · have h := (rankValidators_loss parseVersion).map (markVotes parseVersion lossInputs (some 1))
    rw [List.map_map] at h
    unfold voteValidators
    rw [show lossInputs.params.marinadeValidatorsCount = 100 from rfl, minScoreInAlgoSet_loss]
    exact h

/-! ### Its columns -/

theorem algoScore_loss {i : ℕ} (hi : i ∈ lossRows) :
    algoScore (lossVoted parseVersion i) = lossScore i := by
  have hel : (lossRanked parseVersion i).eligibleStakeAlgo = decide (i < 100) :=
    eligibleStakeAlgo_loss parseVersion hi
  show lossScore i * indicator ((lossRanked parseVersion i).eligibleStakeAlgo &&
    decide (1 ≤ lossScore i)) = _
  rw [hel]
  unfold lossScore indicator
  by_cases h : i < 100
  · simp [h]
  · simp [h]

theorem vemndeValidVotes_loss {i : ℕ} (hi : i ∈ lossRows) :
    vemndeValidVotes (lossVoted parseVersion i) = if i < 1 then 1000 else 0 := by
  have hvotes : (lossVoted parseVersion i).vemndeVotes = if i = 0 then 1000 else 0 :=
    lossVotes_of i
  unfold vemndeValidVotes
  rw [hvotes]
  by_cases h : i = 0
  · subst h
    have hel : (lossVoted parseVersion 0).eligibleStakeVemnde = true := by
      show (eligible parseVersion lossInputs 10 100 (lossValidator 0) &&
        !decide (lossScore 0 < 1 * (9 / 10))) = true
      rw [eligible_loss parseVersion hi]
      norm_num [lossValidator, lossScore]
    rw [hel]
    exact round_of_eq (by norm_num [indicator])
  · rw [if_neg h, if_neg (by omega)]
    exact round_of_eq (by norm_num)

/-- The valid votes of a table, row by row. -/
theorem vemndeValidVotes_perm {ι : Type} {rows : List ι} {voted : ι → VotedValidator}
    {votes : ι → ℤ} {vs : List VotedValidator} (hperm : vs.Perm (rows.map voted))
    (h : ∀ i ∈ rows, vemndeValidVotes (voted i) = votes i) :
    (vs.map vemndeValidVotes).Perm (rows.map votes) := by
  have hvalid := hperm.map vemndeValidVotes
  rw [List.map_map] at hvalid
  exact hvalid.trans (List.Perm.of_eq (List.map_congr_left h))

/-- One validator has all the valid votes, ten times what the cap lets count. -/
theorem lossVotes_overflow {vs : List VotedValidator}
    (hperm : vs.Perm (lossRows.map (lossVoted parseVersion))) :
    vemndeValidVotesTotal vs = 1000 ∧ vemndeVotedCount vs = 1 ∧
      vemndePowerCap lossInputs vs = 100 := by
  have hcolumn : (vs.map vemndeValidVotes).Perm
      (lossRows.map fun i => if i < 1 then 1000 else 0) :=
    vemndeValidVotes_perm hperm fun i hi => vemndeValidVotes_loss parseVersion hi
  have htotal : vemndeValidVotesTotal vs = 1000 := by
    unfold vemndeValidVotesTotal
    rw [hcolumn.sum_eq, sum_lossColumn (by omega), one_smul]
  have hcount : vemndeVotedCount vs = 1 := by
    rw [vemndeVotedCount_eq, hcolumn.countP_eq, countP_lossColumn (by omega) (by omega)]
  refine ⟨htotal, hcount, round_of_eq ?_⟩
  rw [htotal, delStratVemnde_loss, show lossInputs.params.vemndeValidatorCap = 1 / 10 from rfl]
  norm_num

theorem sum_lossScore : (lossRows.map lossScore).sum = 100 := by
  unfold lossScore
  rw [sum_lossColumn (by omega)]
  norm_num

theorem algoScores_loss {vs : List VotedValidator}
    (hperm : vs.Perm (lossRows.map (lossVoted parseVersion))) :
    (vs.map algoScore).Perm (lossRows.map lossScore) := by
  have h := hperm.map algoScore
  rw [List.map_map] at h
  exact h.trans (List.Perm.of_eq (List.map_congr_left fun i hi => algoScore_loss parseVersion hi))

theorem algoScoreTotal_loss {vs : List VotedValidator}
    (hperm : vs.Perm (lossRows.map (lossVoted parseVersion))) : algoScoreTotal vs = 100 := by
  unfold algoScoreTotal
  rw [(algoScores_loss parseVersion hperm).sum_eq, sum_lossScore]

theorem stakeControlVemnde_loss : stakeControlVemnde lossInputs = 1 / 5 := by
  unfold stakeControlVemnde delStratStakeControl
  rw [delStratVemnde_loss, zero_div, ite_self]
  show (2 / 10 : ℚ) * (1 - 0) = 1 / 5
  norm_num

/-- Without votes the whole mSOL share is left. -/
theorem stakeControlMsol_loss {inp : Inputs} (hparams : inp.params = lossParams)
    (hvotes : inp.msolVotes.total = 0) : stakeControlMsol inp = 1 / 5 := by
  unfold stakeControlMsol delStratStakeControl
  rw [hparams, hvotes, if_neg (lt_irrefl _)]
  norm_num [lossParams]

/-- Nine tenths of the votes overflow. -/
theorem overflowPower_loss {vs : List VotedValidator}
    (hperm : vs.Perm (lossRows.map (lossVoted parseVersion))) :
    0 ≤ (redistribute lossInputs vs).vemndeOverflow ∧ overflowPower lossInputs vs = 9 / 10 := by
  obtain ⟨htotal, hcount, hcap⟩ := lossVotes_overflow parseVersion hperm
  have hvotes : ∀ v ∈ vs, 0 ≤ v.vemndeVotes := by
    intro v hv
    obtain ⟨i, _, rfl⟩ := List.mem_map.mp (hperm.subset hv)
    exact Votes.of_nonneg _ _
  have hcap₀ : 0 ≤ lossInputs.params.vemndeValidatorCap := lossParams_bounds.2.1
  have hover := redistribute_overflow hvotes hcap₀
  have hsum := redistribute_sum lossInputs vs
  rw [htotal, hcount, hcap] at hover
  rw [htotal] at hsum
  unfold overflowPower vemndeOverflowPower
  generalize redistribute lossInputs vs = s at hover hsum
  have ho : s.vemndeOverflow = 900 := by omega
  refine ⟨by omega, ?_⟩
  rw [if_pos (by omega), hsum, ho]
  norm_num

/-- The algo pool is large enough to give each of the hundred some stake. -/
theorem algoPool_loss (msolTotal : ℤ) :
    100 ≤ (pools lossInputs msolTotal (9 / 10)).stakeControlAlgoSol := by
  have hmsol : stakeControlMsol lossInputs = 1 / 5 := stakeControlMsol_loss rfl rfl
  unfold pools stakeControlAlgo
  dsimp only
  rw [hmsol, stakeControlVemnde_loss, show lossInputs.params.totalStake = 4000000 from rfl]
  by_cases hvotes : 0 < msolTotal
  · rw [if_pos hvotes]
    norm_num
  · rw [if_neg hvotes]
    norm_num

/-- Who has a positive algo target. -/
theorem round_algoStake_loss {pool : ℚ} (hpool : 100 ≤ pool) (i : ℕ) :
    0 < round (lossScore i / 100 * pool) ↔ i < 100 := by
  unfold lossScore
  by_cases hi : i < 100
  · rw [if_pos hi]
    refine iff_of_true (isRounding_round.le_round ?_) hi
    push_cast
    linarith
  · rw [if_neg hi, zero_div, zero_mul]
    refine iff_of_false (not_lt.mpr (isRounding_round.round_le ?_)) hi
    exact le_of_eq Int.cast_zero.symm

/-- With these rows and scores a run with a large algo pool passes the checks. -/
theorem checks_lossRows {inp : Inputs} (hparams : inp.params = lossParams)
    {vs : List VotedValidator} (hscores : (vs.map algoScore).Perm (lossRows.map lossScore))
    (hpool : 100 ≤
      (pools inp (msolValidVotesTotal vs) (overflowPower inp vs)).stakeControlAlgoSol)
    {r : Stakes} (h : stakesOf inp vs = some r) : checks inp r := by
  have hscaled := scaledValidators_perm inp vs
  have htotal : algoScoreTotal vs = 100 := by
    unfold algoScoreTotal
    rw [hscores.sum_eq, sum_lossScore]
  obtain ⟨rfl, _⟩ := stakesOf_eq_some h
  rw [htotal]
  generalize pools inp (msolValidVotesTotal vs) (overflowPower inp vs) = p at hpool
  refine ⟨by rw [hparams]; norm_num [lossParams], ?_, ?_⟩
  · have hlen : (scaledValidators inp vs).length = 1001 := by
      have h₁ := hscaled.length_eq
      have h₂ := hscores.length_eq
      rw [List.length_map] at h₁
      rw [List.length_map, List.length_map] at h₂
      rw [h₁, h₂, length_lossRows]
    rw [List.length_map, hlen]
    omega
  · -- the targets depend on the algo scores only, and those on the row
    have hcolumn : ((scaledValidators inp vs).map fun v =>
        algoScore v.toVotedValidator).Perm (lossRows.map lossScore) := by
      have h := hscaled.map algoScore
      rw [List.map_map] at h
      exact h.trans hscores
    rw [List.countP_map]
    show (scaledValidators inp vs).countP
      ((fun s => decide (0 < round (s / 100 * p.stakeControlAlgoSol))) ∘
        fun v => algoScore v.toVotedValidator) = 100
    rw [← List.countP_map, hcolumn.countP_eq, List.countP_map,
      List.countP_congr (q := fun i => decide (i < 100))
        fun i _ => by simpa using round_algoStake_loss hpool i, countP_lossRows (by omega)]

/-- The run passes the checks of the script. -/
theorem checks_loss {vs : List VotedValidator}
    (hperm : vs.Perm (lossRows.map (lossVoted parseVersion))) {r : Stakes}
    (h : stakesOf lossInputs vs = some r) : checks lossInputs r := by
  refine checks_lossRows rfl (algoScores_loss parseVersion hperm) ?_ h
  rw [(overflowPower_loss parseVersion hperm).2]
  exact algoPool_loss (msolValidVotesTotal vs)

theorem exists_targetStakes_loss :
    ∃ vs r, vs.Perm (lossRows.map (lossVoted parseVersion)) ∧
      votedValidators parseVersion lossInputs = some vs ∧ stakesOf lossInputs vs = some r ∧
      targetStakes parseVersion lossInputs = some r := by
  obtain ⟨vs, hvs, hperm⟩ := votedValidators_loss parseVersion
  obtain ⟨r, hr⟩ : ∃ r, stakesOf lossInputs vs = some r :=
    exists_stakesOf (by rw [algoScoreTotal_loss parseVersion hperm]; norm_num)
  exact ⟨vs, r, hperm, hvs, hr, Option.bind_eq_some_iff.mpr ⟨vs, hvs, hr⟩⟩

/-- A run that passes all checks and loses 72000 of 4000000. -/
theorem targetStakes_not_conserved :
    ¬ ∀ inp : Inputs, 0 ≤ inp.params.stakeControlVemnde → 0 ≤ inp.params.stakeControlMsol →
      inp.params.stakeControlVemnde + inp.params.stakeControlMsol ≤ 1 →
      0 ≤ inp.params.vemndeValidatorCap → inp.params.vemndeValidatorCap ≤ 1 →
      ∀ r, targetStakes (fun _ => 0 : String → ℕ) inp = some r → 0 < r.algoScoreTotal →
        checks inp r →
        |(targetStakeTotal r : ℚ) - inp.params.totalStake| ≤ 3 * inp.validators.length / 2 := by
  intro hall
  obtain ⟨vs, r, hperm, hvs, hr, hrun⟩ := exists_targetStakes_loss (fun _ => 0 : String → ℕ)
  obtain ⟨ho, hpart⟩ := overflowPower_loss _ hperm
  have hscore := algoScoreTotal_loss _ hperm
  have hrscore : 0 < r.algoScoreTotal := by
    rw [(stakesOf_eq_some hr).1, hscore]
    norm_num
  have hlen : vs.length = lossInputs.validators.length := length_votedValidators _ hvs
  have hrows : lossInputs.validators.length = 1001 := by
    show (lossRows.map lossValidator).length = 1001
    rw [List.length_map, length_lossRows]
  obtain ⟨-, hcap, hcapOne, hvemnde, hmsol, hshares⟩ := lossParams_bounds
  have hbound := hall lossInputs hvemnde hmsol hshares hcap hcapOne r hrun hrscore
    (checks_loss _ hperm hr)
  have herror := abs_roundingError_le hr
  have htotal := targetStakeTotal_eq r
  rw [sum_exactStake hr ho, hpart, stakeControlVemnde_loss,
    show lossInputs.params.totalStake = 4000000 from rfl] at htotal
  rw [show lossInputs.params.totalStake = 4000000 from rfl, htotal, hrows] at hbound
  rw [hlen, hrows] at herror
  have h₁ := (abs_le.mp hbound).1
  have h₂ := (abs_le.mp herror).2
  norm_num at h₁ h₂
  linarith

/-- What the condition says of that run. -/
theorem targetStakes_conserved_iff_loss :
    ∃ vs r, targetStakes (fun _ => 0 : String → ℕ) lossInputs = some r ∧
      (Conserved lossInputs r ↔ NoPartialOverflow lossInputs vs) := by
  obtain ⟨vs, hvs, hperm⟩ := votedValidators_loss (fun _ => 0 : String → ℕ)
  have hscore : 0 < algoScoreTotal vs := by
    rw [algoScoreTotal_loss _ hperm]
    norm_num
  exact ⟨vs, targetStakes_conserved_iff hvs lossParams_bounds.2.1 hscore⟩

end Loss

end DelegationStrategy.Scoring
