import DelegationStrategy.Scoring.Ineligible

/-!
# The cap on veMNDE stake

`VEMNDE_VALIDATOR_CAP` is meant as a share of the veMNDE stake. The script applies it to
votes, with three totals: the cap in votes is a part of the valid votes and those for the
delegation strategy; the pool is reduced by the part that the delegation strategy has of
*all* votes; and the power is divided by the valid votes. A vote for an ineligible
validator, or for one that is not listed, counts in the second total only.

- The greatest power is the same before and after the loop (`exists_le_of_mem_redistribute`,
  `le_redistribute`).
- The stake stays within the cap exactly under an inequality between the votes
  (`vemndeCapHolds_iff`). It holds without votes for the delegation strategy, and when all
  votes are valid or for the delegation strategy (`vemndeCapCondition_of_total_le`).
-/

namespace DelegationStrategy.Scoring

open DelegationStrategy.Lib

/-! ## The cap -/

/-- How far rounding moves the cap in votes. -/
def voteCapRounding (inp : Inputs) (vs : List VotedValidator) : ℚ :=
  |(vemndePowerCap inp vs : ℚ) -
    (vemndeValidVotesTotal vs + delStratVemnde inp) * inp.params.vemndeValidatorCap|

/-- The voted rows of a result. -/
def Stakes.rows (r : Stakes) : List VotedValidator :=
  r.validators.map (·.toVotedValidator)

/-- No validator gets more veMNDE stake than the cap of the configured share, up to what the
rounding of the cap in votes directs. -/
def VemndeCapHolds (inp : Inputs) (r : Stakes) : Prop :=
  ∀ v ∈ r.validators, vemndeStake r.pools v.toScaledValidator ≤
    inp.params.vemndeValidatorCap * inp.params.totalStake * inp.params.stakeControlVemnde +
      voteCapRounding inp r.rows *
        (r.pools.stakeControlVemndeSol / vemndeValidVotesTotal r.rows)

/-- The part of all votes that did not go to the delegation strategy. -/
def otherVotesPart (inp : Inputs) : ℚ :=
  1 - delStratStakeControl (delStratVemnde inp) inp.vemndeVotes.total

/-- There is no veMNDE stake, or nobody has too many votes under the cap. -/
def VemndeCapCondition (inp : Inputs) (vs : List VotedValidator) : Prop :=
  inp.params.totalStake = 0 ∨ inp.params.stakeControlVemnde = 0 ∨
    ∀ v ∈ vs,
      ((min (vemndeValidVotes v) (vemndePowerCap inp vs) : ℤ) - voteCapRounding inp vs) *
          otherVotesPart inp *
          (min (vemndeValidVotesTotal vs) (vemndeVotedCount vs * vemndePowerCap inp vs) : ℤ) ≤
        inp.params.vemndeValidatorCap * vemndeValidVotesTotal vs ^ 2

/-! ## The greatest power -/

section Power

variable {inp : Inputs} {vs : List VotedValidator}

/-- The loop leaves the part of the valid votes that fits under the cap. -/
theorem sum_vemndePower_redistribute (hvotes : ∀ v ∈ vs, 0 ≤ v.vemndeVotes)
    (hcap : 0 ≤ inp.params.vemndeValidatorCap) :
    (redistribute inp vs).vemndePower.sum =
      min (vemndeValidVotesTotal vs) (vemndeVotedCount vs * vemndePowerCap inp vs) := by
  have hsum := redistribute_sum inp vs
  rw [redistribute_overflow hvotes hcap] at hsum
  omega

theorem sum_vemndePower_nonneg (hvotes : ∀ v ∈ vs, 0 ≤ v.vemndeVotes)
    (hcap : 0 ≤ inp.params.vemndeValidatorCap) : 0 ≤ (redistribute inp vs).vemndePower.sum := by
  have hvalid := vemndeValidVotesTotal_nonneg hvotes
  have hcapped := vemndePowerCap_nonneg hvotes hcap
  rw [sum_vemndePower_redistribute hvotes hcap]
  exact le_min hvalid (by positivity)

/-- Nobody loses power in the loop. -/
theorem le_redistribute (hvotes : ∀ v ∈ vs, 0 ≤ v.vemndeVotes)
    (hcap : 0 ≤ inp.params.vemndeValidatorCap) :
    List.Forall₂ (· ≤ ·) (powerColumn inp vs) (redistribute inp vs).vemndePower := by
  have hbounds := powerColumn_bounds hvotes hcap
  rw [redistribute_eq]
  exact le_distribute isRounding_round (fun p hp => (hbounds p hp).1)
    (fun p hp => (hbounds p hp).2) (vemndeOverflow_nonneg inp vs)

/-- Votes overflow only if somebody is at the cap, which nobody exceeds after the loop. -/
theorem exists_le_of_mem_redistribute {q : ℤ} (hvotes : ∀ v ∈ vs, 0 ≤ v.vemndeVotes)
    (hcap : 0 ≤ inp.params.vemndeValidatorCap) (hq : q ∈ (redistribute inp vs).vemndePower) :
    ∃ w ∈ vs, q ≤ min (vemndeValidVotes w) (vemndePowerCap inp vs) := by
  have hbounds := powerColumn_bounds hvotes hcap
  rw [redistribute_eq] at hq
  by_cases hzero : vemndeOverflow inp vs = 0
  · rw [hzero, distribute_zero round_zero fun p hp => (hbounds p hp).2] at hq
    obtain ⟨w, hw, rfl⟩ := List.mem_map.mp ((powerColumn_perm inp vs).subset hq)
    exact ⟨w, hw, le_rfl⟩
  · have hover : ∃ w ∈ vs, vemndePowerCap inp vs < vemndeValidVotes w := by
      by_contra hnone
      push Not at hnone
      have hsame : (vs.map fun v => min (vemndeValidVotes v) (vemndePowerCap inp vs)) =
          vs.map vemndeValidVotes :=
        List.map_congr_left fun v hv => min_eq_left (hnone v hv)
      exact hzero (by simp [vemndeOverflow, hsame, vemndeValidVotesTotal])
    obtain ⟨w, hw, hlt⟩ := hover
    have hle := distribute_le (fun p hp => (hbounds p hp).2) q hq
    exact ⟨w, hw, by omega⟩

/-- A voted row is in the scaled table, with its own entry of the column the loop left. -/
theorem exists_mem_scaledValidators {R : ℤ → ℤ → Prop}
    (hcolumn : List.Forall₂ R (powerColumn inp vs) (redistribute inp vs).vemndePower)
    {w : VotedValidator} (hw : w ∈ vs) :
    ∃ v ∈ scaledValidators inp vs, ∃ power,
      v.vemndePower = scalePower (redistribute inp vs) power ∧
      R (min (vemndeValidVotes w) (vemndePowerCap inp vs)) power := by
  have hrow : powerValidator (msolValidVotesTotal vs) (vemndePowerCap inp vs) w ∈
      powerValidators inp vs :=
    (powerValidators_perm inp vs).symm.subset (List.mem_map_of_mem hw)
  obtain ⟨i, hi, heq⟩ := List.mem_iff_getElem.mp hrow
  have hi' : i < (redistribute inp vs).vemndePower.length := by
    rwa [length_redistribute]
  have hrel := (List.forall₂_map_left_iff.mp hcolumn).get hi hi'
  rw [List.get_eq_getElem, heq] at hrel
  have hzip : (powerValidator (msolValidVotesTotal vs) (vemndePowerCap inp vs) w,
      (redistribute inp vs).vemndePower[i]) ∈
        (powerValidators inp vs).zip (redistribute inp vs).vemndePower := by
    rw [← heq]
    exact List.mem_iff_getElem.mpr ⟨i, by simp [hi, hi'], by simp⟩
  exact ⟨_, List.mem_map_of_mem hzip, _, rfl, hrel⟩

end Power

/-! ## Stake and votes -/

/-- The stake of `q` votes of `V`, from a pool that is the part `P` of `V` of what is left of
`A`, against the share `c` of `A`. -/
theorem share_le_iff {A c slack part P V q : ℚ} (hA : 0 ≤ A) (hV : 0 < V) :
    q / V * (A * part * (P / V)) ≤ c * A + slack * (A * part * (P / V) / V) ↔
      A = 0 ∨ (q - slack) * part * P ≤ c * V ^ 2 := by
  have hdiff : c * A + slack * (A * part * (P / V) / V) - q / V * (A * part * (P / V)) =
      A * (c * V ^ 2 - (q - slack) * part * P) / V ^ 2 := by
    field_simp
    ring
  rw [← sub_nonneg, hdiff, le_div_iff₀ (by positivity), zero_mul]
  rcases hA.eq_or_lt with hzero | hpos
  · simp [← hzero]
  · rw [mul_nonneg_iff_of_pos_left hpos, sub_nonneg, or_iff_right hpos.ne']

section Stake

variable {inp : Inputs} {vs : List VotedValidator} {r : Stakes}

theorem total_nonneg (votes : Votes) : 0 ≤ votes.total := by
  refine List.sum_nonneg ?_
  intro amount hamount
  obtain ⟨e, he, rfl⟩ := List.mem_map.mp hamount
  exact votes.nonneg e he

/-- An account has a part of all votes. -/
theorem of_le_total (votes : Votes) (voteAccount : String) :
    votes.of voteAccount ≤ votes.total := by
  unfold Votes.of
  cases hget : votes.byAccount.get? voteAccount with
  | none => exact total_nonneg votes
  | some amount =>
    refine List.single_le_sum ?_ amount (List.mem_map_of_mem (Dict.mem_of_get? hget))
    intro amount hamount
    obtain ⟨e, he, rfl⟩ := List.mem_map.mp hamount
    exact votes.nonneg e he

theorem otherVotesPart_nonneg (inp : Inputs) : 0 ≤ otherVotesPart inp := by
  unfold otherVotesPart delStratStakeControl
  split
  · rename_i htotal
    rw [sub_nonneg, div_le_one htotal]
    exact of_le_total inp.vemndeVotes inp.params.delStratPubkey
  · norm_num

/-- The discount makes up for the votes for the delegation strategy, if no other votes are
lost. -/
theorem discount_le {valid delStrat total : ℚ} (hdelStrat : 0 ≤ delStrat)
    (hle : delStrat ≤ total) (h : delStrat = 0 ∨ total ≤ valid + delStrat) :
    (valid + delStrat) * (1 - delStratStakeControl delStrat total) ≤ valid := by
  rcases h with rfl | htotal
  · simp [delStratStakeControl]
  · unfold delStratStakeControl
    by_cases hpos : 0 < total
    · have hlost : delStrat * (total - (valid + delStrat)) ≤ 0 :=
        mul_nonpos_of_nonneg_of_nonpos hdelStrat (sub_nonpos.mpr htotal)
      rw [if_pos hpos, one_sub_div hpos.ne', mul_div_assoc', div_le_iff₀ hpos]
      linarith
    · rw [if_neg hpos]
      linarith

/-- The part of the votes that found room directs the veMNDE pool. -/
theorem vemndePool_eq (msolTotal : ℤ) (hpos : 0 < (redistribute inp vs).vemndePower.sum)
    (hV : (0 : ℚ) < vemndeValidVotesTotal vs) :
    (pools inp msolTotal (overflowPower inp vs)).stakeControlVemndeSol =
      inp.params.totalStake * inp.params.stakeControlVemnde * otherVotesPart inp *
        ((redistribute inp vs).vemndePower.sum / vemndeValidVotesTotal vs) := by
  have hsum := redistribute_sum inp vs
  have hpart : 1 - overflowPower inp vs =
      (redistribute inp vs).vemndePower.sum / vemndeValidVotesTotal vs := by
    rw [overflowPower, vemndeOverflowPower, if_pos hpos, hsum, eq_div_iff hV.ne', sub_mul,
      one_mul, div_mul_cancel₀ _ hV.ne', ← hsum]
    push_cast
    ring
  show inp.params.totalStake * stakeControlVemnde inp * (1 - overflowPower inp vs) = _
  rw [hpart, stakeControlVemnde, otherVotesPart]
  ring

/-- A row with the votes `q` after the loop stays within the cap exactly under the inequality
of the condition. -/
theorem vemndeStake_le_iff (msolTotal : ℤ) (hvotes : ∀ v ∈ vs, 0 ≤ v.vemndeVotes)
    (hcap : 0 ≤ inp.params.vemndeValidatorCap)
    (hstake : 0 ≤ inp.params.totalStake * inp.params.stakeControlVemnde)
    {v : ScaledValidator} {q : ℤ} (hv : v.vemndePower = scalePower (redistribute inp vs) q) :
    vemndeStake (pools inp msolTotal (overflowPower inp vs)) v ≤
        inp.params.vemndeValidatorCap * inp.params.totalStake * inp.params.stakeControlVemnde +
          voteCapRounding inp vs *
            ((pools inp msolTotal (overflowPower inp vs)).stakeControlVemndeSol /
              vemndeValidVotesTotal vs) ↔
      inp.params.totalStake * inp.params.stakeControlVemnde = 0 ∨
        (q - voteCapRounding inp vs) * otherVotesPart inp *
            (redistribute inp vs).vemndePower.sum ≤
          inp.params.vemndeValidatorCap * vemndeValidVotesTotal vs ^ 2 := by
  have hsum := redistribute_sum inp vs
  have hover : 0 ≤ (redistribute inp vs).vemndeOverflow := by
    rw [redistribute_overflow hvotes hcap]
    exact le_max_left _ _
  unfold vemndeStake
  rw [hv]
  rcases (sum_vemndePower_nonneg hvotes hcap).eq_or_lt with hzero | hpos
  · -- no power: the pool is empty
    have hpool : (pools inp msolTotal (overflowPower inp vs)).stakeControlVemndeSol = 0 := by
      have hall : overflowPower inp vs = 1 := if_neg hzero.not_lt
      simp [pools, hall]
    rw [hpool, ← hzero, mul_assoc inp.params.vemndeValidatorCap]
    refine iff_of_true ?_ (Or.inr ?_)
    · simpa using mul_nonneg hcap hstake
    · simpa using mul_nonneg hcap (sq_nonneg (vemndeValidVotesTotal vs : ℚ))
  · have hV : (0 : ℚ) < vemndeValidVotesTotal vs := by exact_mod_cast (by omega)
    rw [vemndePool_eq msolTotal hpos hV, scalePower, if_pos hpos, hsum,
      mul_assoc inp.params.vemndeValidatorCap]
    exact share_le_iff hstake hV

/-- The rows of a result are the voted rows in another order. -/
theorem rows_perm (h : stakesOf inp vs = some r) : r.rows.Perm vs := by
  obtain ⟨rfl, -⟩ := stakesOf_eq_some h
  rw [Stakes.rows, List.map_map]
  exact scaledValidators_perm inp vs

theorem voteCap_rows (h : stakesOf inp vs = some r) :
    voteCapRounding inp r.rows = voteCapRounding inp vs ∧
      vemndeValidVotesTotal r.rows = vemndeValidVotesTotal vs := by
  have htotal : vemndeValidVotesTotal r.rows = vemndeValidVotesTotal vs :=
    ((rows_perm h).map vemndeValidVotes).sum_eq
  refine ⟨?_, htotal⟩
  rw [voteCapRounding, voteCapRounding, vemndePowerCap, vemndePowerCap, htotal]

/-- **The cap on stake** holds exactly under the condition on the votes. -/
theorem vemndeCapHolds_iff (hvotes : ∀ v ∈ vs, 0 ≤ v.vemndeVotes)
    (hcap : 0 ≤ inp.params.vemndeValidatorCap)
    (hstake : 0 ≤ inp.params.totalStake * inp.params.stakeControlVemnde)
    (h : stakesOf inp vs = some r) : VemndeCapHolds inp r ↔ VemndeCapCondition inp vs := by
  have hcolumn := le_redistribute hvotes hcap
  have hbounded : List.Forall₂ (fun _ q => ∃ w ∈ vs,
      q ≤ min (vemndeValidVotes w) (vemndePowerCap inp vs)) (powerColumn inp vs)
        (redistribute inp vs).vemndePower :=
    List.forall₂_iff_zip.mpr ⟨hcolumn.length_eq, fun hpq =>
      exists_le_of_mem_redistribute hvotes hcap (List.of_mem_zip hpq).2⟩
  obtain ⟨hrounding, htotal⟩ := voteCap_rows h
  unfold VemndeCapHolds VemndeCapCondition
  rw [hrounding, htotal, ← sum_vemndePower_redistribute hvotes hcap, ← or_assoc, ← mul_eq_zero]
  obtain ⟨rfl, -⟩ := stakesOf_eq_some h
  -- more votes are no less stake
  have hmono : ∀ a b : ℤ, a ≤ b →
      (a - voteCapRounding inp vs) * otherVotesPart inp * (redistribute inp vs).vemndePower.sum ≤
        (b - voteCapRounding inp vs) * otherVotesPart inp *
          (redistribute inp vs).vemndePower.sum := by
    intro a b hab
    have hab' : (a : ℚ) ≤ b := by exact_mod_cast hab
    have hsum : (0 : ℚ) ≤ (redistribute inp vs).vemndePower.sum := by
      exact_mod_cast sum_vemndePower_nonneg hvotes hcap
    have hpart := otherVotesPart_nonneg inp
    gcongr
  constructor
  · intro hholds
    by_cases hzero : inp.params.totalStake * inp.params.stakeControlVemnde = 0
    · exact Or.inl hzero
    · right
      intro w hw
      obtain ⟨v, hv, q, hscaled, hle⟩ := exists_mem_scaledValidators hcolumn hw
      have hstakes := hholds _ (List.mem_map_of_mem hv)
      have hq := ((vemndeStake_le_iff _ hvotes hcap hstake hscaled).mp hstakes).resolve_left hzero
      exact (hmono _ q hle).trans hq
  · intro hcond v hv
    obtain ⟨scaled, hmem, rfl⟩ := List.mem_map.mp hv
    obtain ⟨-, -, q, -, -, hscaled, w, hw, hle⟩ := mem_scaledValidators hbounded hmem
    refine (vemndeStake_le_iff _ hvotes hcap hstake hscaled).mpr (hcond.imp_right ?_)
    intro hall
    exact (hmono q _ hle).trans (hall w hw)

/-- The votes under the cap, without its rounding, are within the part that the cap stands
for. -/
theorem cappedVotes_sub_rounding_le (inp : Inputs) (vs : List VotedValidator)
    (v : VotedValidator) :
    ((min (vemndeValidVotes v) (vemndePowerCap inp vs) : ℤ) : ℚ) - voteCapRounding inp vs ≤
      (vemndeValidVotesTotal vs + delStratVemnde inp) * inp.params.vemndeValidatorCap := by
  have hmin : ((min (vemndeValidVotes v) (vemndePowerCap inp vs) : ℤ) : ℚ) ≤
      vemndePowerCap inp vs := by
    exact_mod_cast min_le_right _ _
  have habs := le_abs_self ((vemndePowerCap inp vs : ℚ) -
    (vemndeValidVotesTotal vs + delStratVemnde inp) * inp.params.vemndeValidatorCap)
  unfold voteCapRounding
  linarith

/-- When no vote is lost, or none is for the delegation strategy, the cap holds. -/
theorem vemndeCapCondition_of_total_le (hvotes : ∀ v ∈ vs, 0 ≤ v.vemndeVotes)
    (hcap : 0 ≤ inp.params.vemndeValidatorCap)
    (htotal : delStratVemnde inp = 0 ∨
      inp.vemndeVotes.total ≤ vemndeValidVotesTotal vs + delStratVemnde inp) :
    VemndeCapCondition inp vs := by
  refine Or.inr (Or.inr ?_)
  intro v _
  have hvalid : (0 : ℚ) ≤ vemndeValidVotesTotal vs := by
    exact_mod_cast vemndeValidVotesTotal_nonneg hvotes
  have hpart := otherVotesPart_nonneg inp
  have hdelStrat : 0 ≤ delStratVemnde inp := Votes.of_nonneg _ _
  have hvotes_le := cappedVotes_sub_rounding_le inp vs v
  have hdiscount : (vemndeValidVotesTotal vs + delStratVemnde inp) * otherVotesPart inp ≤
      vemndeValidVotesTotal vs :=
    discount_le hdelStrat (of_le_total inp.vemndeVotes _) htotal
  have hroom : ((min (vemndeValidVotesTotal vs)
      (vemndeVotedCount vs * vemndePowerCap inp vs) : ℤ) : ℚ) ≤ vemndeValidVotesTotal vs := by
    exact_mod_cast min_le_left _ _
  have hroom₀ : (0 : ℚ) ≤ (min (vemndeValidVotesTotal vs)
      (vemndeVotedCount vs * vemndePowerCap inp vs) : ℤ) := by
    rw [← sum_vemndePower_redistribute hvotes hcap]
    exact_mod_cast sum_vemndePower_nonneg hvotes hcap
  generalize ((min (vemndeValidVotesTotal vs)
    (vemndeVotedCount vs * vemndePowerCap inp vs) : ℤ) : ℚ) = room at hroom hroom₀ ⊢
  calc _ * otherVotesPart inp * room
      ≤ ((vemndeValidVotesTotal vs + delStratVemnde inp) * inp.params.vemndeValidatorCap) *
          otherVotesPart inp * room := by gcongr
    _ = inp.params.vemndeValidatorCap *
          ((vemndeValidVotesTotal vs + delStratVemnde inp) * otherVotesPart inp) * room := by ring
    _ ≤ inp.params.vemndeValidatorCap * vemndeValidVotesTotal vs * vemndeValidVotesTotal vs := by
        gcongr
    _ = inp.params.vemndeValidatorCap * vemndeValidVotesTotal vs ^ 2 := by ring

end Stake

/-! ## Runs -/

section Runs

variable {inp : Inputs} {r : Stakes} {V : Type} [LinearOrder V] {parseVersion : String → V}

theorem targetStakes_eq_some (h : targetStakes parseVersion inp = some r) :
    ∃ vs, votedValidators parseVersion inp = some vs ∧ stakesOf inp vs = some r :=
  Option.bind_eq_some_iff.mp h

/-- A scoring run keeps every validator within the cap on veMNDE stake exactly under the
condition on its votes. -/
theorem targetStakes_vemndeCap_iff (h : targetStakes parseVersion inp = some r)
    (hcap : 0 ≤ inp.params.vemndeValidatorCap) (hshare : 0 ≤ inp.params.stakeControlVemnde)
    (htotal : 0 ≤ inp.params.totalStake) :
    ∃ vs, votedValidators parseVersion inp = some vs ∧
      (VemndeCapHolds inp r ↔ VemndeCapCondition inp vs) := by
  obtain ⟨vs, hvs, hr⟩ := targetStakes_eq_some h
  refine ⟨vs, hvs, vemndeCapHolds_iff ?_ hcap (mul_nonneg htotal hshare) hr⟩
  intro v hv
  exact (votes_nonneg_of_mem parseVersion hvs hv).2

/-- A run without votes for the delegation strategy, or without lost votes, keeps to the
cap. -/
theorem vemndeCapHolds_of_total_le (h : targetStakes parseVersion inp = some r)
    (hcap : 0 ≤ inp.params.vemndeValidatorCap) (hshare : 0 ≤ inp.params.stakeControlVemnde)
    (htotal : 0 ≤ inp.params.totalStake)
    (hvotes : delStratVemnde inp = 0 ∨
      inp.vemndeVotes.total ≤ vemndeValidVotesTotal r.rows + delStratVemnde inp) :
    VemndeCapHolds inp r := by
  obtain ⟨vs, hvs, hr⟩ := targetStakes_eq_some h
  have hnonneg : ∀ v ∈ vs, 0 ≤ v.vemndeVotes := by
    intro v hv
    exact (votes_nonneg_of_mem parseVersion hvs hv).2
  rw [(voteCap_rows hr).2] at hvotes
  exact (vemndeCapHolds_iff hnonneg hcap (mul_nonneg htotal hshare) hr).mpr
    (vemndeCapCondition_of_total_le hnonneg hcap hvotes)

end Runs

/-! ## A run that exceeds the cap -/

section Exceeded

/-- Four validators have fifty votes each, one that is not eligible three hundred and the
delegation strategy five hundred. -/
def exceedingVotes : Votes where
  byAccount := ⟨[("MarinadeA1gorithmicDe1egationStrategy111111", 500), (account 0, 50),
    (account 1, 50), (account 2, 50), (account 3, 50), (account 500, 300)], by decide +kernel⟩
  nonneg := by simp

/-- The rows of `lossInputs`, with other votes. -/
def exceedingInputs : Inputs := { lossInputs with vemndeVotes := exceedingVotes }

theorem account_eq_iff {i j : ℕ} : account i = account j ↔ i = j :=
  ⟨account_inj, congrArg account⟩

theorem account_ne_delStrat (i : ℕ) :
    "MarinadeA1gorithmicDe1egationStrategy111111" ≠ account i := by
  intro heq
  have hmem : 'M' ∈ (account i).toList := by
    rw [← heq]
    decide
  simp [account] at hmem

theorem exceedingVotes_of (i : ℕ) :
    exceedingVotes.of (account i) = if i < 4 then 50 else if i = 500 then 300 else 0 := by
  unfold Votes.of exceedingVotes Dict.get?
  simp only [List.find?_cons, account_ne_delStrat, account_eq_iff, decide_false]
  by_cases h500 : i = 500
  · subst h500
    simp
  · by_cases hlt : i < 4
    · have hi : i = 0 ∨ i = 1 ∨ i = 2 ∨ i = 3 := by omega
      rcases hi with rfl | rfl | rfl | rfl <;> simp
    · have hne : ∀ j, j < 4 ∨ j = 500 → ¬ j = i := by omega
      simp [hlt, h500, hne]

variable {V : Type} [LinearOrder V] (parseVersion : String → V)

def exceedingVoted (i : ℕ) : VotedValidator :=
  markVotes parseVersion exceedingInputs (some 1) (lossRanked parseVersion i)

theorem votedValidators_exceeding :
    ∃ vs, votedValidators parseVersion exceedingInputs = some vs ∧
      vs.Perm (lossRows.map (exceedingVoted parseVersion)) := by
  refine ⟨voteValidators parseVersion exceedingInputs
    (rankValidators (lossRows.map (lossAlgo parseVersion))), ?_, ?_⟩
  · refine (votedValidators_eq_some_iff parseVersion).mpr
      ⟨_, scoreValidators_loss, any_blacklisted_loss, ?_⟩
    rw [List.map_map]
    rfl
  · have h := (rankValidators_loss parseVersion).map
      (markVotes parseVersion exceedingInputs (some 1))
    rw [List.map_map] at h
    unfold voteValidators
    rw [show exceedingInputs.params.marinadeValidatorsCount = 100 from rfl,
      minScoreInAlgoSet_loss]
    exact h

theorem vemndeValidVotes_exceeding {i : ℕ} (hi : i ∈ lossRows) :
    vemndeValidVotes (exceedingVoted parseVersion i) = if i < 4 then 50 else 0 := by
  have hvotes : (exceedingVoted parseVersion i).vemndeVotes =
      if i < 4 then 50 else if i = 500 then 300 else 0 := exceedingVotes_of i
  have hel : (exceedingVoted parseVersion i).eligibleStakeVemnde = decide (i < 100) := by
    show (eligible parseVersion lossInputs 10 100 (lossValidator i) &&
      !decide (lossScore i < 1 * (9 / 10))) = _
    rw [eligible_loss parseVersion hi]
    show (!decide (i = 100) && !decide ((if i < 100 then (50000 : ℚ) else 500) < 100) &&
      !decide ((if i < 100 then (1 : ℚ) else 0) < 1 * (9 / 10))) = _
    by_cases h : i < 100
    · have hlisted : i ≠ 100 := by omega
      simp [h, hlisted]
      norm_num
    · simp [h]
  unfold vemndeValidVotes
  rw [hvotes, hel]
  by_cases hlt : i < 4
  · have h100 : i < 100 := by omega
    simp only [hlt, h100, if_true, decide_true, indicator]
    exact round_of_eq (by norm_num)
  · by_cases h500 : i = 500
    · subst h500
      simp [indicator, round_zero]
    · simp [hlt, h500, round_zero]

theorem delStratVemnde_exceeding : delStratVemnde exceedingInputs = 500 := by
  show exceedingVotes.of "MarinadeA1gorithmicDe1egationStrategy111111" = 500
  simp [Votes.of, exceedingVotes, Dict.get?]

theorem otherVotesPart_exceeding : otherVotesPart exceedingInputs = 1 / 2 := by
  have htotal : exceedingInputs.vemndeVotes.total = 1000 := by
    show exceedingVotes.total = 1000
    simp [Votes.total, exceedingVotes]
    norm_num
  rw [otherVotesPart, delStratVemnde_exceeding, htotal, delStratStakeControl, if_pos (by norm_num)]
  norm_num

/-- The valid votes fit under the cap. -/
theorem exceedingVotes_fit {vs : List VotedValidator}
    (hperm : vs.Perm (lossRows.map (exceedingVoted parseVersion))) :
    vemndeValidVotesTotal vs = 200 ∧ vemndeVotedCount vs = 4 ∧
      vemndePowerCap exceedingInputs vs = 70 := by
  have hcolumn : (vs.map vemndeValidVotes).Perm
      (lossRows.map fun i => if i < 4 then 50 else 0) :=
    vemndeValidVotes_perm hperm fun i hi => vemndeValidVotes_exceeding parseVersion hi
  have htotal : vemndeValidVotesTotal vs = 200 := by
    unfold vemndeValidVotesTotal
    rw [hcolumn.sum_eq, sum_lossColumn (by omega)]
    rfl
  have hcount : vemndeVotedCount vs = 4 := by
    rw [vemndeVotedCount_eq, hcolumn.countP_eq, countP_lossColumn (by omega) (by omega)]
  refine ⟨htotal, hcount, round_of_eq ?_⟩
  rw [htotal, delStratVemnde_exceeding,
    show exceedingInputs.params.vemndeValidatorCap = 1 / 10 from rfl]
  norm_num

theorem algoScores_exceeding {vs : List VotedValidator}
    (hperm : vs.Perm (lossRows.map (exceedingVoted parseVersion))) :
    (vs.map algoScore).Perm (lossRows.map lossScore) := by
  have h := hperm.map algoScore
  rw [List.map_map] at h
  exact h.trans (List.Perm.of_eq (List.map_congr_left fun i hi => algoScore_loss parseVersion hi))

/-- The run passes the checks of the script. -/
theorem checks_exceeding {vs : List VotedValidator}
    (hperm : vs.Perm (lossRows.map (exceedingVoted parseVersion))) {r : Stakes}
    (h : stakesOf exceedingInputs vs = some r) : checks exceedingInputs r := by
  refine checks_lossRows rfl (algoScores_exceeding parseVersion hperm) ?_ h
  obtain ⟨htotal, hcount, hcap⟩ := exceedingVotes_fit parseVersion hperm
  have hvotes : ∀ v ∈ vs, 0 ≤ v.vemndeVotes := by
    intro v hv
    obtain ⟨i, _, rfl⟩ := List.mem_map.mp (hperm.subset hv)
    exact Votes.of_nonneg _ _
  have hcap₀ : 0 ≤ exceedingInputs.params.vemndeValidatorCap := lossParams_bounds.2.1
  have hover : (redistribute exceedingInputs vs).vemndeOverflow = 0 := by
    rw [redistribute_overflow hvotes hcap₀, htotal, hcount, hcap]
    decide
  have hsum : (redistribute exceedingInputs vs).vemndePower.sum = 200 := by
    rw [sum_vemndePower_redistribute hvotes hcap₀, htotal, hcount, hcap]
    decide
  have hpower : overflowPower exceedingInputs vs = 0 := by
    rw [overflowPower, vemndeOverflowPower, hsum, hover]
    norm_num
  have hcontrol : stakeControlVemnde exceedingInputs = 1 / 10 := by
    show 2 / 10 * otherVotesPart exceedingInputs = _
    rw [otherVotesPart_exceeding]
    norm_num
  have hmsol : stakeControlMsol exceedingInputs = 1 / 5 := stakeControlMsol_loss rfl rfl
  rw [hpower]
  unfold pools stakeControlAlgo
  dsimp only
  rw [hmsol, hcontrol, show exceedingInputs.params.totalStake = 4000000 from rfl]
  split <;> norm_num

/-- Each of the four gets an eighth of the configured veMNDE stake. -/
theorem not_vemndeCapCondition_exceeding {vs : List VotedValidator}
    (hperm : vs.Perm (lossRows.map (exceedingVoted parseVersion))) :
    ¬ VemndeCapCondition exceedingInputs vs := by
  have h₀ : 0 ∈ lossRows := mem_lossRows.mpr (by omega)
  obtain ⟨htotal, hcount, hcap⟩ := exceedingVotes_fit parseVersion hperm
  have hrounding : voteCapRounding exceedingInputs vs = 0 := by
    rw [voteCapRounding, hcap, htotal, delStratVemnde_exceeding,
      show exceedingInputs.params.vemndeValidatorCap = 1 / 10 from rfl]
    norm_num
  rintro (hzero | hzero | hall)
  · exact absurd hzero (show (4000000 : ℚ) ≠ 0 by norm_num)
  · exact absurd hzero (show (2 / 10 : ℚ) ≠ 0 by norm_num)
  · have hfirst := hall _ (hperm.symm.subset (List.mem_map_of_mem h₀))
    rw [vemndeValidVotes_exceeding parseVersion h₀, hrounding, otherVotesPart_exceeding, htotal,
      hcount, hcap, show exceedingInputs.params.vemndeValidatorCap = 1 / 10 from rfl] at hfirst
    norm_num at hfirst

theorem exists_targetStakes_exceeding :
    ∃ vs r, vs.Perm (lossRows.map (exceedingVoted parseVersion)) ∧
      votedValidators parseVersion exceedingInputs = some vs ∧
      stakesOf exceedingInputs vs = some r ∧
      targetStakes parseVersion exceedingInputs = some r := by
  obtain ⟨vs, hvs, hperm⟩ := votedValidators_exceeding parseVersion
  have hscore : algoScoreTotal vs = 100 := by
    unfold algoScoreTotal
    rw [(algoScores_exceeding parseVersion hperm).sum_eq, sum_lossScore]
  obtain ⟨r, hr⟩ : ∃ r, stakesOf exceedingInputs vs = some r :=
    exists_stakesOf (by rw [hscore]; norm_num)
  exact ⟨vs, r, hperm, hvs, hr, Option.bind_eq_some_iff.mpr ⟨vs, hvs, hr⟩⟩

/-- A run that passes all checks and gives a validator 100000 where the cap is 80000. -/
theorem targetStakes_exceeds_cap :
    ¬ ∀ inp : Inputs, 0 ≤ inp.params.vemndeValidatorCap → 0 ≤ inp.params.stakeControlVemnde →
      0 ≤ inp.params.totalStake → ∀ r, targetStakes (fun _ => 0 : String → ℕ) inp = some r →
        checks inp r → VemndeCapHolds inp r := by
  intro hall
  obtain ⟨vs, r, hperm, hvs, hr, hrun⟩ := exists_targetStakes_exceeding (fun _ => 0 : String → ℕ)
  obtain ⟨htotal, hcap, -, hvemnde, -⟩ := lossParams_bounds
  have hholds := hall exceedingInputs hcap hvemnde htotal r hrun (checks_exceeding _ hperm hr)
  have hvotes : ∀ v ∈ vs, 0 ≤ v.vemndeVotes := by
    intro v hv
    exact (votes_nonneg_of_mem _ hvs hv).2
  exact not_vemndeCapCondition_exceeding _ hperm
    ((vemndeCapHolds_iff hvotes hcap (mul_nonneg htotal hvemnde) hr).mp hholds)

/-- What the condition says of that run. -/
theorem targetStakes_vemndeCap_iff_exceeding :
    ∃ vs r, targetStakes (fun _ => 0 : String → ℕ) exceedingInputs = some r ∧
      (VemndeCapHolds exceedingInputs r ↔ VemndeCapCondition exceedingInputs vs) := by
  obtain ⟨vs, r, -, hvs, hr, hrun⟩ := exists_targetStakes_exceeding (fun _ => 0 : String → ℕ)
  obtain ⟨htotal, hcap, -, hvemnde, -⟩ := lossParams_bounds
  obtain ⟨vs', -, hiff⟩ := targetStakes_vemndeCap_iff hrun hcap hvemnde htotal
  exact ⟨vs', r, hrun, hiff⟩

end Exceeded

end DelegationStrategy.Scoring
