import DelegationStrategy.Scoring.Targets

/-!
# What the overflow loop leaves

The loop of the script is the pass `distribute` over the column of powers, so the
facts of `Lib.WaterFill` hold of it: no vote is lost (`redistribute_sum`), and
what it cannot hand out is what exceeds the cap of everyone who has votes
(`redistribute_overflow`).
-/

namespace DelegationStrategy.Scoring

open DelegationStrategy.Lib

/-! ## The loop is a pass -/

section Loop

variable {cap overflow : ℤ} (served ps : List ℤ)

theorem mapIdx_snd (l : List ℤ) : (l.mapIdx fun _ p => p) = l :=
  List.ext_getElem (by simp) fun _ _ _ => by simp

/-- With the first `served` rows behind the index, only the others weigh. -/
theorem movingWeights_append :
    movingWeights served.length (served ++ ps) = List.replicate served.length 0 ++ ps := by
  unfold movingWeights
  rw [List.mapIdx_append]
  congr 1
  · refine List.ext_getElem (by simp) fun i h₁ h₂ => ?_
    have hi : ¬ served.length ≤ i := by simpa using h₂
    rw [List.getElem_mapIdx, if_neg hi, List.getElem_replicate]
  · simp [mapIdx_snd]

/-- Only the row at the index changes. -/
theorem mapIdx_add_append (p more : ℤ) :
    ((served ++ p :: ps).mapIdx fun i q => q + if i = served.length then more else 0) =
      served ++ (p + more) :: ps := by
  rw [List.mapIdx_append]
  congr 1
  · refine List.ext_getElem (by simp) fun i h₁ h₂ => ?_
    rw [List.getElem_mapIdx, if_neg (Nat.ne_of_lt h₂), add_zero]
  · simp [List.mapIdx_cons, mapIdx_snd]

theorem overflowStep_append (p : ℤ) :
    overflowStep cap served.length ⟨served ++ p :: ps, overflow⟩ =
      if (p :: ps).sum = 0 then none
      else some
        ⟨served ++ (p + increase round cap overflow p (p :: ps).sum) :: ps,
          overflow - increase round cap overflow p (p :: ps).sum⟩ := by
  unfold overflowStep
  dsimp only
  have hsum : (movingWeights served.length (served ++ p :: ps)).sum = (p :: ps).sum := by
    rw [movingWeights_append]
    simp
  have hhead : (movingWeights served.length (served ++ p :: ps)).getD served.length 0 = p := by
    rw [movingWeights_append]
    simp
  rw [hsum, hhead, mapIdx_add_append]

/-- The iterations that are left are the pass over the weights that are left. -/
theorem overflowLoop_eq_distribute :
    overflowLoop cap ps.length served.length ⟨served ++ ps, overflow⟩ =
      ⟨served ++ (distribute round cap overflow ps).1,
        (distribute round cap overflow ps).2⟩ := by
  induction ps generalizing served overflow with
  | nil => rfl
  | cons p ps ih =>
    rw [List.length_cons, overflowLoop, overflowStep_append]
    by_cases h : (p :: ps).sum = 0
    · rw [if_pos h, distribute_of_sum_eq_zero h]
    · rw [if_neg h, distribute_cons h]
      have hnext := @ih (overflow - increase round cap overflow p (p :: ps).sum)
        (served ++ [p + increase round cap overflow p (p :: ps).sum])
      rw [List.length_append, List.append_assoc, List.append_assoc] at hnext
      exact hnext

end Loop

/-! ## The column before the loop -/

section Column

variable {inp : Inputs} {vs : List VotedValidator}

/-- The column of powers that the loop starts from. -/
def powerColumn (inp : Inputs) (vs : List VotedValidator) : List ℤ :=
  (powerValidators inp vs).map (·.vemndePower)

theorem powerValidators_perm (inp : Inputs) (vs : List VotedValidator) :
    (powerValidators inp vs).Perm
      (vs.map (powerValidator (msolValidVotesTotal vs) (vemndePowerCap inp vs))) :=
  List.perm_insertionSort _ _

theorem powerColumn_perm (inp : Inputs) (vs : List VotedValidator) :
    (powerColumn inp vs).Perm
      (vs.map fun v => min (vemndeValidVotes v) (vemndePowerCap inp vs)) := by
  have h := (powerValidators_perm inp vs).map (·.vemndePower)
  rw [List.map_map] at h
  exact h

theorem powerColumn_pairwise (inp : Inputs) (vs : List VotedValidator) :
    (powerColumn inp vs).Pairwise (· ≥ ·) := by
  unfold powerColumn powerValidators
  rw [List.pairwise_map]
  exact List.pairwise_insertionSort _ _

theorem vemndeOverflow_nonneg (inp : Inputs) (vs : List VotedValidator) :
    0 ≤ vemndeOverflow inp vs := by
  have hle : (vs.map fun v => min (vemndeValidVotes v) (vemndePowerCap inp vs)).sum ≤
      vemndeValidVotesTotal vs :=
    List.sum_le_sum fun v _ => min_le_left _ _
  unfold vemndeOverflow
  omega

theorem redistribute_eq (inp : Inputs) (vs : List VotedValidator) :
    redistribute inp vs =
      ⟨(distribute round (vemndePowerCap inp vs) (vemndeOverflow inp vs)
          (powerColumn inp vs)).1,
        (distribute round (vemndePowerCap inp vs) (vemndeOverflow inp vs)
          (powerColumn inp vs)).2⟩ :=
  overflowLoop_eq_distribute [] (powerColumn inp vs)

/-- Power and overflow add up to the valid votes, before the loop and after it. -/
theorem redistribute_sum (inp : Inputs) (vs : List VotedValidator) :
    (redistribute inp vs).vemndePower.sum + (redistribute inp vs).vemndeOverflow =
      vemndeValidVotesTotal vs := by
  rw [redistribute_eq]
  show (distribute _ _ _ _).1.sum + (distribute _ _ _ _).2 = _
  rw [sum_distribute, (powerColumn_perm inp vs).sum_eq]
  show _ + (_ - _) = _
  omega

theorem length_redistribute (inp : Inputs) (vs : List VotedValidator) :
    (redistribute inp vs).vemndePower.length = (powerValidators inp vs).length := by
  rw [redistribute_eq]
  show (distribute _ _ _ _).1.length = _
  rw [length_distribute, powerColumn, List.length_map]

/-! ## What is left after the loop -/

/-- How many validators have valid votes. -/
def vemndeVotedCount (vs : List VotedValidator) : ℕ :=
  vs.countP fun v => 0 < vemndeValidVotes v

theorem vemndeVotedCount_eq (vs : List VotedValidator) :
    vemndeVotedCount vs = (vs.map vemndeValidVotes).countP (fun n => 0 < n) := by
  rw [List.countP_map]
  rfl

theorem vemndeValidVotes_nonneg {v : VotedValidator} (h : 0 ≤ v.vemndeVotes) :
    0 ≤ vemndeValidVotes v := by
  apply isRounding_round.round_nonneg
  unfold indicator
  by_cases he : v.eligibleStakeVemnde = true
  · rwa [if_pos he, mul_one]
  · rw [if_neg he, mul_zero]

/-- Under a positive cap, whoever has valid votes has power. -/
theorem powerColumn_countP (hcap : 0 < vemndePowerCap inp vs) :
    (powerColumn inp vs).countP (fun p => 0 < p) = vemndeVotedCount vs := by
  rw [(powerColumn_perm inp vs).countP_eq, List.countP_map]
  refine List.countP_congr fun v _ => ?_
  simp [hcap]

variable (hvotes : ∀ v ∈ vs, 0 ≤ v.vemndeVotes)

include hvotes

theorem vemndeValidVotesTotal_nonneg : 0 ≤ vemndeValidVotesTotal vs := by
  refine List.sum_nonneg fun n h => ?_
  obtain ⟨v, hv, rfl⟩ := List.mem_map.mp h
  exact vemndeValidVotes_nonneg (hvotes v hv)

theorem vemndePowerCap_nonneg (hcap : 0 ≤ inp.params.vemndeValidatorCap) :
    0 ≤ vemndePowerCap inp vs := by
  apply isRounding_round.round_nonneg
  have htotal : (0 : ℚ) ≤ vemndeValidVotesTotal vs := by
    exact_mod_cast vemndeValidVotesTotal_nonneg hvotes
  exact mul_nonneg (add_nonneg htotal (Votes.of_nonneg _ _)) hcap

theorem powerColumn_bounds (hcap : 0 ≤ inp.params.vemndeValidatorCap) :
    ∀ p ∈ powerColumn inp vs, 0 ≤ p ∧ p ≤ vemndePowerCap inp vs := by
  intro p hp
  obtain ⟨v, hv, rfl⟩ := List.mem_map.mp ((powerColumn_perm inp vs).subset hp)
  exact ⟨le_min (vemndeValidVotes_nonneg (hvotes v hv)) (vemndePowerCap_nonneg hvotes hcap),
    min_le_right _ _⟩

/-- The room at the start, with what the cap truncated: what all the validators
with valid votes could have had. -/
theorem vemndeOverflow_sub_room (hcap : 0 ≤ inp.params.vemndeValidatorCap) :
    vemndeOverflow inp vs - room (vemndePowerCap inp vs) (powerColumn inp vs) =
      vemndeValidVotesTotal vs - vemndeVotedCount vs * vemndePowerCap inp vs := by
  have hsum : (powerColumn inp vs).sum =
      (vs.map fun v => min (vemndeValidVotes v) (vemndePowerCap inp vs)).sum :=
    (powerColumn_perm inp vs).sum_eq
  have hcount : ((powerColumn inp vs).countP (fun p => 0 < p) : ℤ) * vemndePowerCap inp vs =
      vemndeVotedCount vs * vemndePowerCap inp vs := by
    rcases (vemndePowerCap_nonneg hvotes hcap).eq_or_lt with hzero | hpos
    · rw [← hzero, mul_zero, mul_zero]
    · rw [powerColumn_countP hpos]
  unfold vemndeOverflow room
  rw [hcount, hsum]
  omega

/-- What the loop leaves is what exceeds the cap of all who have valid votes. -/
theorem redistribute_overflow (hcap : 0 ≤ inp.params.vemndeValidatorCap) :
    (redistribute inp vs).vemndeOverflow =
      max 0 (vemndeValidVotesTotal vs - vemndeVotedCount vs * vemndePowerCap inp vs) := by
  have hbounds := powerColumn_bounds hvotes hcap
  rw [redistribute_eq]
  show (distribute _ _ _ _).2 = _
  rw [distribute_overflow isRounding_round (powerColumn_pairwise inp vs)
    (fun p hp => (hbounds p hp).1) (fun p hp => (hbounds p hp).2)
    (vemndeOverflow_nonneg inp vs), vemndeOverflow_sub_room hvotes hcap]

end Column

end DelegationStrategy.Scoring
