import DelegationStrategy.Scoring.Overflow

/-!
# The overflow loop, iteration by iteration

`Scoring.Overflow` says what the loop of the script leaves. Here is what holds while it
runs, for any valid votes and any cap (`LoopInvariant`): power and overflow add up to the
votes, the overflow is not negative, no power exceeds the cap. An iteration keeps it and
takes power from nobody (`overflowStep_keeps`), so every number of iterations does
(`overflowLoop_keeps`).

When the loop ends, votes are left over only if everyone with votes is at the cap
(`overflowLoop_correct`). The script runs this loop on the valid votes of its validators
(`redistribute_eq_afterIterations`).
-/

namespace DelegationStrategy.Scoring

open DelegationStrategy.Lib

/-- The sorted column of capped votes, and what the cap truncated. -/
def startState (validVotes : List ℤ) (cap : ℤ) : OverflowState :=
  let vemndePower := validVotes.map fun n => min n cap
  { vemndePower := vemndePower.insertionSort (· ≥ ·)
    vemndeOverflow := validVotes.sum - vemndePower.sum }

/-- The state after `k` iterations, or fewer if the loop breaks before. -/
def afterIterations (validVotes : List ℤ) (cap : ℤ) (k : ℕ) : OverflowState :=
  overflowLoop cap k 0 (startState validVotes cap)

/-! ## One iteration -/

/-- What holds of the state when the loop is at index `v`. -/
structure LoopInvariant (cap total : ℤ) (s : OverflowState) : Prop where
  sum : s.vemndePower.sum + s.vemndeOverflow = total
  overflow_nonneg : 0 ≤ s.vemndeOverflow
  power_nonneg : ∀ p ∈ s.vemndePower, 0 ≤ p
  power_le : ∀ p ∈ s.vemndePower, p ≤ cap

section Step

variable {cap total : ℤ} {v : ℕ} {s s' : OverflowState}

/-- Behind the last row no weight is left. -/
theorem sum_movingWeights_of_le {power : List ℤ} (h : power.length ≤ v) :
    (movingWeights v power).sum = 0 := by
  refine List.sum_eq_zero ?_
  intro q hq
  obtain ⟨i, hi, rfl⟩ := List.mem_mapIdx.mp hq
  exact if_neg (by omega)

/-- An iteration that does not break has a row at its index, and only this row changes. -/
theorem overflowStep_inv (h : overflowStep cap v s = some s') :
    ∃ served p ps, s.vemndePower = served ++ p :: ps ∧ (p :: ps).sum ≠ 0 ∧
      s' = ⟨served ++ (p + increase round cap s.vemndeOverflow p (p :: ps).sum) :: ps,
        s.vemndeOverflow - increase round cap s.vemndeOverflow p (p :: ps).sum⟩ := by
  obtain ⟨power, overflow⟩ := s
  by_cases hv : v < power.length
  · obtain ⟨served, p, ps, rfl, rfl⟩ : ∃ served p ps,
        power = served ++ p :: ps ∧ v = served.length :=
      ⟨power.take v, power[v], power.drop (v + 1), by simp, by simp; omega⟩
    rw [overflowStep_append] at h
    split at h
    · cases h
    · rename_i hsum
      exact ⟨served, p, ps, rfl, hsum, (Option.some.inj h).symm⟩
  · have hnone : overflowStep cap v ⟨power, overflow⟩ = none :=
      if_pos (sum_movingWeights_of_le (Nat.not_lt.mp hv))
    rw [hnone] at h
    cases h

/-- **An iteration** keeps the invariant and takes power from nobody. -/
theorem overflowStep_keeps (hinv : LoopInvariant cap total s)
    (h : overflowStep cap v s = some s') :
    LoopInvariant cap total s' ∧ List.Forall₂ (· ≤ ·) s.vemndePower s'.vemndePower := by
  obtain ⟨served, p, ps, hpower, hsum, rfl⟩ := overflowStep_inv h
  obtain ⟨htotal, hoverflow, hnonneg, hle⟩ := hinv
  rw [hpower] at htotal hnonneg hle ⊢
  have hp₀ : 0 ≤ p := hnonneg p (by simp)
  have hpc : p ≤ cap := hle p (by simp)
  have hps : 0 ≤ ps.sum := by
    refine List.sum_nonneg ?_
    intro q hq
    exact hnonneg q (by simp [hq])
  have hmore₀ := increase_nonneg isRounding_round hoverflow hp₀ hpc hps
  rw [List.sum_cons] at hsum ⊢
  have hweights : 0 < p + ps.sum := by omega
  have hmore := increase_le_overflow cap isRounding_round hweights hps hoverflow
  have hroom : increase round cap s.vemndeOverflow p (p + ps.sum) ≤ cap - p := min_le_right _ _
  generalize increase round cap s.vemndeOverflow p (p + ps.sum) = more at hmore₀ hmore hroom ⊢
  refine ⟨⟨?sum, ?overflow, ?nonneg, ?le⟩, ?grows⟩
  case sum =>
    simp only [List.sum_append, List.sum_cons] at htotal ⊢
    omega
  case overflow =>
    show 0 ≤ s.vemndeOverflow - more
    omega
  case nonneg =>
    intro q hq
    simp only [List.mem_append, List.mem_cons] at hq
    rcases hq with hq | rfl | hq
    · exact hnonneg q (by simp [hq])
    · omega
    · exact hnonneg q (by simp [hq])
  case le =>
    intro q hq
    simp only [List.mem_append, List.mem_cons] at hq
    rcases hq with hq | rfl | hq
    · exact hle q (by simp [hq])
    · omega
    · exact hle q (by simp [hq])
  case grows =>
    exact List.rel_append (List.forall₂_refl served)
      (List.Forall₂.cons (by omega) (List.forall₂_refl ps))

end Step

/-! ## The run -/

section Run

variable {cap total : ℤ} {s : OverflowState}

/-- **Any number of iterations** keeps the invariant. -/
theorem overflowLoop_keeps (hinv : LoopInvariant cap total s) (k v : ℕ) :
    LoopInvariant cap total (overflowLoop cap k v s) := by
  induction k generalizing v s with
  | zero => exact hinv
  | succ k ih =>
    rw [overflowLoop]
    cases hstep : overflowStep cap v s with
    | none => exact hinv
    | some s' => exact ih (overflowStep_keeps hinv hstep).1 (v + 1)

/-- One more iteration takes power from nobody. -/
theorem overflowLoop_grows (hinv : LoopInvariant cap total s) (k v : ℕ) :
    List.Forall₂ (· ≤ ·) (overflowLoop cap k v s).vemndePower
      (overflowLoop cap (k + 1) v s).vemndePower := by
  induction k generalizing v s with
  | zero =>
    rw [overflowLoop, overflowLoop]
    cases hstep : overflowStep cap v s with
    | none => exact List.forall₂_refl _
    | some s' => exact (overflowStep_keeps hinv hstep).2
  | succ k ih =>
    rw [overflowLoop, overflowLoop]
    cases hstep : overflowStep cap v s with
    | none => exact List.forall₂_refl _
    | some s' => exact ih (overflowStep_keeps hinv hstep).1 (v + 1)

end Run

/-! ## From any votes -/

section Votes

variable {validVotes : List ℤ} {cap : ℤ}

theorem startState_perm (validVotes : List ℤ) (cap : ℤ) :
    (startState validVotes cap).vemndePower.Perm (validVotes.map fun n => min n cap) :=
  List.perm_insertionSort _ _

theorem length_startState (validVotes : List ℤ) (cap : ℤ) :
    (startState validVotes cap).vemndePower.length = validVotes.length := by
  rw [(startState_perm validVotes cap).length_eq, List.length_map]

/-- The loop starts with the invariant. -/
theorem loopInvariant_startState (hvotes : ∀ n ∈ validVotes, 0 ≤ n) (hcap : 0 ≤ cap) :
    LoopInvariant cap validVotes.sum (startState validVotes cap) := by
  have hmem : ∀ p ∈ (startState validVotes cap).vemndePower, 0 ≤ p ∧ p ≤ cap := by
    intro p hp
    obtain ⟨n, hn, rfl⟩ := List.mem_map.mp ((startState_perm validVotes cap).subset hp)
    exact ⟨le_min (hvotes n hn) hcap, min_le_right n cap⟩
  refine ⟨?sum, ?overflow, fun p hp => (hmem p hp).1, fun p hp => (hmem p hp).2⟩
  case sum =>
    rw [(startState_perm validVotes cap).sum_eq]
    simp [startState]
  case overflow =>
    have hle : (validVotes.map fun n => min n cap).sum ≤ (validVotes.map fun n => n).sum :=
      List.sum_le_sum fun n _ => min_le_left n cap
    rw [List.map_id'] at hle
    show 0 ≤ validVotes.sum - (validVotes.map fun n => min n cap).sum
    omega

/-- After an iteration for each row the loop has ended: it is the pass `distribute`. -/
theorem afterIterations_length :
    afterIterations validVotes cap validVotes.length =
      ⟨(distribute round cap (startState validVotes cap).vemndeOverflow
          (startState validVotes cap).vemndePower).1,
        (distribute round cap (startState validVotes cap).vemndeOverflow
          (startState validVotes cap).vemndePower).2⟩ := by
  rw [afterIterations, ← length_startState validVotes cap]
  exact overflowLoop_eq_distribute [] (startState validVotes cap).vemndePower

/-- **The loop is correct**: at every iteration power and overflow add up to the valid
votes, the overflow is not negative and no power decreases or exceeds the cap; at the end
no vote is left, or everyone who had power is at the cap. -/
theorem overflowLoop_correct (validVotes : List ℤ) (cap : ℤ)
    (hvotes : ∀ n ∈ validVotes, 0 ≤ n) (hcap : 0 ≤ cap) :
    (∀ k,
      let s := afterIterations validVotes cap k
      s.vemndePower.sum + s.vemndeOverflow = validVotes.sum ∧ 0 ≤ s.vemndeOverflow ∧
        (∀ p ∈ s.vemndePower, p ≤ cap) ∧
        List.Forall₂ (· ≤ ·) s.vemndePower
          (afterIterations validVotes cap (k + 1)).vemndePower) ∧
      let final := afterIterations validVotes cap validVotes.length
      final.vemndeOverflow = 0 ∨
        List.Forall₂ (fun p q => 0 < p → q = cap) (startState validVotes cap).vemndePower
          final.vemndePower := by
  have hstart := loopInvariant_startState hvotes hcap
  constructor
  · intro k
    have hinv := overflowLoop_keeps hstart k 0
    exact ⟨hinv.sum, hinv.overflow_nonneg, hinv.power_le, overflowLoop_grows hstart k 0⟩
  · have hdesc : (startState validVotes cap).vemndePower.Pairwise (· ≥ ·) :=
      List.pairwise_insertionSort _ _
    dsimp only
    rw [afterIterations_length]
    rcases le_total (room cap (startState validVotes cap).vemndePower)
      (startState validVotes cap).vemndeOverflow with hfull | hfits
    · right
      exact distribute_full isRounding_round hdesc hstart.power_nonneg hstart.power_le hfull
    · left
      show (distribute _ _ _ _).2 = 0
      rw [distribute_overflow isRounding_round hdesc hstart.power_nonneg hstart.power_le
        hstart.overflow_nonneg]
      omega

/-- Nine hundred votes and fifty at a cap of hundred: both end at the cap. -/
theorem overflowLoop_correct_two :
    (startState [50, 900, 0] 100).vemndePower = [100, 50, 0] ∧
      (afterIterations [50, 900, 0] 100 3).vemndeOverflow = 750 ∧
      List.Forall₂ (fun p q => 0 < p → q = 100) (startState [50, 900, 0] 100).vemndePower
        (afterIterations [50, 900, 0] 100 3).vemndePower := by
  have hoverflow : (afterIterations [50, 900, 0] 100 3).vemndeOverflow = 750 := by
    decide +kernel
  refine ⟨by decide, hoverflow, ?_⟩
  rcases (overflowLoop_correct [50, 900, 0] 100 (by decide) (by decide)).2 with hzero | hfull
  · exact absurd (hoverflow.symm.trans hzero) (by decide)
  · exact hfull

/-- The script runs the loop on the valid votes of its validators. -/
theorem redistribute_eq_afterIterations (inp : Inputs) (vs : List VotedValidator) :
    redistribute inp vs =
      afterIterations (vs.map vemndeValidVotes) (vemndePowerCap inp vs) vs.length := by
  have hcolumn : powerColumn inp vs =
      (startState (vs.map vemndeValidVotes) (vemndePowerCap inp vs)).vemndePower := by
    refine List.Perm.eq_of_pairwise' (powerColumn_pairwise inp vs)
      (List.pairwise_insertionSort _ _) ?_
    refine (powerColumn_perm inp vs).trans ?_
    have hperm := startState_perm (vs.map vemndeValidVotes) (vemndePowerCap inp vs)
    rw [List.map_map] at hperm
    exact hperm.symm
  have hoverflow : vemndeOverflow inp vs =
      (startState (vs.map vemndeValidVotes) (vemndePowerCap inp vs)).vemndeOverflow := by
    simp [vemndeOverflow, startState, vemndeValidVotesTotal, Function.comp_def]
  rw [redistribute_eq, hcolumn, hoverflow, ← afterIterations_length, List.length_map]

end Votes

end DelegationStrategy.Scoring
