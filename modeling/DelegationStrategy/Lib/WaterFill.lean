import DelegationStrategy.Lib.Rounding
import Mathlib.Tactic.Linarith
import Mathlib.Tactic.Ring

/-!
# Spreading an overflow over capped weights

Weights are capped, and what the cap cut off (the overflow) is handed out again
in one pass, from the largest weight to the smallest: each gets the share of the
remaining overflow that its weight has in the remaining weights, rounded, and no
more than the cap leaves room for. The pass ends early when no weight is left.

- `distribute`: the pass, by recursion on the weights still to be served.
- `room`: what the positive weights can still take before all are at the cap.

The result of `distribute_overflow` is that rounding strands nothing: what is
left over is exactly what exceeds the room. The order matters for it. The
largest weight has the least room, so as long as the rest has too little room
for the remainder, the proportional share fills the head completely
(`sub_mul_sum_le_mul_room`).
-/

namespace DelegationStrategy.Lib

universe u

variable {K : Type u} [Field K]

/-- The increase of the weight `p` when the remaining weights sum to `w`. -/
def increase (round : K → ℤ) (cap overflow p w : ℤ) : ℤ :=
  min (round (((overflow * p : ℤ) : K) / w)) (cap - p)

/-- The weights after the pass, and the overflow that is left. -/
def distribute (round : K → ℤ) (cap : ℤ) : ℤ → List ℤ → List ℤ × ℤ
  | overflow, [] => ([], overflow)
  | overflow, p :: ps =>
    if (p :: ps).sum = 0 then (p :: ps, overflow)
    else
      let more := increase round cap overflow p (p :: ps).sum
      let rest := distribute round cap (overflow - more) ps
      ((p + more) :: rest.1, rest.2)

/-- What the positive weights may still take. -/
def room (cap : ℤ) (ps : List ℤ) : ℤ :=
  ps.countP (fun p => 0 < p) * cap - ps.sum

variable {round : K → ℤ} {cap overflow : ℤ}

theorem distribute_of_sum_eq_zero {ps : List ℤ} (h : ps.sum = 0) :
    distribute round cap overflow ps = (ps, overflow) := by
  cases ps with
  | nil => rfl
  | cons p ps => rw [distribute, if_pos h]

theorem distribute_cons {p : ℤ} {ps : List ℤ} (h : (p :: ps).sum ≠ 0) :
    distribute round cap overflow (p :: ps) =
      ((p + increase round cap overflow p (p :: ps).sum) ::
          (distribute round cap
            (overflow - increase round cap overflow p (p :: ps).sum) ps).1,
        (distribute round cap
          (overflow - increase round cap overflow p (p :: ps).sum) ps).2) := by
  rw [distribute, if_neg h]

/-- What a weight gains, the overflow loses. -/
theorem sum_distribute (ps : List ℤ) :
    (distribute round cap overflow ps).1.sum + (distribute round cap overflow ps).2 =
      ps.sum + overflow := by
  induction ps generalizing overflow with
  | nil => rfl
  | cons p ps ih =>
    by_cases h : (p :: ps).sum = 0
    · rw [distribute_of_sum_eq_zero h]
    · rw [distribute_cons h, List.sum_cons, List.sum_cons]
      have := @ih (overflow - increase round cap overflow p (p :: ps).sum)
      rw [List.sum_cons] at this
      omega

theorem length_distribute (ps : List ℤ) :
    (distribute round cap overflow ps).1.length = ps.length := by
  induction ps generalizing overflow with
  | nil => rfl
  | cons p ps ih =>
    by_cases h : (p :: ps).sum = 0
    · rw [distribute_of_sum_eq_zero h]
    · rw [distribute_cons h, List.length_cons, ih, List.length_cons]

/-- **Row rule**: the pass keeps a weight or increases it once, so a relation that
allows both holds between every weight and what it becomes. -/
theorem forall₂_distribute {R : ℤ → ℤ → Prop} (hkeep : ∀ p, R p p)
    (hincrease : ∀ overflow p w, R p (p + increase round cap overflow p w)) (ps : List ℤ) :
    List.Forall₂ R ps (distribute round cap overflow ps).1 := by
  induction ps generalizing overflow with
  | nil => exact List.Forall₂.nil
  | cons p ps ih =>
    by_cases h : (p :: ps).sum = 0
    · rw [distribute_of_sum_eq_zero h]
      exact List.forall₂_same.mpr fun q _ => hkeep q
    · rw [distribute_cons h]
      exact List.Forall₂.cons (hincrease _ _ _) ih

/-- The pass lifts no weight above the cap. -/
theorem distribute_le {ps : List ℤ} (h : ∀ p ∈ ps, p ≤ cap) :
    ∀ q ∈ (distribute round cap overflow ps).1, q ≤ cap := by
  have hrows : List.Forall₂ (fun p q => p ≤ cap → q ≤ cap) ps
      (distribute round cap overflow ps).1 := by
    refine forall₂_distribute (fun _ h => h) (fun overflow p w _ => ?_) ps
    have hroom : increase round cap overflow p w ≤ cap - p := min_le_right _ _
    omega
  intro q hq
  obtain ⟨i, hi, rfl⟩ := List.mem_iff_getElem.mp hq
  have hi' : i < ps.length := by rwa [hrows.length_eq]
  exact hrows.get hi' hi (h _ (List.getElem_mem hi'))

/-- A weight of zero takes no part in the pass. -/
theorem forall₂_distribute_zero (hround : round 0 = 0) (hcap : 0 ≤ cap) (ps : List ℤ) :
    List.Forall₂ (fun p q => p = 0 → q = 0) ps (distribute round cap overflow ps).1 := by
  refine forall₂_distribute (fun _ h => h) (fun overflow p w h => ?_) ps
  subst h
  unfold increase
  rw [mul_zero, Int.cast_zero, zero_div, hround, sub_zero, zero_add, min_eq_left hcap]

/-- Without an overflow the pass changes nothing. -/
theorem distribute_zero (hround : round 0 = 0) {ps : List ℤ} (hcap : ∀ p ∈ ps, p ≤ cap) :
    distribute round cap 0 ps = (ps, 0) := by
  induction ps with
  | nil => rfl
  | cons p ps ih =>
    by_cases h : (p :: ps).sum = 0
    · rw [distribute_of_sum_eq_zero h]
    · have hmore : increase round cap 0 p (p :: ps).sum = 0 := by
        have hp : p ≤ cap := hcap p List.mem_cons_self
        unfold increase
        rw [zero_mul, Int.cast_zero, zero_div, hround]
        omega
      have hrest := ih fun q hq => hcap q (List.mem_cons_of_mem _ hq)
      rw [distribute_cons h, hmore, sub_zero, hrest, add_zero]

/-! ## Room -/

theorem room_cons_pos {p : ℤ} (hp : 0 < p) (ps : List ℤ) :
    room cap (p :: ps) = cap - p + room cap ps := by
  unfold room
  rw [List.countP_cons_of_pos (by simpa using hp), List.sum_cons]
  push_cast
  ring

theorem room_cons_zero (ps : List ℤ) : room cap (0 :: ps) = room cap ps := by
  unfold room
  rw [List.countP_cons_of_neg (by simp), List.sum_cons, zero_add]

/-- Weights that sum to zero have no room: none is positive. -/
theorem room_of_sum_eq_zero {ps : List ℤ} (h₀ : ∀ p ∈ ps, 0 ≤ p) (h : ps.sum = 0) :
    room cap ps = 0 := by
  induction ps with
  | nil => simp [room]
  | cons p ps ih =>
    have hp : 0 ≤ p := h₀ p List.mem_cons_self
    have hps : ∀ q ∈ ps, 0 ≤ q := fun q hq => h₀ q (List.mem_cons_of_mem _ hq)
    have hsum : 0 ≤ ps.sum := List.sum_nonneg hps
    rw [List.sum_cons] at h
    obtain rfl : p = 0 := by omega
    rw [room_cons_zero]
    exact ih hps (by omega)

/-- Below a weight `p` the room for each unit of weight is at least that of `p`. -/
theorem sub_mul_sum_le_mul_room {p : ℤ} {ps : List ℤ} (hp : 0 ≤ p) (hpc : p ≤ cap)
    (h₀ : ∀ q ∈ ps, 0 ≤ q) (hle : ∀ q ∈ ps, q ≤ p) :
    (cap - p) * ps.sum ≤ p * room cap ps := by
  induction ps with
  | nil => simp [room]
  | cons q ps ih =>
    have hrest := ih (fun r hr => h₀ r (List.mem_cons_of_mem _ hr))
      (fun r hr => hle r (List.mem_cons_of_mem _ hr))
    have hq : 0 ≤ q := h₀ q List.mem_cons_self
    rw [List.sum_cons]
    by_cases hpos : 0 < q
    · -- `q ≤ p` gives `(cap - p) * q ≤ p * (cap - q)`
      have hqp : cap * q ≤ cap * p :=
        mul_le_mul_of_nonneg_left (hle q List.mem_cons_self) (hp.trans hpc)
      rw [room_cons_pos hpos]
      linarith
    · obtain rfl : q = 0 := by omega
      rw [room_cons_zero, zero_add]
      exact hrest

/-! ## One step -/

variable [LinearOrder K] [IsStrictOrderedRing K] {ps : List ℤ}

/-- A step never hands out more than there is. -/
theorem increase_le_overflow {p : ℤ} (cap : ℤ) (hr : IsRounding round) (hw : 0 < p + ps.sum)
    (hps : 0 ≤ ps.sum) (ho : 0 ≤ overflow) :
    increase round cap overflow p (p + ps.sum) ≤ overflow := by
  have hround : round (((overflow * p : ℤ) : K) / ((p + ps.sum : ℤ) : K)) ≤ overflow := by
    apply hr.round_div_le hw
    exact mul_le_mul_of_nonneg_left (by omega) ho
  exact (min_le_left _ _).trans hround

/-- A step takes nothing away. -/
theorem increase_nonneg {p : ℤ} (hr : IsRounding round) (ho : 0 ≤ overflow) (hp : 0 ≤ p)
    (hpc : p ≤ cap) (hps : 0 ≤ ps.sum) :
    0 ≤ increase round cap overflow p (p + ps.sum) := by
  have hquotient : (0 : K) ≤ ((overflow * p : ℤ) : K) / ((p + ps.sum : ℤ) : K) := by
    have hnum : 0 ≤ overflow * p := mul_nonneg ho hp
    have hden : 0 ≤ p + ps.sum := by omega
    exact div_nonneg (by exact_mod_cast hnum) (by exact_mod_cast hden)
  exact le_min (hr.round_nonneg hquotient) (by omega)

/-- With more overflow than room, the step fills the head up to the cap. -/
theorem increase_of_room_le {p : ℤ} (hr : IsRounding round) (hp : 0 < p) (hpc : p ≤ cap)
    (h₀ : ∀ q ∈ ps, 0 ≤ q) (hle : ∀ q ∈ ps, q ≤ p)
    (ho : cap - p + room cap ps ≤ overflow) :
    increase round cap overflow p (p + ps.sum) = cap - p := by
  have hsum : 0 ≤ ps.sum := List.sum_nonneg h₀
  have hkey := sub_mul_sum_le_mul_room hp.le hpc h₀ hle
  have hround : cap - p ≤ round (((overflow * p : ℤ) : K) / ((p + ps.sum : ℤ) : K)) := by
    apply hr.le_round_div (by omega)
    calc (cap - p) * (p + ps.sum)
        = (cap - p) * p + (cap - p) * ps.sum := by ring
      _ ≤ (cap - p) * p + p * room cap ps := by linarith
      _ = (cap - p + room cap ps) * p := by ring
      _ ≤ overflow * p := mul_le_mul_of_nonneg_right ho hp.le
  exact min_eq_right hround

/-- With no more overflow than room, what the step leaves fits in the rest. -/
theorem sub_increase_le_room {p : ℤ} (hr : IsRounding round) (hp : 0 < p) (hpc : p ≤ cap)
    (h₀ : ∀ q ∈ ps, 0 ≤ q) (hle : ∀ q ∈ ps, q ≤ p)
    (ho : overflow ≤ cap - p + room cap ps) :
    overflow - increase round cap overflow p (p + ps.sum) ≤ room cap ps := by
  have hsum : 0 ≤ ps.sum := List.sum_nonneg h₀
  have hkey := sub_mul_sum_le_mul_room hp.le hpc h₀ hle
  have herr := hr.round_div_error (K := K) (a := overflow * p) (w := p + ps.sum) (by omega)
  unfold increase
  generalize round (((overflow * p : ℤ) : K) / ((p + ps.sum : ℤ) : K)) = inc at herr ⊢
  by_cases hfull : cap - p ≤ inc
  · rw [min_eq_right hfull]
    omega
  · -- otherwise the rounded share is short by a whole unit, against `herr`
    rw [min_eq_left (by omega)]
    by_contra hstrand
    have hinc : inc ≤ cap - p - 1 := by omega
    have hshort : p * (room cap ps + 1) ≤ p * (overflow - inc) :=
      mul_le_mul_of_nonneg_left (by omega) hp.le
    have hshare : inc * ps.sum ≤ (cap - p - 1) * ps.sum :=
      mul_le_mul_of_nonneg_right hinc hsum
    linarith

/-! ## The whole pass -/

/-- The pass takes nothing away. -/
theorem le_distribute (hr : IsRounding round) (h₀ : ∀ p ∈ ps, 0 ≤ p) (hcap : ∀ p ∈ ps, p ≤ cap)
    (ho : 0 ≤ overflow) : List.Forall₂ (· ≤ ·) ps (distribute round cap overflow ps).1 := by
  induction ps generalizing overflow with
  | nil => exact List.Forall₂.nil
  | cons p ps ih =>
    by_cases h : (p :: ps).sum = 0
    · rw [distribute_of_sum_eq_zero h]
      exact List.forall₂_refl _
    · have h₀' : ∀ q ∈ ps, 0 ≤ q := fun q hq => h₀ q (List.mem_cons_of_mem _ hq)
      have hcap' : ∀ q ∈ ps, q ≤ cap := fun q hq => hcap q (List.mem_cons_of_mem _ hq)
      have hp : 0 ≤ p := h₀ p List.mem_cons_self
      have hsum : 0 ≤ ps.sum := List.sum_nonneg h₀'
      rw [List.sum_cons] at h
      have hmore₀ := increase_nonneg hr ho hp (hcap p List.mem_cons_self) hsum
      have hmore := increase_le_overflow cap hr (by omega : 0 < p + ps.sum) hsum ho
      rw [distribute_cons (by simpa using h), List.sum_cons]
      exact List.Forall₂.cons (by omega) (ih h₀' hcap' (by omega))

omit [LinearOrder K] [IsStrictOrderedRing K] in
/-- The head is the largest weight, so it is positive when any is. -/
theorem head_pos {p : ℤ} {ps : List ℤ} (hle : ∀ q ∈ ps, q ≤ p) (h₀ : ∀ q ∈ p :: ps, 0 ≤ q)
    (h : (p :: ps).sum ≠ 0) : 0 < p := by
  have hp₀ : 0 ≤ p := h₀ p List.mem_cons_self
  by_contra hzero
  have hrest : ps.sum = 0 := by
    refine List.sum_eq_zero ?_
    intro q hq
    have hqp := hle q hq
    have hq₀ := h₀ q (List.mem_cons_of_mem _ hq)
    omega
  rw [List.sum_cons] at h
  omega

/-- What is left after the pass is what exceeds the room. -/
theorem distribute_overflow (hr : IsRounding round)
    (hdesc : ps.Pairwise (· ≥ ·)) (h₀ : ∀ p ∈ ps, 0 ≤ p) (hcap : ∀ p ∈ ps, p ≤ cap)
    (ho : 0 ≤ overflow) :
    (distribute round cap overflow ps).2 = max 0 (overflow - room cap ps) := by
  induction ps generalizing overflow with
  | nil =>
    show overflow = max 0 (overflow - room cap [])
    rw [room_of_sum_eq_zero h₀ rfl, sub_zero, max_eq_right ho]
  | cons p ps ih =>
    by_cases h : (p :: ps).sum = 0
    · rw [distribute_of_sum_eq_zero h, room_of_sum_eq_zero h₀ h, sub_zero, max_eq_right ho]
    · obtain ⟨hle, hdesc'⟩ := List.pairwise_cons.mp hdesc
      have h₀' : ∀ q ∈ ps, 0 ≤ q := fun q hq => h₀ q (List.mem_cons_of_mem _ hq)
      have hcap' : ∀ q ∈ ps, q ≤ cap := fun q hq => hcap q (List.mem_cons_of_mem _ hq)
      have hpc : p ≤ cap := hcap p List.mem_cons_self
      have hsum : 0 ≤ ps.sum := List.sum_nonneg h₀'
      have hp : 0 < p := head_pos hle h₀ h
      rw [distribute_cons h, room_cons_pos hp, List.sum_cons]
      have hmore := increase_le_overflow cap hr (Int.add_pos_of_pos_of_nonneg hp hsum) hsum ho
      show (distribute round cap (overflow - _) ps).2 = _
      rw [ih hdesc' h₀' hcap' (by omega)]
      rcases le_total (cap - p + room cap ps) overflow with hover | hunder
      · rw [increase_of_room_le hr hp hpc h₀' hle hover]
        congr 1
        ring
      · have hfits := sub_increase_le_room hr hp hpc h₀' hle hunder
        rw [max_eq_left (by omega), max_eq_left (by omega)]

/-- With at least as much overflow as room, the pass fills every positive weight. -/
theorem distribute_full (hr : IsRounding round)
    (hdesc : ps.Pairwise (· ≥ ·)) (h₀ : ∀ p ∈ ps, 0 ≤ p) (hcap : ∀ p ∈ ps, p ≤ cap)
    (ho : room cap ps ≤ overflow) :
    List.Forall₂ (fun p q => 0 < p → q = cap) ps (distribute round cap overflow ps).1 := by
  induction ps generalizing overflow with
  | nil => exact List.Forall₂.nil
  | cons p ps ih =>
    by_cases h : (p :: ps).sum = 0
    · -- no weight is positive
      rw [distribute_of_sum_eq_zero h, List.forall₂_same]
      intro q hq hpos
      have hle : q ≤ (p :: ps).sum := List.single_le_sum h₀ q hq
      omega
    · obtain ⟨hle, hdesc'⟩ := List.pairwise_cons.mp hdesc
      have h₀' : ∀ q ∈ ps, 0 ≤ q := fun q hq => h₀ q (List.mem_cons_of_mem _ hq)
      have hp : 0 < p := head_pos hle h₀ h
      have hpc : p ≤ cap := hcap p List.mem_cons_self
      rw [room_cons_pos hp] at ho
      have hfull := increase_of_room_le hr hp hpc h₀' hle ho
      rw [distribute_cons h, List.sum_cons, hfull]
      refine List.Forall₂.cons ?_ (ih hdesc' h₀' ?_ ?_)
      · intro _
        omega
      · intro q hq
        exact hcap q (List.mem_cons_of_mem _ hq)
      · omega

/-- Nine tenths of the votes of a single voter at a cap of one tenth stay over. -/
example : distribute (roundHalfEven : ℚ → ℤ) 100 900 [100, 0] = ([100, 0], 900) := by
  decide +kernel

end DelegationStrategy.Lib
