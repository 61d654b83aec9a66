import Mathlib.Algebra.Order.BigOperators.Group.List
import Mathlib.Algebra.Order.Field.Basic
import Mathlib.Algebra.Order.Floor.Ring
import Mathlib.Data.Int.ConditionallyCompleteOrder
import Mathlib.Data.Rat.Floor
import Mathlib.Tactic.Linarith
import Mathlib.Tactic.Ring

/-!
# Rounding to an integer

`roundHalfEven` is the rounding of IEC 60559: to the nearest integer, a midpoint
to the even one; `roundHalfAway` moves a midpoint away from zero. What their users
need of them is `IsRounding`: a rounding never crosses an integer and moves a number
by at most one half. Everything proved from `IsRounding` alone holds of any other
rule for the midpoints.

Shares are rounded quotients of integers, so `IsRounding` is also stated for
those without a fraction (`le_round_div`, `round_div_le`, `round_div_error`).
-/

namespace DelegationStrategy.Lib

universe u v

variable {K : Type u} [Field K] [LinearOrder K]

/-- A rounding stays between the same integers and within one half. -/
structure IsRounding (round : K → ℤ) : Prop where
  le_round : ∀ {n : ℤ} {x : K}, (n : K) ≤ x → n ≤ round x
  round_le : ∀ {n : ℤ} {x : K}, x ≤ (n : K) → round x ≤ n
  error : ∀ x : K, |(round x : K) - x| ≤ 1 / 2

section HalfEven

variable [FloorRing K]

/-- To the nearest integer, a midpoint to the even neighbour. -/
def roundHalfEven (x : K) : ℤ :=
  let k := ⌊x⌋
  if x - k < 1 / 2 then k
  else if 1 / 2 < x - k then k + 1
  else if k % 2 = 0 then k else k + 1

/-- Either neighbour is taken, and only one that is at most one half away. -/
theorem roundHalfEven_cases (x : K) :
    (roundHalfEven x = ⌊x⌋ ∧ x - ⌊x⌋ ≤ 1 / 2) ∨
      (roundHalfEven x = ⌊x⌋ + 1 ∧ 1 / 2 ≤ x - ⌊x⌋) := by
  unfold roundHalfEven
  dsimp only
  by_cases h₁ : x - ⌊x⌋ < 1 / 2
  · rw [if_pos h₁]
    exact Or.inl ⟨rfl, h₁.le⟩
  · rw [if_neg h₁]
    by_cases h₂ : 1 / 2 < x - ⌊x⌋
    · rw [if_pos h₂]
      exact Or.inr ⟨rfl, h₂.le⟩
    · -- a midpoint: both neighbours are one half away
      rw [if_neg h₂]
      by_cases he : ⌊x⌋ % 2 = 0
      · rw [if_pos he]
        exact Or.inl ⟨rfl, not_lt.mp h₂⟩
      · rw [if_neg he]
        exact Or.inr ⟨rfl, not_lt.mp h₁⟩

theorem isRounding_roundHalfEven [IsStrictOrderedRing K] :
    IsRounding (roundHalfEven : K → ℤ) where
  le_round {n x} h := by
    have hfloor : n ≤ ⌊x⌋ := Int.le_floor.mpr h
    rcases roundHalfEven_cases x with ⟨hr, _⟩ | ⟨hr, _⟩ <;> omega
  round_le {n x} h := by
    rcases roundHalfEven_cases x with ⟨hr, _⟩ | ⟨hr, hfrac⟩
    · rw [hr]
      exact_mod_cast (Int.floor_le x).trans h
    · -- the fraction is positive, so the floor is below `n`
      have hlt : (⌊x⌋ : K) < n := by linarith [Int.floor_le x]
      have : ⌊x⌋ < n := by exact_mod_cast hlt
      omega
  error x := by
    have hlo := Int.floor_le x
    have hhi := Int.lt_floor_add_one x
    rcases roundHalfEven_cases x with ⟨hr, hfrac⟩ | ⟨hr, hfrac⟩
    · rw [hr, abs_le]
      constructor <;> linarith
    · rw [hr, abs_le]
      push_cast
      constructor <;> linarith

/-- Midpoints go to the even neighbour on both sides of zero. -/
example : (roundHalfEven (5 / 2 : ℚ), roundHalfEven (7 / 2 : ℚ), roundHalfEven (-1 / 2 : ℚ)) =
    (2, 4, 0) := by
  decide +kernel

end HalfEven

/-- A rounding, mirrored at zero. -/
theorem IsRounding.neg [IsStrictOrderedRing K] {round : K → ℤ} (hr : IsRounding round) :
    IsRounding fun x => -round (-x) where
  le_round {n x} h := by
    have hle := hr.round_le (n := -n) (x := -x) (by push_cast; linarith)
    omega
  round_le {n x} h := by
    have hle := hr.le_round (n := -n) (x := -x) (by push_cast; linarith)
    omega
  error x := by
    have herror := hr.error (-x)
    rw [← abs_neg] at herror
    push_cast
    rwa [show -(round (-x) : K) - x = -((round (-x) : K) - -x) by ring]

section HalfAway

variable [FloorRing K]

/-- To the nearest integer, a midpoint to the greater neighbour. -/
def roundHalfUp (x : K) : ℤ := ⌊x + 1 / 2⌋

/-- To the nearest integer, a midpoint to the neighbour that is farther from zero. -/
def roundHalfAway (x : K) : ℤ := if 0 ≤ x then roundHalfUp x else -roundHalfUp (-x)

variable [IsStrictOrderedRing K]

theorem isRounding_roundHalfUp : IsRounding (roundHalfUp : K → ℤ) where
  le_round {n x} h := Int.le_floor.mpr (by linarith)
  round_le {n x} h := by
    refine Int.lt_add_one_iff.mp (Int.floor_lt.mpr ?_)
    push_cast
    linarith
  error x := by
    have hlo := Int.floor_le (x + 1 / 2)
    have hhi := Int.lt_floor_add_one (x + 1 / 2)
    rw [roundHalfUp, abs_le]
    constructor <;> linarith

theorem isRounding_roundHalfAway : IsRounding (roundHalfAway : K → ℤ) := by
  have hup := isRounding_roundHalfUp (K := K)
  constructor
  · intro n x h
    unfold roundHalfAway
    split
    · exact hup.le_round h
    · exact hup.neg.le_round h
  · intro n x h
    unfold roundHalfAway
    split
    · exact hup.round_le h
    · exact hup.neg.round_le h
  · intro x
    unfold roundHalfAway
    split
    · exact hup.error x
    · exact hup.neg.error x

/-- What is rounded below an integer. -/
theorem roundHalfAway_lt_iff {x : K} (hx : 0 ≤ x) {n : ℤ} :
    roundHalfAway x < n ↔ x < n - 1 / 2 := by
  rw [roundHalfAway, if_pos hx, roundHalfUp, Int.floor_lt, ← lt_sub_iff_add_lt]

end HalfAway

namespace IsRounding

variable {round : K → ℤ} (hr : IsRounding round)

include hr

/-- An integer is its own rounding. -/
theorem round_intCast (n : ℤ) : round (n : K) = n :=
  le_antisymm (hr.round_le le_rfl) (hr.le_round le_rfl)

/-- What is not negative is not rounded below zero. -/
theorem round_nonneg {x : K} (h : 0 ≤ x) : 0 ≤ round x :=
  hr.le_round (by rwa [Int.cast_zero])

variable [IsStrictOrderedRing K]

theorem round_lt {n : ℤ} {x : K} (h : x < n - 1 / 2) : round x < n := by
  have herror := (abs_le.mp (hr.error x)).2
  have hlt : (round x : K) < n := by linarith
  exact_mod_cast hlt

/-- Whatever it does with midpoints, a rounding is monotone: numbers that it moves past each
other are the same midpoint. -/
theorem monotone : Monotone round := by
  intro x y h
  by_contra hlt
  have hsucc : round y + 1 ≤ round x := not_le.mp hlt
  have hcast : (round y : K) + 1 ≤ round x := by exact_mod_cast hsucc
  have hx := (abs_le.mp (hr.error x)).2
  have hy := (abs_le.mp (hr.error y)).1
  obtain rfl : x = y := le_antisymm h (by linarith)
  omega

/-! ## Rounded quotients -/

theorem le_round_div {n a w : ℤ} (hw : 0 < w) (h : n * w ≤ a) :
    n ≤ round ((a : K) / w) := by
  have hw' : (0 : K) < w := by exact_mod_cast hw
  apply hr.le_round
  rw [le_div_iff₀ hw']
  exact_mod_cast h

theorem round_div_le {n a w : ℤ} (hw : 0 < w) (h : a ≤ n * w) :
    round ((a : K) / w) ≤ n := by
  have hw' : (0 : K) < w := by exact_mod_cast hw
  apply hr.round_le
  rw [div_le_iff₀ hw']
  exact_mod_cast h

/-- The quotient exceeds its rounding by at most one half. -/
theorem round_div_error {a w : ℤ} (hw : 0 < w) :
    2 * a ≤ (2 * round ((a : K) / w) + 1) * w := by
  have hw' : (0 : K) < w := by exact_mod_cast hw
  have herr := (abs_le.mp (hr.error ((a : K) / w))).1
  have hle : (a : K) / w ≤ round ((a : K) / w) + 1 / 2 := by linarith
  rw [div_le_iff₀ hw'] at hle
  have : (2 * a : K) ≤ (2 * round ((a : K) / w) + 1) * w := by linarith
  exact_mod_cast this

/-! ## Sums of rounded numbers -/

/-- The errors of rounded numbers add up to at most one half for each of them. -/
theorem abs_sum_error_le {α : Type v} (f : α → K) (l : List α) :
    |(l.map fun a => (round (f a) : K) - f a).sum| ≤ l.length / 2 := by
  induction l with
  | nil => simp
  | cons a l ih =>
    have hhead := abs_le.mp (hr.error (f a))
    have htail := abs_le.mp ih
    rw [List.map_cons, List.sum_cons, List.length_cons, abs_le]
    push_cast
    constructor <;> linarith

end IsRounding

end DelegationStrategy.Lib
