import Mathlib.Algebra.Order.BigOperators.Group.List
import Mathlib.Data.List.Perm.Subperm
import Mathlib.Order.Bounds.Defs

/-!
# The fewest values that exceed a threshold

Values are added up, the largest first, until their sum exceeds a threshold; the result
is the value that was added last (`cutFrom`).

No other way of choosing values needs fewer of them (`IsCut.isLeast`): whatever is chosen,
as many of the largest values sum to at least as much (`sum_le_sum_take`). The values from
the cut on exceed the threshold together, those above it do not (`IsCut.sum_filter_le`,
`IsCut.sum_filter_lt`).
-/

namespace DelegationStrategy.Lib

universe u

/-- The value whose addition to `accumulated` takes the sum above the threshold; the last
value if none does, and `last` without values. -/
def cutFrom {M : Type u} [Add M] [LT M] [DecidableLT M] (threshold : M) : M → M → List M → M
  | _, last, [] => last
  | accumulated, _, x :: xs =>
    if threshold < accumulated + x then x else cutFrom threshold (accumulated + x) x xs

section Cut

variable {M : Type u} [AddCommMonoid M] [LinearOrder M] {threshold : M} {l : List M}

/-- The value `x` after the first `k` values is the one that exceeds the threshold. -/
structure IsCut (threshold : M) (l : List M) (k : Nat) (x : M) : Prop where
  value : l[k]? = some x
  below : (l.take k).sum ≤ threshold
  above : threshold < (l.take (k + 1)).sum

/-- The scan finds a cut if all values together exceed the threshold. -/
theorem exists_cutFrom {accumulated : M} (last : M) (h : threshold < accumulated + l.sum)
    (hacc : accumulated ≤ threshold) :
    ∃ k, l[k]? = some (cutFrom threshold accumulated last l) ∧
      accumulated + (l.take k).sum ≤ threshold ∧
      threshold < accumulated + (l.take (k + 1)).sum := by
  induction l generalizing accumulated last with
  | nil => exact absurd hacc (not_le.mpr (by simpa using h))
  | cons x l ih =>
    unfold cutFrom
    by_cases hx : threshold < accumulated + x
    · rw [if_pos hx]
      refine ⟨0, rfl, ?_, ?_⟩
      · simpa using hacc
      · simpa using hx
    · rw [if_neg hx]
      rw [List.sum_cons, ← add_assoc] at h
      obtain ⟨k, hvalue, hbelow, habove⟩ := ih x h (not_lt.mp hx)
      refine ⟨k + 1, hvalue, ?_, ?_⟩
      · rw [List.take_succ_cons, List.sum_cons, ← add_assoc]
        exact hbelow
      · rw [List.take_succ_cons, List.sum_cons, ← add_assoc]
        exact habove

theorem isCut_cutFrom (last : M) (h : threshold < l.sum) (hzero : 0 ≤ threshold) :
    ∃ k, IsCut threshold l k (cutFrom threshold 0 last l) := by
  obtain ⟨k, hvalue, hbelow, habove⟩ := exists_cutFrom last (by simpa using h) hzero
  exact ⟨k, hvalue, by simpa using hbelow, by simpa using habove⟩

end Cut

/-! ## Largest first -/

section Descending

variable {M : Type u} [AddCommMonoid M] [LinearOrder M] [IsOrderedAddMonoid M]
  [CanonicallyOrderedAdd M] {threshold : M} {l : List M}

/-- The first values after a larger one are no more than with it. -/
theorem sum_take_le_sum_take_cons {x : M} (hdesc : (x :: l).Pairwise (· ≥ ·)) (n : Nat) :
    (l.take n).sum ≤ ((x :: l).take n).sum := by
  induction n generalizing x l with
  | zero => simp
  | succ n ih =>
    cases l with
    | nil => simp
    | cons y l =>
      obtain ⟨hhead, htail⟩ := List.pairwise_cons.mp hdesc
      rw [List.take_succ_cons, List.take_succ_cons, List.sum_cons, List.sum_cons]
      exact add_le_add (hhead y List.mem_cons_self) (ih htail)

/-- **Exchange**: as many of the largest values as are chosen sum to at least as much. -/
theorem sum_le_sum_take (hdesc : l.Pairwise (· ≥ ·)) {s : List M} (hs : s.Sublist l) :
    s.sum ≤ (l.take s.length).sum := by
  induction hs with
  | slnil => simp
  | @cons s l x _ ih =>
    exact (ih hdesc.of_cons).trans (sum_take_le_sum_take_cons hdesc _)
  | @cons_cons s l x _ ih =>
    rw [List.length_cons, List.take_succ_cons, List.sum_cons, List.sum_cons]
    exact add_le_add_right (ih hdesc.of_cons) x

variable {k : Nat} {x : M}

omit [IsOrderedAddMonoid M] [CanonicallyOrderedAdd M] in
theorem IsCut.lt_length (h : IsCut threshold l k x) : k < l.length :=
  (List.getElem?_eq_some_iff.mp h.value).1

omit [IsOrderedAddMonoid M] [CanonicallyOrderedAdd M] in
/-- In a descending list the values up to the cut are at least it. -/
theorem IsCut.le_of_mem_take (h : IsCut threshold l k x) (hdesc : l.Pairwise (· ≥ ·)) :
    ∀ y ∈ l.take (k + 1), x ≤ y := by
  intro y hy
  obtain ⟨hk, hx⟩ := List.getElem?_eq_some_iff.mp h.value
  obtain ⟨i, hi, rfl⟩ := List.mem_iff_getElem.mp hy
  rw [List.length_take] at hi
  rw [List.getElem_take, ← hx]
  rcases Nat.lt_or_ge i k with hik | hik
  · exact List.pairwise_iff_getElem.mp hdesc i k (by omega) hk hik
  · obtain rfl : i = k := by omega
    exact le_rfl

omit [IsOrderedAddMonoid M] [CanonicallyOrderedAdd M] in
/-- Those from the cut on are at most it. -/
theorem IsCut.le_of_mem_drop (h : IsCut threshold l k x) (hdesc : l.Pairwise (· ≥ ·)) :
    ∀ y ∈ l.drop k, y ≤ x := by
  intro y hy
  obtain ⟨hk, hx⟩ := List.getElem?_eq_some_iff.mp h.value
  obtain ⟨i, hi, rfl⟩ := List.mem_iff_getElem.mp hy
  rw [List.length_drop] at hi
  rw [List.getElem_drop, ← hx]
  rcases Nat.eq_zero_or_pos i with rfl | hpos
  · exact le_rfl
  · exact List.pairwise_iff_getElem.mp hdesc k (k + i) hk (by omega) (by omega)

/-- The values from the cut on exceed the threshold together. -/
theorem IsCut.sum_filter_le (h : IsCut threshold l k x) (hdesc : l.Pairwise (· ≥ ·)) :
    threshold < (l.filter fun y => x ≤ y).sum := by
  have hkeep : (l.take (k + 1)).filter (fun y => x ≤ y) = l.take (k + 1) :=
    List.filter_eq_self.mpr fun y hy => by simpa using h.le_of_mem_take hdesc y hy
  have hsub : (l.take (k + 1)).Sublist (l.filter fun y => x ≤ y) := by
    have := (List.take_sublist (k + 1) l).filter fun y => x ≤ y
    rwa [hkeep] at this
  exact h.above.trans_le (hsub.sum_le_sum fun _ _ => zero_le)

/-- The values above the cut do not. -/
theorem IsCut.sum_filter_lt (h : IsCut threshold l k x) (hdesc : l.Pairwise (· ≥ ·)) :
    (l.filter fun y => x < y).sum ≤ threshold := by
  have hdrop : (l.drop k).filter (fun y => x < y) = [] :=
    List.filter_eq_nil_iff.mpr fun y hy => by simpa using h.le_of_mem_drop hdesc y hy
  have hsub : (l.filter fun y => x < y).Sublist (l.take k) := by
    conv_lhs => rw [← List.take_append_drop k l]
    rw [List.filter_append, hdrop, List.append_nil]
    exact List.filter_sublist
  exact (hsub.sum_le_sum fun _ _ => zero_le).trans h.below

/-- **The fewest values** that exceed the threshold are the largest up to the cut. -/
theorem IsCut.isLeast (h : IsCut threshold l k x) (hdesc : l.Pairwise (· ≥ ·)) :
    IsLeast {n | ∃ s : List M, s.Subperm l ∧ s.length = n ∧ threshold < s.sum} (k + 1) := by
  constructor
  · refine ⟨l.take (k + 1), (List.take_sublist _ _).subperm, ?_, h.above⟩
    rw [List.length_take]
    have := h.lt_length
    omega
  · rintro n ⟨s, ⟨s', hperm, hsub⟩, rfl, hsum⟩
    by_contra hfew
    -- at most `k` values are no more than the first `k` ones
    have hle : s.sum ≤ (l.take k).sum := by
      calc s.sum = s'.sum := hperm.sum_eq.symm
        _ ≤ (l.take s'.length).sum := sum_le_sum_take hdesc hsub
        _ ≤ (l.take k).sum := List.monotone_sum_take l (by rw [hperm.length_eq]; omega)
    exact absurd (hle.trans h.below) (not_le.mpr hsum)

end Descending

end DelegationStrategy.Lib
