import DelegationStrategy.Lib.Nulls
import Mathlib.Algebra.BigOperators.Group.List.Basic
import Mathlib.Algebra.BigOperators.Ring.List
import Mathlib.Data.List.Nodup

/-!
# Sums over joins

An outer join has a row for every pair of partners. Two outer joins, one after the other on
the same row, have the product of the partners, so that each side is counted as often as the
other side has rows (`sum_join_left`, `sum_join_right`).

- `sum_groups`: the sum over distinct groups is the sum over their rows, each counted once.
- `filter_leftJoin`: a condition on the left table can be evaluated before the join.
-/

namespace DelegationStrategy.Lib

universe u v w

/-! ## Groups -/

section Groups

variable {ρ : Type u} {κ : Type v} [DecidableEq κ] {key : ρ → κ}

/-- Each row is in one group. -/
theorem sum_groups (f : ρ → Rat) {ks : List κ} (hnd : ks.Nodup) (rows : List ρ) :
    (ks.map fun k => ((rows.filter fun r => key r = k).map f).sum).sum =
      ((rows.filter fun r => key r ∈ ks).map f).sum := by
  induction rows with
  | nil => simp
  | cons r rows ih =>
    have hcons : ∀ k, (((r :: rows).filter fun r => key r = k).map f).sum =
        (if k = key r then f r else 0) + ((rows.filter fun r => key r = k).map f).sum := by
      intro k
      by_cases hk : key r = k
      · rw [List.filter_cons_of_pos (by simpa using hk), if_pos hk.symm, List.map_cons,
          List.sum_cons]
      · rw [List.filter_cons_of_neg (by simpa using hk), if_neg (Ne.symm hk), zero_add]
    rw [List.map_congr_left fun k _ => hcons k, List.sum_map_add, ih]
    by_cases hr : key r ∈ ks
    · -- the row is in the one group with its key
      have hone : (ks.map fun k => if k = key r then f r else 0).sum = f r := by
        simp [List.sum_map_ite_eq, List.count_eq_one_of_mem hnd hr]
      rw [hone, List.filter_cons_of_pos (by simpa using hr), List.map_cons, List.sum_cons]
    · have hnone : (ks.map fun k => if k = key r then f r else 0).sum = 0 := by
        simp [List.sum_map_ite_eq, List.count_eq_zero_of_not_mem hr]
      rw [hnone, List.filter_cons_of_neg (by simpa using hr), zero_add]

end Groups

/-! ## Values that may be missing -/

/-- Missing values count as 0. -/
theorem sum_getD_eq {α : Type u} (f : α → Option Rat) (l : List α) :
    (l.map fun a => (f a).getD 0).sum = (l.filterMap f).sum := by
  induction l with
  | nil => rfl
  | cons a l ih =>
    cases hf : f a with
    | none =>
      rw [List.filterMap_cons_none hf, List.map_cons, List.sum_cons, hf, ih]
      exact zero_add _
    | some c =>
      rw [List.filterMap_cons_some hf, List.map_cons, List.sum_cons, List.sum_cons, hf, ih]
      rfl

/-! ## Partners -/

section Partners

variable {α : Type u} {β : Type v} {γ : Type w}

/-- The partners of a row: of none is made `NULL`. -/
def orNull (partners : List β) : List (Option β) :=
  if partners = [] then [none] else partners.map some

theorem leftJoin_eq_flatMap (on : α → β → Bool) (l : List α) (r : List β) :
    leftJoin on l r = l.flatMap fun a => (orNull (r.filter (on a))).map fun o => (a, o) := by
  unfold leftJoin
  congr 1
  funext a
  unfold orNull
  cases r.filter (on a) with
  | nil => rfl
  | cons b partners => simp

theorem length_orNull (partners : List β) :
    (orNull partners).length = max 1 partners.length := by
  unfold orNull
  cases partners with
  | nil => rfl
  | cons b partners => simp

theorem sum_orNull (f : β → Rat) (partners : List β) :
    ((orNull partners).map fun o => (o.map f).getD 0).sum = (partners.map f).sum := by
  unfold orNull
  cases partners with
  | nil => simp
  | cons b partners => simp [Function.comp_def]

theorem filter_leftJoin (on : α → β → Bool) (p : α → Bool) (l : List α) (r : List β) :
    (leftJoin on l r).filter (fun row => p row.1) = leftJoin on (l.filter p) r := by
  rw [leftJoin_eq_flatMap, leftJoin_eq_flatMap]
  induction l with
  | nil => rfl
  | cons a l ih =>
    rw [List.flatMap_cons, List.filter_append, ih]
    by_cases ha : p a
    · rw [List.filter_cons_of_pos ha, List.flatMap_cons,
        List.filter_eq_self.mpr fun row hrow => ?_]
      obtain ⟨o, -, rfl⟩ := List.mem_map.mp hrow
      exact ha
    · rw [List.filter_cons_of_neg ha, List.filter_eq_nil_iff.mpr fun row hrow => ?_]
      · rfl
      · obtain ⟨o, -, rfl⟩ := List.mem_map.mp hrow
        exact ha

/-- No row of the left table is lost. -/
theorem mem_map_fst_leftJoin {on : α → β → Bool} {l : List α} {r : List β} {a : α} :
    a ∈ (leftJoin on l r).map Prod.fst ↔ a ∈ l := by
  have hne : ∀ partners : List β, orNull partners ≠ [] := fun partners h => by
    have hlength := length_orNull partners
    rw [h, List.length_nil] at hlength
    omega
  rw [leftJoin_eq_flatMap, List.map_flatMap, List.mem_flatMap]
  constructor
  · rintro ⟨a', ha', hmem⟩
    rw [List.map_map] at hmem
    obtain ⟨o, -, rfl⟩ := List.mem_map.mp hmem
    exact ha'
  · intro ha
    obtain ⟨o, ho⟩ := List.exists_mem_of_ne_nil _ (hne (r.filter (on a)))
    refine ⟨a, ha, ?_⟩
    rw [List.map_map]
    exact List.mem_map.mpr ⟨o, ho, rfl⟩

/-- A sum over an outer join. -/
theorem sum_leftJoin (on : α → β → Bool) (g : α → Option β → Rat) (l : List α) (r : List β) :
    ((leftJoin on l r).map fun row => g row.1 row.2).sum =
      (l.map fun a => ((orNull (r.filter (on a))).map (g a)).sum).sum := by
  rw [leftJoin_eq_flatMap]
  induction l with
  | nil => rfl
  | cons a l ih =>
    rw [List.flatMap_cons, List.map_append, List.sum_append, ih, List.map_cons, List.sum_cons,
      List.map_map]
    rfl

variable (on : α → β → Bool) (on' : α → γ → Bool) (l : List α) (r : List β) (r' : List γ)

/-- The first of two joins is counted once for each partner of the second. -/
theorem sum_join_left (f : β → Rat) :
    ((leftJoin (fun row => on' row.1) (leftJoin on l r) r').map fun row =>
        (row.1.2.map f).getD 0).sum =
      (l.map fun a => (max 1 (r'.filter (on' a)).length : Nat) *
        ((r.filter (on a)).map f).sum).sum := by
  rw [sum_leftJoin (fun row : α × Option β => on' row.1) fun row _ => (row.2.map f).getD 0]
  have hconst : ∀ row : α × Option β,
      ((orNull (r'.filter (on' row.1))).map fun _ => (row.2.map f).getD 0).sum =
        (max 1 (r'.filter (on' row.1)).length : Nat) * (row.2.map f).getD 0 := by
    intro row
    rw [List.map_const', List.sum_replicate, length_orNull, nsmul_eq_mul]
  rw [List.map_congr_left fun row _ => hconst row,
    sum_leftJoin on fun a o => (max 1 (r'.filter (on' a)).length : Nat) * (o.map f).getD 0]
  refine congrArg List.sum (List.map_congr_left fun a _ => ?_)
  rw [List.sum_map_mul_left, sum_orNull]

/-- The second of two joins is counted once for each partner of the first. -/
theorem sum_join_right (f : γ → Rat) :
    ((leftJoin (fun row => on' row.1) (leftJoin on l r) r').map fun row =>
        (row.2.map f).getD 0).sum =
      (l.map fun a => (max 1 (r.filter (on a)).length : Nat) *
        ((r'.filter (on' a)).map f).sum).sum := by
  rw [sum_leftJoin (fun row : α × Option β => on' row.1) fun _ o => (o.map f).getD 0]
  rw [List.map_congr_left fun row _ => sum_orNull f (r'.filter (on' row.1)),
    sum_leftJoin on fun a _ => ((r'.filter (on' a)).map f).sum]
  refine congrArg List.sum (List.map_congr_left fun a _ => ?_)
  rw [List.map_const', List.sum_replicate, length_orNull, nsmul_eq_mul]

end Partners

end DelegationStrategy.Lib
