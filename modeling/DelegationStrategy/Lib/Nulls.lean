import Mathlib.Data.List.MinMax
import Mathlib.Data.List.ReduceOption
import Mathlib.Algebra.Order.Field.Rat

/-!
# Values that may be `NULL`

A value of a query that may be `NULL` is an `Option`. `MAX` and `GREATEST` ignore `NULL`
(`sqlMax`), a quotient is `NULL` if one of its sides is and fails if the divisor is 0
(`sqlDiv`), and an outer join has `NULL` where a row has no partner (`leftJoin`).

- `exists_lt_sqlMax`: when the maximum exceeds a bound.
- `leftJoin_eq_map`: an outer join in which no row has two partners is a map.
- `mem_filter_leftJoin`: an outer join, filtered by a condition on the joined table, is an
  inner join.
-/

namespace DelegationStrategy.Lib

universe u v

/-! ## Maxima -/

section SqlMax

variable {α : Type u} [LinearOrder α]

/-- `MAX` over rows and `GREATEST` over columns: `NULL`s are ignored, and of nothing but
`NULL`s the maximum is `NULL`. -/
def sqlMax (values : List (Option α)) : Option α := values.reduceOption.max?

/-- A maximum exceeds a bound if one of the values does. -/
theorem lt_sqlMax_iff {values : List (Option α)} {m : α} (h : sqlMax values = some m) (a : α) :
    a < m ↔ ∃ c, some c ∈ values ∧ a < c := by
  obtain ⟨hmem, hmax⟩ := List.max?_eq_some_iff.mp h
  constructor
  · intro ha
    exact ⟨m, List.reduceOption_mem_iff.mp hmem, ha⟩
  · rintro ⟨c, hc, ha⟩
    exact lt_of_lt_of_le ha (hmax c (List.reduceOption_mem_iff.mpr hc))

theorem sqlMax_eq_none_iff {values : List (Option α)} :
    sqlMax values = none ↔ ∀ c, some c ∉ values := by
  unfold sqlMax
  rw [List.max?_eq_none_iff, List.eq_nil_iff_forall_not_mem]
  exact forall_congr' fun c => not_congr List.reduceOption_mem_iff

theorem exists_lt_sqlMax {values : List (Option α)} {a : α} :
    (∃ m ∈ sqlMax values, a < m) ↔ ∃ c, some c ∈ values ∧ a < c := by
  cases h : sqlMax values with
  | none =>
    constructor
    · rintro ⟨m, hm, -⟩
      cases hm
    · rintro ⟨c, hc, -⟩
      exact absurd hc (sqlMax_eq_none_iff.mp h c)
  | some m => simpa using lt_sqlMax_iff h a

end SqlMax

/-! ## Quotients -/

/-- A quotient of `NUMERIC`s: the inner `none` is `NULL`, the outer one the error that 0
divides nothing. -/
def sqlDiv : Option Rat → Option Rat → Option (Option Rat)
  | some a, some b => if b = 0 then none else some (some (a / b))
  | _, _ => some none

theorem sqlDiv_eq_some {a b : Rat} {q : Option Rat} (h : sqlDiv (some a) (some b) = some q) :
    b ≠ 0 ∧ q = some (a / b) := by
  by_cases hb : b = 0
  · simp [sqlDiv, hb] at h
  · refine ⟨hb, ?_⟩
    simpa [sqlDiv, hb] using h.symm

/-! ## Outer joins -/

section LeftJoin

variable {α : Type u} {β : Type v}

/-- `l LEFT JOIN r ON on`: a row without a partner is joined with `NULL`. -/
def leftJoin (on : α → β → Bool) (l : List α) (r : List β) : List (α × Option β) :=
  l.flatMap fun a =>
    match r.filter (on a) with
    | [] => [(a, none)]
    | partners => partners.map fun b => (a, some b)

theorem mem_leftJoin_some {on : α → β → Bool} {l : List α} {r : List β} {a : α} {b : β} :
    (a, some b) ∈ leftJoin on l r ↔ a ∈ l ∧ b ∈ r ∧ on a b := by
  have hrow : ∀ a', (a, some b) ∈ (match r.filter (on a') with
      | [] => [(a', none)]
      | partners => partners.map fun b => (a', some b)) ↔ a' = a ∧ b ∈ r.filter (on a') := by
    intro a'
    cases r.filter (on a') with
    | nil => simp
    | cons b' partners =>
      rw [List.mem_map]
      constructor
      · rintro ⟨b'', hmem, heq⟩
        obtain ⟨rfl, hb⟩ := Prod.mk.inj heq
        exact ⟨rfl, Option.some.inj hb ▸ hmem⟩
      · rintro ⟨rfl, hmem⟩
        exact ⟨b, hmem, rfl⟩
  unfold leftJoin
  rw [List.mem_flatMap]
  constructor
  · rintro ⟨a', hleft, hmem⟩
    obtain ⟨rfl, hb⟩ := (hrow a').mp hmem
    exact ⟨hleft, List.mem_filter.mp hb⟩
  · rintro ⟨hleft, hright, hon⟩
    exact ⟨a, hleft, (hrow a).mpr ⟨rfl, List.mem_filter.mpr ⟨hright, hon⟩⟩⟩

/-- A test that no two rows pass selects the row that is found. -/
theorem filter_eq_toList_find? {p : β → Bool} {r : List β}
    (h : r.Pairwise fun b b' => ¬ (p b ∧ p b')) : r.filter p = (r.find? p).toList := by
  induction r with
  | nil => rfl
  | cons b r ih =>
    obtain ⟨hb, hrest⟩ := List.pairwise_cons.mp h
    cases hp : p b with
    | true =>
      rw [List.filter_cons_of_pos hp, List.find?_cons_of_pos hp]
      show b :: r.filter p = [b]
      rw [List.filter_eq_nil_iff.mpr fun b' hb' hp' => hb b' hb' ⟨hp, hp'⟩]
    | false =>
      rw [List.filter_cons_of_neg (by simp [hp]), List.find?_cons_of_neg (by simp [hp])]
      exact ih hrest

/-- **No fan-out**: if no row has two partners, every row is joined once. -/
theorem leftJoin_eq_map {on : α → β → Bool} {l : List α} {r : List β}
    (h : ∀ a ∈ l, r.Pairwise fun b b' => ¬ (on a b ∧ on a b')) :
    leftJoin on l r = l.map fun a => (a, r.find? (on a)) := by
  induction l with
  | nil => rfl
  | cons a l ih =>
    have hrest := ih fun a' ha' => h a' (List.mem_cons_of_mem _ ha')
    unfold leftJoin at hrest ⊢
    rw [List.flatMap_cons, hrest, filter_eq_toList_find? (h a List.mem_cons_self), List.map_cons]
    cases r.find? (on a) with
    | none => rfl
    | some b => rfl

/-- A join on a key of the joined table. -/
theorem leftJoin_key {κ : Type*} [DecidableEq κ] {key : β → κ} {r : List β}
    (hnd : (r.map key).Nodup) (k : α → κ) (l : List α) :
    leftJoin (fun a b => decide (key b = k a)) l r =
      l.map fun a => (a, r.find? fun b => decide (key b = k a)) := by
  refine leftJoin_eq_map fun a _ => (List.pairwise_map.mp hnd).imp ?_
  intro b b' hne h
  exact hne ((of_decide_eq_true h.1).trans (of_decide_eq_true h.2).symm)

/-- A condition on the joined table drops the rows without a partner. -/
theorem mem_filter_leftJoin {on : α → β → Bool} {l : List α} {r : List β}
    {p : α → Bool} {q : β → Bool} {a : α} {o : Option β} :
    (a, o) ∈ (leftJoin on l r).filter (fun pair => pair.2.any q && p pair.1) ↔
      ∃ b, o = some b ∧ a ∈ l ∧ p a ∧ b ∈ r ∧ on a b ∧ q b := by
  rw [List.mem_filter]
  cases o with
  | none => simp
  | some b =>
    rw [mem_leftJoin_some, Bool.and_eq_true, Option.any_some]
    constructor
    · rintro ⟨⟨hleft, hright, hon⟩, hq, hp⟩
      exact ⟨b, rfl, hleft, hp, hright, hon, hq⟩
    · rintro ⟨b', heq, hleft, hp, hright, hon, hq⟩
      obtain rfl := Option.some.inj heq
      exact ⟨⟨hleft, hright, hon⟩, hq, hp⟩

end LeftJoin

end DelegationStrategy.Lib
