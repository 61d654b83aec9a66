import DelegationStrategy.Lib.Nulls
import DelegationStrategy.Lib.Query
import Mathlib.Order.Bounds.Basic

/-!
# Extremes of sets, and `UPDATE … FROM`

`MIN`, `LEAST`, `MAX` and `GREATEST` give the extreme value of what is not `NULL`, and
`NULL` if nothing is left. `Extreme r s o` says so of a set: `o` is a value of `s` that is
`r`-related to all others, where `r` is `≤` for a minimum and `≥` for a maximum.

- `Extreme.reduce`: the extreme of extremes is the extreme of the union.
- `updateFrom_eq_map`: an `UPDATE … FROM` does not depend on the order of the joined rows
  if all partners of a row write the same.
-/

namespace DelegationStrategy.Lib

universe u v

/-! ## Extremes -/

/-- `o` is the extreme value of `s`, and `NULL` if `s` is empty. -/
structure Extreme {α : Type u} (r : α → α → Prop) (s : Set α) (o : Option α) : Prop where
  attained : ∀ m, o = some m → m ∈ s
  bound : ∀ v ∈ s, ∃ m, o = some m ∧ r m v

namespace Extreme

variable {α : Type u} {r : α → α → Prop} {s s' : Set α} {o : Option α}

/-- A set with a value has an extreme. -/
theorem exists_eq_some (h : Extreme r s o) {v : α} (hv : v ∈ s) : ∃ m, o = some m := by
  obtain ⟨m, hm, -⟩ := h.bound v hv
  exact ⟨m, hm⟩

theorem rel (h : Extreme r s o) {m v : α} (hm : o = some m) (hv : v ∈ s) : r m v := by
  obtain ⟨m', hm', hrel⟩ := h.bound v hv
  obtain rfl := Option.some.inj (hm.symm.trans hm')
  exact hrel

/-- A column. -/
theorem column (hrefl : ∀ a, r a a) (o : Option α) : Extreme r {v | o = some v} o where
  attained _ hm := hm
  bound v hv := ⟨v, hv, hrefl v⟩

/-- An aggregate over rows. -/
theorem min? [LinearOrder α] (values : List α) :
    Extreme (· ≤ ·) {v | v ∈ values} values.min? where
  attained _ hm := (List.min?_eq_some_iff.mp hm).1
  bound v hv := by
    obtain ⟨m, hm⟩ := Option.isSome_iff_exists.mp (List.isSome_min?_of_mem hv)
    exact ⟨m, hm, (List.min?_eq_some_iff.mp hm).2 v hv⟩

theorem max? [LinearOrder α] (values : List α) :
    Extreme (· ≥ ·) {v | v ∈ values} values.max? where
  attained _ hm := (List.max?_eq_some_iff.mp hm).1
  bound v hv := by
    obtain ⟨m, hm⟩ := Option.isSome_iff_exists.mp (List.isSome_max?_of_mem hv)
    exact ⟨m, hm, (List.max?_eq_some_iff.mp hm).2 v hv⟩

/-- **Extremes of extremes**: the extreme of what is not `NULL` among the extremes of
some sets is the extreme of their union. -/
theorem reduce (htrans : ∀ a b c, r a b → r b c → r a c) {extreme : List α → Option α}
    (hextreme : ∀ values, Extreme r {v | v ∈ values} (extreme values))
    {parts : List (Set α × Option α)} (h : ∀ part ∈ parts, Extreme r part.1 part.2) :
    Extreme r {v | ∃ part ∈ parts, v ∈ part.1} (extreme (parts.map Prod.snd).reduceOption) where
  attained m hm := by
    have hmem := List.reduceOption_mem_iff.mp ((hextreme _).attained m hm)
    obtain ⟨part, hpart, hsome⟩ := List.mem_map.mp hmem
    exact ⟨part, hpart, (h part hpart).attained m hsome⟩
  bound v := by
    rintro ⟨part, hpart, hv⟩
    obtain ⟨a, ha, hav⟩ := (h part hpart).bound v hv
    have hmem : some a ∈ parts.map Prod.snd := List.mem_map.mpr ⟨part, hpart, ha⟩
    obtain ⟨m, hm, hma⟩ := (hextreme _).bound a (List.reduceOption_mem_iff.mpr hmem)
    exact ⟨m, hm, htrans m a v hma hav⟩

/-- A minimum and a maximum of one set enclose it. -/
theorem isLeast [LinearOrder α] {m : α} (h : Extreme (· ≤ ·) s (some m)) : IsLeast s m :=
  ⟨h.attained m rfl, fun _ hv => h.rel rfl hv⟩

theorem isGreatest [LinearOrder α] {m : α} (h : Extreme (· ≥ ·) s (some m)) :
    IsGreatest s m :=
  ⟨h.attained m rfl, fun _ hv => h.rel rfl hv⟩

end Extreme

/-! ## `UPDATE … FROM` -/

section UpdateFrom

variable {ρ : Type u} {σ : Type}

/-- `UPDATE rows SET … FROM partners WHERE on`: a row is set from one of its partners,
whichever is read first, and a row without a partner stays as it is. -/
def updateFrom (scan : Scan) (on : ρ → σ → Bool) (set : σ → ρ → ρ) (rows : List ρ)
    (partners : List σ) : List ρ :=
  rows.map fun row =>
    match (scan.order partners).find? (on row) with
    | some partner => set partner row
    | none => row

/-- If all partners of a row write the same, the order of the partners does not matter. -/
theorem updateFrom_eq_map {scan : Scan} {on : ρ → σ → Bool} {set : σ → ρ → ρ}
    {rows : List ρ} {partners : List σ} {f : ρ → ρ}
    (hset : ∀ row ∈ rows, ∀ partner ∈ partners, on row partner → set partner row = f row)
    (hnone : ∀ row ∈ rows, (∀ partner ∈ partners, ¬ on row partner) → f row = row) :
    updateFrom scan on set rows partners = rows.map f := by
  refine List.map_congr_left fun row hrow => ?_
  cases hfind : (scan.order partners).find? (on row) with
  | some partner =>
    have hmem : partner ∈ partners := scan.mem_order.mp (List.mem_of_find?_eq_some hfind)
    exact hset row hrow partner hmem (List.find?_some hfind)
  | none =>
    refine (hnone row hrow fun partner hpartner hon => ?_).symm
    exact List.find?_eq_none.mp hfind partner (scan.mem_order.mpr hpartner) hon

end UpdateFrom

end DelegationStrategy.Lib
