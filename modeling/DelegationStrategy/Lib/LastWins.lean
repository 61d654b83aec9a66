import DelegationStrategy.Lib.Query
import Mathlib.Algebra.BigOperators.Group.List.Basic
import Mathlib.Algebra.Order.Monoid.NatCast
import Mathlib.Algebra.Ring.Nat

/-!
# The last row of each key

Rows that are collected into a map overwrite each other: of the rows with one key the
last stays (`lastOfKey`) and the others are lost (`overwritten`).

- `perm_lastOfKey`: every row stays or is lost.
- `entries_ofList_perm`: the entries of the map are the rows that stay.
- `sum_lastOfKey_eq_iff`: amounts that are not negative are conserved exactly if every
  amount that is lost is zero.
-/

namespace DelegationStrategy.Lib

universe u v

variable {ρ : Type u} {κ : Type v} [DecidableEq κ] (key : ρ → κ)

/-- The rows that no row with their key follows. -/
def lastOfKey : List ρ → List ρ
  | [] => []
  | row :: rows => if key row ∈ rows.map key then lastOfKey rows else row :: lastOfKey rows

/-- The rows that a row with their key follows. -/
def overwritten : List ρ → List ρ
  | [] => []
  | row :: rows => if key row ∈ rows.map key then row :: overwritten rows else overwritten rows

variable {key}

theorem perm_lastOfKey (key : ρ → κ) (rows : List ρ) :
    (lastOfKey key rows ++ overwritten key rows).Perm rows := by
  induction rows with
  | nil => exact List.Perm.refl _
  | cons row rows ih =>
    by_cases h : key row ∈ rows.map key
    · simp only [lastOfKey, overwritten, if_pos h]
      exact List.perm_middle.trans (ih.cons row)
    · simp only [lastOfKey, overwritten, if_neg h]
      exact ih.cons row

/-- Every key keeps a row. -/
theorem mem_map_lastOfKey {rows : List ρ} {k : κ} :
    k ∈ (lastOfKey key rows).map key ↔ k ∈ rows.map key := by
  induction rows with
  | nil => rfl
  | cons row rows ih =>
    by_cases h : key row ∈ rows.map key
    · simp only [lastOfKey, if_pos h]
      rw [ih, List.map_cons, List.mem_cons]
      constructor
      · exact Or.inr
      · rintro (rfl | hk)
        · exact h
        · exact hk
    · simp only [lastOfKey, if_neg h, List.map_cons, List.mem_cons]
      rw [ih]

theorem nodup_lastOfKey (rows : List ρ) : ((lastOfKey key rows).map key).Nodup := by
  induction rows with
  | nil => exact List.nodup_nil
  | cons row rows ih =>
    by_cases h : key row ∈ rows.map key
    · simpa only [lastOfKey, if_pos h] using ih
    · simp only [lastOfKey, if_neg h, List.map_cons]
      exact List.nodup_cons.mpr ⟨fun hmem => h (mem_map_lastOfKey.mp hmem), ih⟩

/-- A row stays if no row with its key follows. -/
theorem mem_lastOfKey {rows : List ρ} {row : ρ} :
    row ∈ lastOfKey key rows ↔
      ∃ before after, rows = before ++ row :: after ∧ key row ∉ after.map key := by
  induction rows with
  | nil => simp [lastOfKey]
  | cons first rows ih =>
    constructor
    · intro h
      have hcases : row ∈ lastOfKey key rows ∨ (row = first ∧ key first ∉ rows.map key) := by
        by_cases hkey : key first ∈ rows.map key
        · simp only [lastOfKey, if_pos hkey] at h
          exact Or.inl h
        · simp only [lastOfKey, if_neg hkey] at h
          exact (List.mem_cons.mp h).elim (fun heq => Or.inr ⟨heq, hkey⟩) Or.inl
      rcases hcases with hmem | ⟨rfl, hkey⟩
      · obtain ⟨before, after, rfl, hafter⟩ := ih.mp hmem
        exact ⟨first :: before, after, rfl, hafter⟩
      · exact ⟨[], rows, rfl, hkey⟩
    · rintro ⟨before, after, heq, hafter⟩
      cases before with
      | nil =>
        obtain ⟨rfl, rfl⟩ := List.cons.inj heq
        simp only [lastOfKey, if_neg hafter]
        exact List.mem_cons_self
      | cons first' before =>
        obtain ⟨rfl, rfl⟩ := List.cons.inj heq
        have hmem := ih.mpr ⟨before, after, rfl, hafter⟩
        unfold lastOfKey
        split
        · exact hmem
        · exact List.mem_cons_of_mem _ hmem

/-! ## Collecting into a map -/

variable {α : Type u}

theorem mem_foldl_insert {rows : List (κ × α)} {d : Dict κ α} {e : κ × α} :
    e ∈ (rows.foldl (fun d e => d.insert e.1 e.2) d).entries ↔
      e ∈ lastOfKey Prod.fst rows ∨ (e ∈ d.entries ∧ e.1 ∉ rows.map Prod.fst) := by
  induction rows generalizing d with
  | nil => simp [lastOfKey]
  | cons row rows ih =>
    rw [List.foldl_cons, ih, Dict.mem_insert]
    by_cases h : row.1 ∈ rows.map Prod.fst
    · simp only [lastOfKey, if_pos h, List.map_cons, List.mem_cons, not_or]
      grind
    · simp only [lastOfKey, if_neg h, List.map_cons, List.mem_cons, not_or]
      grind

/-- **The entries of the map** are the last rows of the keys. -/
theorem entries_ofList_perm (rows : List (κ × α)) :
    (Dict.ofList rows).entries.Perm (lastOfKey Prod.fst rows) := by
  refine (List.perm_ext_iff_of_nodup (Dict.ofList rows).nodup.of_map
    (nodup_lastOfKey rows).of_map).mpr fun e => ?_
  refine mem_foldl_insert.trans ⟨fun h => ?_, Or.inl⟩
  exact h.resolve_right fun hempty => nomatch hempty.1

/-- **A value in the map** is that of the last row with its key. -/
theorem get?_ofList_iff {rows : List (κ × α)} {k : κ} {a : α} :
    (Dict.ofList rows).get? k = some a ↔
      ∃ before after, rows = before ++ (k, a) :: after ∧ k ∉ after.map Prod.fst := by
  have hget : (Dict.ofList rows).get? k = some a ↔ (k, a) ∈ lastOfKey Prod.fst rows := by
    rw [← (entries_ofList_perm rows).mem_iff]
    exact ⟨Dict.mem_of_get?, Dict.get?_of_mem⟩
  exact hget.trans mem_lastOfKey

/-- Rows that come again and again, but have one value for each key, are collected once. -/
theorem entries_ofList_perm_of_mem {rows rows' : List (κ × α)} (hnd : (rows'.map Prod.fst).Nodup)
    (h : ∀ e, e ∈ rows ↔ e ∈ rows') : (Dict.ofList rows).entries.Perm rows' := by
  refine (List.perm_ext_iff_of_nodup (Dict.ofList rows).nodup.of_map hnd.of_map).mpr fun e => ?_
  constructor
  · exact fun he => (h e).mp (Dict.mem_of_mem_ofList he)
  · intro he
    obtain ⟨k, a⟩ := e
    refine Dict.mem_of_get? (Dict.get?_ofList ((h _).mpr he) fun a' ha' => ?_)
    exact congrArg Prod.snd (List.inj_on_of_nodup_map hnd ((h _).mp ha') he rfl)

theorem lastOfKey_map {τ : Type v} {f : ρ → τ} {key' : τ → κ} (hf : ∀ row, key' (f row) = key row)
    (rows : List ρ) : lastOfKey key' (rows.map f) = (lastOfKey key rows).map f := by
  have hkeys : ∀ l : List ρ, (l.map f).map key' = l.map key := fun l => by
    rw [List.map_map]
    exact List.map_congr_left fun row _ => hf row
  induction rows with
  | nil => rfl
  | cons row rows ih =>
    rw [List.map_cons]
    unfold lastOfKey
    rw [hkeys, hf, ih]
    split
    · rfl
    · rfl

/-! ## Sums -/

theorem sum_lastOfKey_add (key : ρ → κ) (amount : ρ → Nat) (rows : List ρ) :
    ((lastOfKey key rows).map amount).sum + ((overwritten key rows).map amount).sum =
      (rows.map amount).sum := by
  have h := ((perm_lastOfKey key rows).map amount).sum_eq
  rwa [List.map_append, List.sum_append] at h

/-- **Conservation**: the amounts that stay are the sum of all exactly if the amounts that
are lost are zero. -/
theorem sum_lastOfKey_eq_iff (key : ρ → κ) (amount : ρ → Nat) (rows : List ρ) :
    ((lastOfKey key rows).map amount).sum = (rows.map amount).sum ↔
      ∀ row ∈ overwritten key rows, amount row = 0 := by
  rw [← sum_lastOfKey_add key amount rows, eq_comm, Nat.add_eq_left,
    List.sum_eq_zero_iff_forall_eq_nat, List.forall_mem_map]

end DelegationStrategy.Lib
