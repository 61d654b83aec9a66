import DelegationStrategy.Lib.Query

/-!
# Entries of a map

A loop over rows that replaces, for each row, the value under the key of the row
(`map.entry(key).or_insert_with(…)`, then changes). A key sees its own rows only.

- `get?_foldlM_stepEntry`: the value of a key is that of the loop over its rows.
- `entry_rule`: the rule for what such a value is made of: what the first row of a key
  makes of nothing, and what every later row makes of the value there is.
- `foldlM_keeps`: a view of the state that no step changes.
- `filter_entries`, `flatMap_entries`: a loop over a map sees each key once, in any order.
-/

namespace DelegationStrategy.Lib

universe u v w

section Entries

variable {ρ : Type w} {κ : Type u} {α : Type v} [DecidableEq κ]
variable {key : ρ → κ} {step : Option α → ρ → Option α}

/-- The value under the key of a row is replaced; the loop stops if there is none to
replace it. -/
def stepEntry (key : ρ → κ) (step : Option α → ρ → Option α) (d : Dict κ α) (row : ρ) :
    Option (Dict κ α) :=
  (step (d.get? (key row)) row).map (d.insert (key row))

/-- **One key**: its value is that of the loop over its own rows. -/
theorem get?_foldlM_stepEntry {rows : List ρ} {d d' : Dict κ α}
    (h : rows.foldlM (stepEntry key step) d = some d') (k : κ) :
    (rows.filter fun row => key row = k).foldlM (fun value row => (step value row).map some)
      (d.get? k) = some (d'.get? k) := by
  induction rows generalizing d with
  | nil =>
    obtain rfl := Option.some.inj h
    rfl
  | cons row rows ih =>
    rw [List.foldlM_cons] at h
    obtain ⟨d₁, hrow, hrest⟩ := Option.bind_eq_some_iff.mp h
    obtain ⟨a, ha, rfl⟩ := Option.map_eq_some_iff.mp hrow
    have hrec := ih hrest
    rw [Dict.get?_insert] at hrec
    by_cases hk : key row = k
    · subst hk
      simpa [ha] using hrec
    · simpa [hk, Ne.symm hk] using hrec

/-- A value that is there is made of the rows so far, and of every later row. -/
theorem entry_loop {P : List ρ → α → Prop}
    (hnext : ∀ past row a a', P past a → step (some a) row = some a' → P (past ++ [row]) a')
    {past rest : List ρ} {a : α} {value : Option α} (ha : P past a)
    (h : rest.foldlM (fun value row => (step value row).map some) (some a) = some value) :
    ∃ a', value = some a' ∧ P (past ++ rest) a' := by
  induction rest generalizing past a with
  | nil => exact ⟨a, (Option.some.inj h).symm, by simpa using ha⟩
  | cons row rest ih =>
    rw [List.foldlM_cons] at h
    obtain ⟨_, hrow, hrest⟩ := Option.bind_eq_some_iff.mp h
    obtain ⟨a₁, ha₁, rfl⟩ := Option.map_eq_some_iff.mp hrow
    rw [List.append_cons]
    exact ih (hnext past row a a₁ ha ha₁) hrest

/-- **Rule of entries**: a key without rows has no value, and any other has a value made of
its rows in their order. -/
theorem entry_rule {P : List ρ → α → Prop} {rows : List ρ} {d : Dict κ α}
    (hfirst : ∀ row a, step none row = some a → P [row] a)
    (hnext : ∀ past row a a', P past a → step (some a) row = some a' → P (past ++ [row]) a')
    (h : rows.foldlM (stepEntry key step) Dict.empty = some d) (k : κ) :
    (d.get? k = none ∧ (rows.filter fun row => key row = k) = []) ∨
      ∃ a, d.get? k = some a ∧ P (rows.filter fun row => key row = k) a := by
  have hrun := get?_foldlM_stepEntry h k
  have hempty : (Dict.empty : Dict κ α).get? k = none := rfl
  rw [hempty] at hrun
  cases hrows : rows.filter fun row => key row = k with
  | nil =>
    rw [hrows] at hrun
    exact Or.inl ⟨(Option.some.inj hrun).symm, rfl⟩
  | cons row rest =>
    rw [hrows, List.foldlM_cons] at hrun
    obtain ⟨_, hrow, hrest⟩ := Option.bind_eq_some_iff.mp hrun
    obtain ⟨a, ha, rfl⟩ := Option.map_eq_some_iff.mp hrow
    exact Or.inr (entry_loop hnext (hfirst row a ha) hrest)

end Entries

/-- What no step of a loop changes, the loop does not change. -/
theorem foldlM_keeps {α β γ : Type*} {f : β → α → Option β} {view : β → γ}
    (hstep : ∀ b a b', f b a = some b' → view b' = view b) {l : List α} {b b' : β}
    (h : l.foldlM f b = some b') : view b' = view b := by
  induction l generalizing b with
  | nil =>
    obtain rfl := Option.some.inj h
    rfl
  | cons a l ih =>
    rw [List.foldlM_cons] at h
    obtain ⟨b₁, hfirst, hrest⟩ := Option.bind_eq_some_iff.mp h
    exact (ih hrest).trans (hstep b a b₁ hfirst)

section Scans

variable {κ α : Type} [DecidableEq κ]

/-- A map is scanned in any order, and has a key at most once. -/
theorem filter_entries (scan : Scan) (d : Dict κ α) (k : κ) :
    (scan.order d.entries).filter (fun e => e.1 = k) = ((d.get? k).map fun a => (k, a)).toList := by
  have hnodup : ((scan.order d.entries).map Prod.fst).Nodup :=
    ((scan.perm _).map _).nodup_iff.mpr d.nodup
  rcases filter_key_of_nodup hnodup k with ⟨hno, hnil⟩ | ⟨e, he, rfl, hone⟩
  · have hget : d.get? k = none := by
      refine Dict.get?_eq_none_iff.mpr fun hmem => ?_
      obtain ⟨e, he, heq⟩ := List.mem_map.mp hmem
      exact hno e (scan.mem_order.mpr he) heq
    rw [hnil, hget]
    rfl
  · rw [hone, Dict.get?_of_mem (scan.mem_order.mp he)]
    rfl

/-- What a loop over a map makes for one key is made of its value. -/
theorem flatMap_entries {β : Type*} (scan : Scan) (d : Dict κ α) (k : κ) (f : κ × α → List β) :
    ((scan.order d.entries).flatMap fun e => if e.1 = k then f e else []) =
      ((d.get? k).map fun a => f (k, a)).getD [] := by
  have hfilter : ∀ entries : List (κ × α),
      (entries.flatMap fun e => if e.1 = k then f e else []) =
        (entries.filter fun e => e.1 = k).flatMap f := by
    intro entries
    induction entries with
    | nil => rfl
    | cons e entries ih =>
      rw [List.flatMap_cons, ih]
      by_cases hk : e.1 = k <;> simp [hk]
  rw [hfilter, filter_entries]
  cases d.get? k with
  | none => rfl
  | some a => exact List.append_nil _

end Scans

end DelegationStrategy.Lib
