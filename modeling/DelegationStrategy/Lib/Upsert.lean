import DelegationStrategy.Lib.Query
import Mathlib.Data.List.Perm.Basic

/-!
# Upserts

A table whose rows are unique by a key, and `INSERT … ON CONFLICT (key) DO UPDATE`
of one row: a row with the key is merged with the new row, which otherwise joins the
table. A merge keeps the key (`hmerge`).

- `rowOf`: the row with a key. With unique keys it is the whole table
  (`mem_iff_rowOf`), so an upsert is known by what `rowOf` returns after it:
  `rowOf_upsert_self` for the key of the new row, `rowOf_upsert_of_ne` for the others.
- `nodup_upsert`: keys stay unique.
- `rowOf_upsertAll`: the same for a list of new rows with distinct keys;
  `upsert_eq_self`: an upsert that changes nothing.
- `upsertAll_eq_append`: new rows with new keys.
- `perm_of_rowOf`: two tables that agree on every key hold the same rows.
-/

namespace DelegationStrategy.Lib

universe u v w

variable {ρ : Type u} {κ : Type v} [DecidableEq κ] (key : ρ → κ) (merge : ρ → ρ → ρ)

/-- The row with a key. -/
def rowOf (rows : List ρ) (k : κ) : Option ρ := rows.find? fun r => key r = k

/-- Merge a row into the table or append it. -/
def upsert (rows : List ρ) (new : ρ) : List ρ :=
  if key new ∈ rows.map key then
    rows.map fun r => if key r = key new then merge r new else r
  else rows ++ [new]

/-- The rows of a list, one after the other. -/
def upsertAll (rows news : List ρ) : List ρ := news.foldl (upsert key merge) rows

variable {key} {merge}

/-! ## The rows of a table -/

theorem rowOf_eq_none_iff {rows : List ρ} {k : κ} : rowOf key rows k = none ↔ k ∉ rows.map key := by
  unfold rowOf
  rw [List.find?_eq_none]
  constructor
  · intro h hk
    obtain ⟨r, hr, rfl⟩ := List.mem_map.mp hk
    simpa using h r hr
  · intro h r hr
    simp only [decide_eq_true_eq]
    rintro rfl
    exact h (List.mem_map_of_mem hr)

theorem mem_of_rowOf {rows : List ρ} {k : κ} {r : ρ} (h : rowOf key rows k = some r) :
    r ∈ rows ∧ key r = k :=
  ⟨List.mem_of_find?_eq_some h, by simpa using List.find?_some h⟩

/-- With unique keys a row is what its key finds. -/
theorem mem_iff_rowOf {rows : List ρ} (hnd : (rows.map key).Nodup) {r : ρ} :
    r ∈ rows ↔ rowOf key rows (key r) = some r := by
  constructor
  · intro hr
    cases hrow : rowOf key rows (key r) with
    | none => exact absurd (List.mem_map_of_mem hr) (rowOf_eq_none_iff.mp hrow)
    | some r' =>
      obtain ⟨hr', hkey⟩ := mem_of_rowOf hrow
      rw [List.inj_on_of_nodup_map hnd hr' hr hkey]
  · intro h
    exact (mem_of_rowOf h).1

/-- With unique keys it is the only row with its key. -/
theorem filter_eq_of_rowOf {rows : List ρ} (hnd : (rows.map key).Nodup) {k : κ} {r : ρ}
    (h : rowOf key rows k = some r) : (rows.filter fun r => key r = k) = [r] := by
  obtain ⟨hr, hk⟩ := mem_of_rowOf h
  rcases filter_key_of_nodup hnd k with ⟨hno, -⟩ | ⟨r', hr', hk', hone⟩
  · exact absurd hk (hno r hr)
  · rw [hone, List.inj_on_of_nodup_map hnd hr' hr (hk'.trans hk.symm)]

/-- Tables that agree on every key, up to `f`, hold the same rows up to `f`. -/
theorem perm_of_rowOf {τ : Type w} (f : ρ → τ) (keyOf : τ → κ) (hf : ∀ r, keyOf (f r) = key r)
    {rows rows' : List ρ} (hnd : (rows.map key).Nodup) (hnd' : (rows'.map key).Nodup)
    (h : ∀ k, (rowOf key rows k).map f = (rowOf key rows' k).map f) :
    (rows.map f).Perm (rows'.map f) := by
  have hmap : ∀ l : List ρ, (l.map f).map keyOf = l.map key := fun l => by
    rw [List.map_map]
    exact List.map_congr_left fun r _ => hf r
  have hdistinct : ∀ l : List ρ, (l.map key).Nodup → (l.map f).Nodup := fun l hl =>
    List.Nodup.of_map keyOf (by rwa [hmap])
  refine (List.perm_ext_iff_of_nodup (hdistinct _ hnd) (hdistinct _ hnd')).mpr fun t => ?_
  -- a value is in either table exactly if its key finds it there
  have hmem : ∀ l : List ρ, (l.map key).Nodup →
      (t ∈ l.map f ↔ (rowOf key l (keyOf t)).map f = some t) := fun l hl => by
    constructor
    · intro ht
      obtain ⟨r, hr, rfl⟩ := List.mem_map.mp ht
      rw [hf, (mem_iff_rowOf hl).mp hr]
      rfl
    · intro ht
      obtain ⟨r, hr, rfl⟩ := Option.map_eq_some_iff.mp ht
      exact List.mem_map_of_mem (mem_of_rowOf hr).1
  rw [hmem rows hnd, hmem rows' hnd', h]

/-- A map that keeps the keys. -/
theorem rowOf_map {f : ρ → ρ} (hf : ∀ r, key (f r) = key r) (rows : List ρ) (k : κ) :
    rowOf key (rows.map f) k = (rowOf key rows k).map f := by
  unfold rowOf
  rw [List.find?_map]
  congr 2
  funext r
  simp [hf]

theorem rowOf_filter (p : κ → Prop) [DecidablePred p] (rows : List ρ) (k : κ) :
    rowOf key (rows.filter fun r => p (key r)) k = if p k then rowOf key rows k else none := by
  unfold rowOf
  rw [List.find?_filter]
  by_cases hp : p k
  · rw [if_pos hp]
    congr 1
    funext r
    by_cases hk : key r = k
    · simp [hk, hp]
    · simp [hk]
  · rw [if_neg hp, List.find?_eq_none]
    intro r _ h
    obtain ⟨hpr, rfl⟩ : p (key r) ∧ key r = k := by simpa using h
    exact hp hpr

/-! ## Merges that change nothing -/

/-- A merge that changes nothing. -/
theorem upsert_eq_self {rows : List ρ} (hnd : (rows.map key).Nodup) {r new : ρ}
    (hrow : rowOf key rows (key new) = some r) (hsame : merge r new = r) :
    upsert key merge rows new = rows := by
  obtain ⟨hr, hkey⟩ := mem_of_rowOf hrow
  unfold upsert
  rw [if_pos (hkey ▸ List.mem_map_of_mem hr)]
  refine (List.map_congr_left fun r' hr' => ?_).trans (List.map_id rows)
  show (if key r' = key new then merge r' new else r') = r'
  split
  · next hk =>
    obtain rfl := List.inj_on_of_nodup_map hnd hr' hr (hk.trans hkey.symm)
    exact hsame
  · rfl

theorem upsertAll_eq_self {rows news : List ρ} (hnd : (rows.map key).Nodup)
    (h : ∀ new ∈ news, ∃ r, rowOf key rows (key new) = some r ∧ merge r new = r) :
    upsertAll key merge rows news = rows := by
  induction news with
  | nil => rfl
  | cons new news ih =>
    obtain ⟨r, hrow, hsame⟩ := h new List.mem_cons_self
    show upsertAll key merge (upsert key merge rows new) news = rows
    rw [upsert_eq_self hnd hrow hsame]
    exact ih fun new' hnew' => h new' (List.mem_cons_of_mem _ hnew')

/-- Rows with new keys join the table as they are. -/
theorem upsertAll_eq_append {rows news : List ρ} (hnd : (news.map key).Nodup)
    (hnew : ∀ new ∈ news, key new ∉ rows.map key) :
    upsertAll key merge rows news = rows ++ news := by
  induction news generalizing rows with
  | nil => exact (List.append_nil rows).symm
  | cons new news ih =>
    obtain ⟨hfirst, hnd⟩ := List.nodup_cons.mp hnd
    have happend : upsert key merge rows new = rows ++ [new] :=
      if_neg (hnew new List.mem_cons_self)
    show upsertAll key merge (upsert key merge rows new) news = _
    rw [happend, List.append_cons rows new news]
    refine ih hnd fun new' hnew' => ?_
    rw [List.map_append, List.mem_append, List.map_singleton, List.mem_singleton]
    rintro (hold | hsame)
    · exact hnew new' (List.mem_cons_of_mem _ hnew') hold
    · exact hfirst (hsame ▸ List.mem_map_of_mem hnew')

/-! ## One upsert -/

variable (hmerge : ∀ r new, key (merge r new) = key r)

include hmerge

theorem key_merge_or_self (new r : ρ) :
    key (if key r = key new then merge r new else r) = key r := by
  split
  · exact hmerge r new
  · rfl

theorem nodup_upsert {rows : List ρ} (hnd : (rows.map key).Nodup) (new : ρ) :
    ((upsert key merge rows new).map key).Nodup := by
  unfold upsert
  by_cases h : key new ∈ rows.map key
  · rw [if_pos h, List.map_map]
    rw [show key ∘ (fun r => if key r = key new then merge r new else r) = key from
      funext (key_merge_or_self hmerge new)]
    exact hnd
  · rw [if_neg h, List.map_append, List.nodup_append]
    refine ⟨hnd, List.nodup_singleton _, ?_⟩
    rintro k hk k' hk' rfl
    obtain rfl := List.mem_singleton.mp hk'
    exact h hk

theorem rowOf_upsert_of_ne (rows : List ρ) {new : ρ} {k : κ} (hk : k ≠ key new) :
    rowOf key (upsert key merge rows new) k = rowOf key rows k := by
  unfold upsert
  by_cases h : key new ∈ rows.map key
  · rw [if_pos h, rowOf_map (key_merge_or_self hmerge new)]
    cases hrow : rowOf key rows k with
    | none => rfl
    | some r =>
      have hkey : key r ≠ key new := (mem_of_rowOf hrow).2 ▸ hk
      exact congrArg some (if_neg hkey)
  · rw [if_neg h]
    unfold rowOf
    rw [List.find?_append, List.find?_cons_of_neg (by simpa using Ne.symm hk), List.find?_nil,
      Option.or_none]

theorem rowOf_upsert_self (rows : List ρ) (new : ρ) :
    rowOf key (upsert key merge rows new) (key new) =
      some (((rowOf key rows (key new)).map fun r => merge r new).getD new) := by
  unfold upsert
  by_cases h : key new ∈ rows.map key
  · rw [if_pos h, rowOf_map (key_merge_or_self hmerge new)]
    cases hrow : rowOf key rows (key new) with
    | none => exact absurd h (rowOf_eq_none_iff.mp hrow)
    | some r => exact congrArg some (if_pos (mem_of_rowOf hrow).2)
  · rw [if_neg h, rowOf_eq_none_iff.mpr h]
    have hnone : rows.find? (fun r => key r = key new) = none := rowOf_eq_none_iff.mpr h
    unfold rowOf
    rw [List.find?_append, hnone, Option.none_or, List.find?_cons_of_pos (by simp)]
    rfl

/-! ## Several upserts -/

theorem nodup_upsertAll {rows : List ρ} (hnd : (rows.map key).Nodup) (news : List ρ) :
    ((upsertAll key merge rows news).map key).Nodup := by
  induction news generalizing rows with
  | nil => exact hnd
  | cons new news ih => exact ih (nodup_upsert hmerge hnd new)

/-- Rows with distinct keys are merged or join the table, each by its own key. -/
theorem rowOf_upsertAll {news : List ρ} (hnd : (news.map key).Nodup) (rows : List ρ) (k : κ) :
    rowOf key (upsertAll key merge rows news) k =
      match rowOf key news k with
      | none => rowOf key rows k
      | some new => some (((rowOf key rows k).map fun r => merge r new).getD new) := by
  induction news generalizing rows with
  | nil => rfl
  | cons new news ih =>
    obtain ⟨hnew, hnd⟩ := List.nodup_cons.mp hnd
    show rowOf key (upsertAll key merge (upsert key merge rows new) news) k = _
    rw [ih hnd]
    by_cases hk : key new = k
    · -- the key of the first row does not come again
      subst hk
      have hself : rowOf key (new :: news) (key new) = some new :=
        List.find?_cons_of_pos (by simp)
      rw [rowOf_eq_none_iff.mpr hnew, hself]
      exact rowOf_upsert_self hmerge rows new
    · have hother : rowOf key (new :: news) k = rowOf key news k :=
        List.find?_cons_of_neg (by simpa using hk)
      rw [hother, rowOf_upsert_of_ne hmerge rows (Ne.symm hk)]

end DelegationStrategy.Lib
