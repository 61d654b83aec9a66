import DelegationStrategy.Lib.Pages
import DelegationStrategy.Lib.Query

/-!
# Full joins of maps

Two maps are joined by a loop over one of them that replaces the values of the other
(`map.entry(key).or_insert_with(…)`, then changes), and the result is listed in the order of
its keys.

- `get?_mergeInto`: a key of the joined map has a value if it has one on either side.
- `mem_sortedValues`, `pairwise_sortedValues`: the list has each value once, in strict order.
- `get?_ofKeyed`: a map of values that know their keys.
- `isSome_mapM`: when the conversion of all rows succeeds.
-/

namespace DelegationStrategy.Lib

universe u v w

section MergeInto

variable {κ : Type u} {α : Type v} {β : Type w} [DecidableEq κ]
variable {update : κ → Option α → β → α}

/-- The value under the key of each entry is replaced. -/
def mergeInto (update : κ → Option α → β → α) (d : Dict κ α) (entries : List (κ × β)) :
    Dict κ α :=
  entries.foldl (fun d e => d.insert e.1 (update e.1 (d.get? e.1) e.2)) d

theorem get?_mergeInto_of_not_mem {d : Dict κ α} {entries : List (κ × β)} {k : κ}
    (h : k ∉ entries.map Prod.fst) : (mergeInto update d entries).get? k = d.get? k := by
  induction entries generalizing d with
  | nil => rfl
  | cons e entries ih =>
    rw [List.map_cons, List.mem_cons, not_or] at h
    show (mergeInto update (d.insert e.1 _) entries).get? k = d.get? k
    rw [ih h.2, Dict.get?_insert, if_neg h.1]

theorem get?_mergeInto_of_mem {d : Dict κ α} {entries : List (κ × β)} {k : κ} {b : β}
    (hnodup : (entries.map Prod.fst).Nodup) (h : (k, b) ∈ entries) :
    (mergeInto update d entries).get? k = some (update k (d.get? k) b) := by
  induction entries generalizing d with
  | nil => cases h
  | cons e entries ih =>
    rw [List.map_cons, List.nodup_cons] at hnodup
    show (mergeInto update (d.insert e.1 _) entries).get? k = _
    rcases List.mem_cons.mp h with rfl | h
    · rw [get?_mergeInto_of_not_mem hnodup.1, Dict.get?_insert, if_pos rfl]
    · -- a later entry has another key
      have hne : k ≠ e.1 := fun heq =>
        hnodup.1 (heq ▸ List.mem_map_of_mem (f := Prod.fst) h)
      rw [ih hnodup.2 h, Dict.get?_insert, if_neg hne]

end MergeInto

section Scans

variable {κ α β : Type} [DecidableEq κ] {update : κ → Option α → β → α}

/-- **A full join**: the loop over a map updates its keys, in any order. -/
theorem get?_mergeInto (scan : Scan) (d : Dict κ α) (other : Dict κ β) (k : κ) :
    (mergeInto update d (scan.order other.entries)).get? k =
      match other.get? k with
      | some b => some (update k (d.get? k) b)
      | none => d.get? k := by
  have hperm := scan.perm other.entries
  cases hget : other.get? k with
  | some b =>
    exact get?_mergeInto_of_mem ((hperm.map _).nodup_iff.mpr other.nodup)
      (hperm.mem_iff.mpr (Dict.mem_of_get? hget))
  | none =>
    refine get?_mergeInto_of_not_mem fun hmem => Dict.get?_eq_none_iff.mp hget ?_
    exact (hperm.map _).mem_iff.mp hmem

variable [LinearOrder κ]

/-- The values of a map, sorted by a key of their own. -/
def sortedValues (key : α → κ) (scan : Scan) (d : Dict κ α) : List α :=
  sortBy key ((scan.order d.entries).map Prod.snd)

theorem mem_sortedValues {key : α → κ} {scan : Scan} {d : Dict κ α} {a : α} :
    a ∈ sortedValues key scan d ↔ ∃ k, d.get? k = some a := by
  unfold sortedValues
  rw [(sortBy_perm _ _).mem_iff, List.mem_map]
  constructor
  · rintro ⟨e, he, rfl⟩
    exact ⟨e.1, Dict.get?_of_mem (scan.mem_order.mp he)⟩
  · rintro ⟨k, hget⟩
    exact ⟨(k, a), scan.mem_order.mpr (Dict.mem_of_get? hget), rfl⟩

/-- Values that know their keys are listed in strict order. -/
theorem pairwise_sortedValues {key : α → κ} {d : Dict κ α}
    (hkey : ∀ k a, d.get? k = some a → key a = k) (scan : Scan) :
    (sortedValues key scan d).Pairwise fun a a' => key a < key a' := by
  have hkeys : ((scan.order d.entries).map Prod.snd).map key =
      (scan.order d.entries).map Prod.fst := by
    rw [List.map_map]
    refine List.map_congr_left fun e he => ?_
    exact hkey e.1 e.2 (Dict.get?_of_mem (scan.mem_order.mp he))
  have hnodup : ((sortedValues key scan d).map key).Nodup := by
    refine ((sortBy_perm key _).map key).nodup_iff.mpr ?_
    rw [hkeys]
    exact ((scan.perm d.entries).map _).nodup_iff.mpr d.nodup
  have hboth := (pairwise_sortBy key ((scan.order d.entries).map Prod.snd)).and
    (List.pairwise_map.mp hnodup)
  exact hboth.imp fun h => lt_of_le_of_ne h.1 h.2

end Scans

/-- A map that is filled with values under keys of their own. -/
theorem get?_ofKeyed {κ : Type u} {α : Type v} [DecidableEq κ] {key : α → κ} {values : List α}
    (hnd : (values.map key).Nodup) {k : κ} {a : α} :
    (Dict.ofList (values.map fun a => (key a, a))).get? k = some a ↔ a ∈ values ∧ key a = k := by
  have hkeys : ((values.map fun a => (key a, a)).map Prod.fst).Nodup := by
    rw [List.map_map]
    exact hnd
  constructor
  · intro h
    have hmem := Dict.mem_of_get? h
    rw [Dict.entries_ofList hkeys] at hmem
    obtain ⟨a', ha', heq⟩ := List.mem_map.mp hmem
    cases heq
    exact ⟨ha', rfl⟩
  · rintro ⟨ha, rfl⟩
    refine Dict.get?_of_mem ?_
    rw [Dict.entries_ofList hkeys]
    exact List.mem_map_of_mem ha

/-- Rows are converted if each of them is. -/
theorem isSome_mapM {α : Type u} {β : Type v} {f : α → Option β} {l : List α} :
    (l.mapM f).isSome ↔ ∀ a ∈ l, (f a).isSome := by
  constructor
  · intro h a ha
    obtain ⟨l', hl'⟩ := Option.isSome_iff_exists.mp h
    obtain ⟨b, hb⟩ := exists_of_mapM hl' ha
    rw [hb]
    rfl
  · intro h
    induction l with
    | nil => rfl
    | cons a l ih =>
      obtain ⟨b, hb⟩ := Option.isSome_iff_exists.mp (h a List.mem_cons_self)
      obtain ⟨l', hl'⟩ := Option.isSome_iff_exists.mp
        (ih fun a' ha' => h a' (List.mem_cons_of_mem _ ha'))
      rw [List.mapM_cons, hb, hl']
      rfl

end DelegationStrategy.Lib
