import Mathlib.Data.Finset.Insert
import Mathlib.Data.List.MinMax
import Mathlib.Data.List.Dedup
import Mathlib.Data.List.Pairwise

/-!
# Unordered collections and the queries on them

A table is a list of rows, a hash map (`Dict`) a list of pairs with distinct
keys; neither a query without `ORDER BY` nor the iteration over a hash map has
an order one may rely on. A `Dict` is one particular iteration, so a statement
about every `Dict` covers every order, and a `Scan` is the order in which a
query returns its rows: any permutation.

- `distinctOn`: `SELECT DISTINCT ON (key) … ORDER BY key, time DESC`, one row of
  greatest `time` for each key.
- `map_filter_eq_iff`: when a filter that selects less leaves nothing out.
- `mem_take_of_pairwise_gt`: how far a number is from the front of a descending list.
- `chunks`: Rust's `slice::chunks`.
-/

namespace DelegationStrategy.Lib

universe u v

/-! ## Hash maps -/

/-- A hash map, in the order of one iteration over it. -/
structure Dict (κ : Type u) (α : Type v) where
  entries : List (κ × α)
  nodup : (entries.map Prod.fst).Nodup

namespace Dict

variable {κ : Type u} {α : Type v}

def empty : Dict κ α := ⟨[], List.nodup_nil⟩

def keys (d : Dict κ α) : List κ := d.entries.map Prod.fst

variable [DecidableEq κ]

/-- The value stored under a key. -/
def get? (d : Dict κ α) (k : κ) : Option α :=
  (d.entries.find? fun e => e.1 = k).map Prod.snd

/-- What `get?` finds is an entry. -/
theorem mem_of_get? {d : Dict κ α} {k : κ} {a : α} (h : d.get? k = some a) :
    (k, a) ∈ d.entries := by
  obtain ⟨⟨k', a'⟩, hfind, rfl⟩ := Option.map_eq_some_iff.mp h
  have hk : k' = k := by simpa using List.find?_some hfind
  subst hk
  exact List.mem_of_find?_eq_some hfind

/-- Keys are distinct, so an entry is what `get?` finds. -/
theorem get?_of_mem {d : Dict κ α} {k : κ} {a : α} (h : (k, a) ∈ d.entries) :
    d.get? k = some a := by
  have key : ∀ l : List (κ × α), (l.map Prod.fst).Nodup → (k, a) ∈ l →
      (l.find? fun e => e.1 = k) = some (k, a) := by
    intro l
    induction l with
    | nil => intro _ hmem; cases hmem
    | cons e l ih =>
      intro hnd hmem
      rw [List.map_cons, List.nodup_cons] at hnd
      rcases List.mem_cons.mp hmem with rfl | hmem
      · simp
      · have hne : e.1 ≠ k := by
          rintro rfl
          exact hnd.1 (List.mem_map.mpr ⟨_, hmem, rfl⟩)
        rw [List.find?_cons_of_neg (by simpa using hne)]
        exact ih hnd.2 hmem
  rw [get?, key d.entries d.nodup h]
  rfl

theorem get?_eq_none_iff {d : Dict κ α} {k : κ} : d.get? k = none ↔ k ∉ d.keys := by
  constructor
  · intro h hk
    obtain ⟨⟨k', a⟩, hmem, rfl⟩ := List.mem_map.mp hk
    rw [get?_of_mem hmem] at h
    cases h
  · intro hk
    cases h : d.get? k with
    | none => rfl
    | some a => exact absurd (List.mem_map.mpr ⟨_, mem_of_get? h, rfl⟩) hk

/-- Two iterations over the same hash map find the same values. -/
theorem get?_perm {d d' : Dict κ α} (h : d.entries.Perm d'.entries) (k : κ) :
    d.get? k = d'.get? k := by
  cases hd : d.get? k with
  | some a => exact (get?_of_mem (h.subset (mem_of_get? hd))).symm
  | none =>
    cases hd' : d'.get? k with
    | none => rfl
    | some a =>
      rw [get?_of_mem (h.symm.subset (mem_of_get? hd'))] at hd
      cases hd

/-! ### Insertion -/

/-- `HashMap::insert`: the value of a key that is there is replaced. -/
def insert (d : Dict κ α) (k : κ) (a : α) : Dict κ α where
  entries := (d.entries.filter fun e => e.1 ≠ k) ++ [(k, a)]
  nodup := by
    rw [List.map_append, List.nodup_append]
    refine ⟨d.nodup.sublist (List.filter_sublist.map _), List.nodup_singleton _, ?_⟩
    rintro k₁ h₁ k₂ h₂ rfl
    obtain ⟨e, he, rfl⟩ := List.mem_map.mp h₁
    obtain rfl : e.1 = k := by simpa using h₂
    simpa using (List.mem_filter.mp he).2

theorem mem_insert {d : Dict κ α} {k k' : κ} {a a' : α} :
    (k', a') ∈ (d.insert k a).entries ↔
      (k' = k ∧ a' = a) ∨ (k' ≠ k ∧ (k', a') ∈ d.entries) := by
  unfold insert
  rw [List.mem_append, List.mem_filter, List.mem_singleton, Prod.mk.injEq]
  simp only [ne_eq, decide_not, Bool.not_eq_eq_eq_not, Bool.not_true, decide_eq_false_iff_not]
  rw [or_comm, and_comm (a := (k', a') ∈ d.entries)]

theorem get?_insert (d : Dict κ α) (k k' : κ) (a : α) :
    (d.insert k a).get? k' = if k' = k then some a else d.get? k' := by
  by_cases hk : k' = k
  · rw [if_pos hk]
    exact get?_of_mem (mem_insert.mpr (Or.inl ⟨hk, rfl⟩))
  · rw [if_neg hk]
    cases hget : d.get? k' with
    | some a' => exact get?_of_mem (mem_insert.mpr (Or.inr ⟨hk, mem_of_get? hget⟩))
    | none =>
      refine get?_eq_none_iff.mpr fun hkey => ?_
      obtain ⟨⟨_, a'⟩, hmem, rfl⟩ := List.mem_map.mp hkey
      rcases mem_insert.mp hmem with ⟨heq, -⟩ | ⟨-, hold⟩
      · exact hk heq
      · rw [get?_of_mem hold] at hget
        cases hget

theorem mem_keys_insert {d : Dict κ α} {k k' : κ} {a : α} :
    k' ∈ (d.insert k a).keys ↔ k' ∈ d.keys ∨ k' = k := by
  constructor
  · intro h
    obtain ⟨⟨k', a'⟩, hmem, rfl⟩ := List.mem_map.mp h
    rcases mem_insert.mp hmem with ⟨hk, -⟩ | ⟨-, hold⟩
    · exact Or.inr hk
    · exact Or.inl (List.mem_map_of_mem hold)
  · intro h
    by_cases hk : k' = k
    · exact List.mem_map.mpr ⟨(k', a), mem_insert.mpr (Or.inl ⟨hk, rfl⟩), rfl⟩
    · obtain ⟨⟨k'', a'⟩, hmem, rfl⟩ := List.mem_map.mp (h.resolve_right hk)
      exact List.mem_map.mpr ⟨(k'', a'), mem_insert.mpr (Or.inr ⟨hk, hmem⟩), rfl⟩

/-- `map.entry(k).or_insert(a)`: the value of a key that is there stays. -/
def orInsert (d : Dict κ α) (k : κ) (a : α) : Dict κ α :=
  if k ∈ d.keys then d else d.insert k a

theorem get?_orInsert (d : Dict κ α) (k k' : κ) (a : α) :
    (d.orInsert k a).get? k' = if k' = k then some ((d.get? k).getD a) else d.get? k' := by
  unfold orInsert
  by_cases hmem : k ∈ d.keys
  · rw [if_pos hmem]
    by_cases hk : k' = k
    · subst hk
      obtain ⟨b, hb⟩ := Option.ne_none_iff_exists'.mp fun h => get?_eq_none_iff.mp h hmem
      simp [hb]
    · rw [if_neg hk]
  · rw [if_neg hmem, get?_insert, get?_eq_none_iff.mpr hmem]
    rfl

/-- Values that depend on the key only: it does not matter which of the rows came first. -/
theorem get?_foldl_orInsert {ρ : Type*} (key : ρ → κ) (f : κ → α) (rows : List ρ) (k : κ) :
    (rows.foldl (fun d r => d.orInsert (key r) (f (key r))) empty).get? k =
      if k ∈ rows.map key then some (f k) else none := by
  induction rows using List.reverseRecOn with
  | nil => rfl
  | append_singleton rows r ih =>
    rw [List.foldl_append, List.foldl_cons, List.foldl_nil, get?_orInsert]
    by_cases hk : k = key r
    · subst hk
      rw [if_pos rfl, ih]
      by_cases hmem : key r ∈ rows.map key
      · simp [hmem]
      · simp [hmem]
    · rw [if_neg hk, ih]
      simp [hk]

/-- The map after inserting pairs one after the other. -/
def ofList (l : List (κ × α)) : Dict κ α := l.foldl (fun d e => d.insert e.1 e.2) empty

theorem ofList_concat (l : List (κ × α)) (e : κ × α) :
    ofList (l ++ [e]) = (ofList l).insert e.1 e.2 := by
  unfold ofList
  rw [List.foldl_append]
  rfl

/-- Every entry was inserted. -/
theorem mem_of_mem_ofList {l : List (κ × α)} {e : κ × α} (h : e ∈ (ofList l).entries) :
    e ∈ l := by
  induction l using List.reverseRecOn with
  | nil => cases h
  | append_singleton l e' ih =>
    rw [ofList_concat] at h
    rcases mem_insert.mp h with ⟨hk, ha⟩ | ⟨-, hold⟩
    · exact List.mem_append_right _ (List.mem_singleton.mpr (Prod.ext hk ha))
    · exact List.mem_append_left _ (ih hold)

/-- A key that was inserted is there. -/
theorem mem_keys_ofList {l : List (κ × α)} {k : κ} :
    k ∈ (ofList l).keys ↔ k ∈ l.map Prod.fst := by
  induction l using List.reverseRecOn with
  | nil => exact Iff.rfl
  | append_singleton l e ih =>
    rw [ofList_concat, mem_keys_insert, ih, List.map_append, List.mem_append]
    exact or_congr_right List.mem_singleton.symm

/-- When all pairs with a key agree, the map has their value. -/
theorem get?_ofList {l : List (κ × α)} {k : κ} {a : α} (h : (k, a) ∈ l)
    (hall : ∀ a', (k, a') ∈ l → a' = a) : (ofList l).get? k = some a := by
  have hk : k ∈ (ofList l).keys := mem_keys_ofList.mpr (List.mem_map_of_mem h)
  obtain ⟨⟨k', a'⟩, hmem, rfl⟩ := List.mem_map.mp hk
  rw [get?_of_mem hmem, hall a' (mem_of_mem_ofList hmem)]

/-- Pairs with distinct keys are all kept. -/
theorem entries_ofList {l : List (κ × α)} (h : (l.map Prod.fst).Nodup) :
    (ofList l).entries = l := by
  induction l using List.reverseRecOn with
  | nil => rfl
  | append_singleton l e ih =>
    rw [List.map_append, List.nodup_append] at h
    have hne : ∀ e' ∈ l, e'.1 ≠ e.1 := fun e' he' =>
      h.2.2 e'.1 (List.mem_map_of_mem he') e.1 (List.mem_singleton_self _)
    rw [ofList_concat]
    show (ofList l).entries.filter _ ++ [e] = _
    rw [ih h.1, List.filter_eq_self.mpr fun e' he' => by simpa using hne e' he']

/-- The same keys with other values. -/
def mapVal {β : Type v} (f : α → β) (d : Dict κ α) : Dict κ β where
  entries := d.entries.map fun e => (e.1, f e.2)
  nodup := by
    rw [List.map_map]
    exact d.nodup

theorem get?_mapVal {β : Type v} (f : α → β) (d : Dict κ α) (k : κ) :
    (d.mapVal f).get? k = (d.get? k).map f := by
  unfold get? mapVal
  rw [List.find?_map, Option.map_map, Option.map_map]
  rfl

theorem mapVal_insert {β : Type v} (f : α → β) (d : Dict κ α) (k : κ) (a : α) :
    (d.insert k a).mapVal f = (d.mapVal f).insert k (f a) := by
  simp [mapVal, insert, List.filter_map, Function.comp_def]

omit [DecidableEq κ] in
theorem ext {d d' : Dict κ α} (h : d.entries = d'.entries) : d = d' := by
  cases d
  cases d'
  cases h
  rfl

/-- The same keys with other values, which may depend on them. -/
def mapKeyed {β : Type v} (f : κ → α → β) (d : Dict κ α) : Dict κ β where
  entries := d.entries.map fun e => (e.1, f e.1 e.2)
  nodup := by
    rw [List.map_map]
    exact d.nodup

theorem get?_mapKeyed {β : Type v} {f : κ → α → β} {d : Dict κ α} {k : κ} {a : α}
    (h : (k, a) ∈ d.entries) : (d.mapKeyed f).get? k = some (f k a) :=
  get?_of_mem (List.mem_map.mpr ⟨(k, a), h, rfl⟩)

/-- What `*map.get_mut(k).unwrap() = a` leaves, if the key is there. -/
def replace (d : Dict κ α) (k : κ) (a : α) : Dict κ α :=
  d.mapKeyed fun k' a' => if k' = k then a else a'

omit [DecidableEq κ] in
/-- A key has one value. -/
theorem eq_of_mem {d : Dict κ α} {e e' : κ × α} (he : e ∈ d.entries) (he' : e' ∈ d.entries)
    (h : e.1 = e'.1) : e = e' :=
  List.inj_on_of_nodup_map d.nodup he he' h

omit [DecidableEq κ] in
/-- The keys of the pairs that are kept. -/
theorem keys_filterMap_sublist {β ρ : Type*} (key : ρ → κ) (f : ρ → Option β) (l : List ρ) :
    ((l.filterMap fun r => (f r).map fun b => (key r, b)).map Prod.fst).Sublist
      (l.map key) := by
  induction l with
  | nil => exact List.Sublist.refl _
  | cons r l ih =>
    rw [List.filterMap_cons, List.map_cons]
    cases f r with
    | none => exact ih.cons _
    | some b => exact ih.cons_cons _

/-- The values for which `f` returns one, under their keys. -/
def filterMapVal {β : Type v} (f : α → Option β) (d : Dict κ α) : Dict κ β where
  entries := d.entries.filterMap fun e => (f e.2).map fun b => (e.1, b)
  nodup := d.nodup.sublist (keys_filterMap_sublist Prod.fst (fun e => f e.2) d.entries)

omit [DecidableEq κ] in
theorem mem_filterMapVal {β : Type v} {f : α → Option β} {d : Dict κ α} {k : κ} {b : β} :
    (k, b) ∈ (d.filterMapVal f).entries ↔ ∃ a, (k, a) ∈ d.entries ∧ f a = some b := by
  unfold filterMapVal
  rw [List.mem_filterMap]
  constructor
  · rintro ⟨⟨k', a⟩, hmem, hf⟩
    obtain ⟨b', hb', heq⟩ := Option.map_eq_some_iff.mp hf
    cases heq
    exact ⟨a, hmem, hb'⟩
  · rintro ⟨a, hmem, hf⟩
    exact ⟨(k, a), hmem, by rw [hf]; rfl⟩

theorem get?_filterMapVal {β : Type v} {f : α → Option β} {d : Dict κ α} {k : κ} :
    (d.filterMapVal f).get? k = (d.get? k).bind f := by
  cases hb : (d.filterMapVal f).get? k with
  | some b =>
    obtain ⟨a, ha, hf⟩ := mem_filterMapVal.mp (mem_of_get? hb)
    rw [get?_of_mem ha]
    exact hf.symm
  | none =>
    cases ha : d.get? k with
    | none => rfl
    | some a =>
      cases hf : f a with
      | none => exact hf.symm
      | some b =>
        have hmem := mem_filterMapVal.mpr ⟨a, mem_of_get? ha, hf⟩
        rw [get?_of_mem hmem] at hb
        cases hb

/-! ### Groups -/

/-- `map.entry(k).or_default().push(a)`. -/
def push (d : Dict κ (List α)) (k : κ) (a : α) : Dict κ (List α) :=
  d.insert k ((d.get? k).getD [] ++ [a])

theorem getD_push (d : Dict κ (List α)) (k k' : κ) (a : α) :
    ((d.push k a).get? k').getD [] = (d.get? k').getD [] ++ if k = k' then [a] else [] := by
  unfold push
  rw [get?_insert]
  by_cases hk : k' = k
  · subst hk
    simp
  · rw [if_neg hk, if_neg (Ne.symm hk), List.append_nil]

/-- Pairs grouped by their keys. -/
def groups (l : List (κ × α)) : Dict κ (List α) := l.foldl (fun d e => d.push e.1 e.2) empty

theorem groups_concat (l : List (κ × α)) (e : κ × α) :
    groups (l ++ [e]) = (groups l).push e.1 e.2 := by
  unfold groups
  rw [List.foldl_append]
  rfl

theorem getD_groups (l : List (κ × α)) (k : κ) :
    ((groups l).get? k).getD [] = (l.filter fun e => e.1 = k).map Prod.snd := by
  induction l using List.reverseRecOn with
  | nil => rfl
  | append_singleton l e ih =>
    rw [groups_concat, getD_push, ih, List.filter_append, List.map_append]
    by_cases hk : e.1 = k
    · rw [if_pos hk, List.filter_cons_of_pos (by simpa using hk)]
      rfl
    · rw [if_neg hk, List.filter_cons_of_neg (by simpa using hk)]
      rfl

/-- A group has the values of its key. -/
theorem mem_groups {l : List (κ × α)} {k : κ} {g : List α} (h : (k, g) ∈ (groups l).entries) :
    g = (l.filter fun e => e.1 = k).map Prod.snd := by
  rw [← getD_groups, get?_of_mem h]
  rfl

theorem mem_keys_groups {l : List (κ × α)} {k : κ} :
    k ∈ (groups l).keys ↔ k ∈ l.map Prod.fst := by
  induction l using List.reverseRecOn with
  | nil => exact Iff.rfl
  | append_singleton l e ih =>
    rw [groups_concat, push, mem_keys_insert, ih, List.map_append, List.mem_append]
    exact or_congr_right List.mem_singleton.symm

/-! ### Sets under keys -/

section AddTo

variable [DecidableEq α]

/-- `map.entry(k).or_default().insert(a)`. -/
def addTo (d : Dict κ (Finset α)) (k : κ) (a : α) : Dict κ (Finset α) :=
  d.insert k (Insert.insert a ((d.get? k).getD ∅))

theorem mem_getD_addTo {d : Dict κ (Finset α)} {k k' : κ} {a a' : α} :
    a' ∈ ((d.addTo k a).get? k').getD ∅ ↔ a' ∈ (d.get? k').getD ∅ ∨ (k' = k ∧ a' = a) := by
  unfold addTo
  rw [get?_insert]
  by_cases hk : k' = k
  · subst hk
    simp [or_comm]
  · simp [hk]

theorem mem_keys_addTo {d : Dict κ (Finset α)} {k k' : κ} {a : α} :
    k' ∈ (d.addTo k a).keys ↔ k' ∈ d.keys ∨ k' = k :=
  mem_keys_insert

end AddTo

end Dict

/-- A computation succeeds if its steps succeed one after the other. -/
theorem bind_eq_ok {ε α β : Type} {x : Except ε α} {f : α → Except ε β} {b : β} :
    (x >>= f) = .ok b ↔ ∃ a, x = .ok a ∧ f a = .ok b := by
  cases x with
  | error e => exact ⟨fun h => (nomatch h), fun ⟨_, h, _⟩ => (nomatch h)⟩
  | ok a =>
    refine ⟨fun h => ⟨a, rfl, h⟩, ?_⟩
    rintro ⟨a', ha, h⟩
    obtain rfl := Except.ok.inj ha
    exact h

theorem map_eq_ok {ε α β : Type} {x : Except ε α} {f : α → β} {b : β} :
    x.map f = .ok b ↔ ∃ a, x = .ok a ∧ b = f a := by
  cases x with
  | error e => exact ⟨fun h => (nomatch h), fun ⟨_, h, _⟩ => (nomatch h)⟩
  | ok a =>
    refine ⟨fun h => ⟨a, rfl, (Except.ok.inj h).symm⟩, ?_⟩
    rintro ⟨a', ha, rfl⟩
    obtain rfl := Except.ok.inj ha
    rfl

/-- What all conversions of rows keep, the converted rows have. -/
theorem map_mapM {α β γ : Type*} {f : α → Option β} {g : β → γ} {g' : α → γ} {l : List α}
    {l' : List β} (hg : ∀ a b, f a = some b → g b = g' a) (h : l.mapM f = some l') :
    l'.map g = l.map g' := by
  induction l generalizing l' with
  | nil =>
    obtain rfl := Option.some.inj h
    rfl
  | cons a l ih =>
    rw [List.mapM_cons] at h
    obtain ⟨b, hb, h⟩ := Option.bind_eq_some_iff.mp h
    obtain ⟨bs, hbs, h⟩ := Option.bind_eq_some_iff.mp h
    obtain rfl := Option.some.inj h
    rw [List.map_cons, List.map_cons, hg a b hb, ih hbs]

/-- The results of a conversion of all rows. -/
theorem map_some_of_mapM {α β : Type*} {f : α → Option β} {l : List α} {l' : List β}
    (h : l.mapM f = some l') : l'.map some = l.map f :=
  map_mapM (fun _ _ hf => hf.symm) h

theorem mem_mapM {α β : Type*} {f : α → Option β} {l : List α} {l' : List β}
    (h : l.mapM f = some l') {b : β} : b ∈ l' ↔ ∃ a ∈ l, f a = some b := by
  rw [← List.mem_map, ← map_some_of_mapM h]
  simp

/-- Every row was converted. -/
theorem exists_of_mapM {α β : Type*} {f : α → Option β} {l : List α} {l' : List β}
    (h : l.mapM f = some l') {a : α} (ha : a ∈ l) : ∃ b, f a = some b := by
  have hmem : f a ∈ l'.map some := map_some_of_mapM h ▸ List.mem_map_of_mem ha
  obtain ⟨b, -, hb⟩ := List.mem_map.mp hmem
  exact ⟨b, hb.symm⟩

/-- Rows with distinct keys, converted one by one and collected into a hash map. -/
theorem mem_ofList_mapM {ρ : Type*} {κ : Type u} {α : Type v} [DecidableEq κ] {key : ρ → κ}
    {f : ρ → Option α} {rows : List ρ} {converted : List (κ × α)} {k : κ} {a : α}
    (hnd : (rows.map key).Nodup)
    (h : rows.mapM (fun r => (f r).map fun a => (key r, a)) = some converted) :
    (k, a) ∈ (Dict.ofList converted).entries ↔ ∃ r ∈ rows, key r = k ∧ f r = some a := by
  have hkeys : converted.map Prod.fst = rows.map key := by
    refine map_mapM (fun r e hr => ?_) h
    obtain ⟨a, -, rfl⟩ := Option.map_eq_some_iff.mp hr
    rfl
  rw [Dict.entries_ofList (hkeys ▸ hnd), mem_mapM h]
  refine exists_congr fun r => and_congr_right fun _ => ?_
  rw [Option.map_eq_some_iff]
  constructor
  · rintro ⟨a', hf, heq⟩
    obtain ⟨hk, rfl⟩ := Prod.mk.inj heq
    exact ⟨hk, hf⟩
  · rintro ⟨hk, hf⟩
    exact ⟨a, hf, Prod.ext hk rfl⟩

/-- A fold whose steps all succeed. -/
theorem isSome_foldlM {α β : Type*} {f : β → α → Option β} {l : List α}
    (h : ∀ a ∈ l, ∀ b, (f b a).isSome) (b : β) : (l.foldlM f b).isSome := by
  induction l generalizing b with
  | nil => rfl
  | cons a l ih =>
    obtain ⟨b', hb⟩ := Option.isSome_iff_exists.mp (h a List.mem_cons_self b)
    rw [List.foldlM_cons, hb]
    exact ih (fun a' ha' => h a' (List.mem_cons_of_mem _ ha')) b'

/-- Rows converted one by one and grouped by a key: a group has the results of its rows
in their order. -/
theorem foldlM_push {ρ : Type*} {κ : Type u} {α : Type v} [DecidableEq κ] {key : ρ → κ}
    {f : ρ → Option α} {rows : List ρ} {d d' : Dict κ (List α)}
    (h : rows.foldlM (fun d r => (f r).map (d.push (key r))) d = some d') :
    (∀ r ∈ rows, (f r).isSome) ∧
      ∀ k, (d'.get? k).getD [] =
        (d.get? k).getD [] ++ (rows.filter fun r => key r = k).filterMap f := by
  induction rows generalizing d with
  | nil =>
    obtain rfl := Option.some.inj h
    exact ⟨fun _ hr => (nomatch hr), fun k => (List.append_nil _).symm⟩
  | cons r rows ih =>
    rw [List.foldlM_cons] at h
    obtain ⟨d₁, hfirst, hrest⟩ := Option.bind_eq_some_iff.mp h
    obtain ⟨a, hf, rfl⟩ := Option.map_eq_some_iff.mp hfirst
    obtain ⟨hall, hgroups⟩ := ih hrest
    constructor
    · intro r' hr'
      rcases List.mem_cons.mp hr' with rfl | hr'
      · rw [hf]
        rfl
      · exact hall r' hr'
    · intro k
      rw [hgroups k, Dict.getD_push]
      by_cases hk : key r = k
      · rw [if_pos hk, List.filter_cons_of_pos (by simpa using hk),
          List.filterMap_cons_some hf, List.append_assoc, List.singleton_append]
      · rw [if_neg hk, List.filter_cons_of_neg (by simpa using hk), List.append_nil]

/-! ## Queries -/

/-- The order in which a query without `ORDER BY` returns the rows of a table. -/
structure Scan where
  order : {ρ : Type} → List ρ → List ρ
  perm : ∀ {ρ : Type} (rows : List ρ), (order rows).Perm rows

/-- The rows as they are stored. -/
def Scan.sequential : Scan := ⟨fun rows => rows, fun _ => List.Perm.refl _⟩

/-- The last row first. -/
def Scan.reverse : Scan := ⟨fun rows => rows.reverse, fun rows => rows.reverse_perm⟩

@[simp] theorem Scan.mem_order {ρ : Type} (s : Scan) {rows : List ρ} {r : ρ} :
    r ∈ s.order rows ↔ r ∈ rows := (s.perm rows).mem_iff

section DistinctOn

variable {ρ : Type u} {κ : Type v} {τ : Type} [DecidableEq κ] [LinearOrder τ]
variable (key : ρ → κ) (time : ρ → τ)

/-- A row of greatest `time` among the rows with key `k`. -/
def latest (rows : List ρ) (k : κ) : Option ρ :=
  (rows.filter fun r => key r = k).argmax time

/-- `SELECT DISTINCT ON (key) … ORDER BY key, time DESC`. -/
def distinctOn (rows : List ρ) : List ρ :=
  ((rows.map key).dedup).filterMap (latest key time rows)

variable {key time}

theorem latest_eq_none_iff {rows : List ρ} {k : κ} :
    latest key time rows k = none ↔ ∀ r ∈ rows, key r ≠ k := by
  rw [latest, List.argmax_eq_none, List.filter_eq_nil_iff]
  simp

theorem latest_spec {rows : List ρ} {k : κ} {r : ρ}
    (h : latest key time rows k = some r) :
    r ∈ rows ∧ key r = k ∧ ∀ r' ∈ rows, key r' = k → time r' ≤ time r := by
  have hmem := List.mem_filter.mp (List.argmax_mem h)
  refine ⟨hmem.1, by simpa using hmem.2, fun r' hr' hk => ?_⟩
  exact List.le_of_mem_argmax (List.mem_filter.mpr ⟨hr', by simpa using hk⟩) h

/-- With distinct times per key, the latest row does not depend on the order of
the rows. -/
theorem latest_perm {rows rows' : List ρ} (h : rows.Perm rows')
    (hinj : ∀ r ∈ rows, ∀ r' ∈ rows, key r = key r' → time r = time r' → r = r')
    (k : κ) : latest key time rows k = latest key time rows' k := by
  cases hl : latest key time rows k with
  | none =>
    refine (latest_eq_none_iff.mpr fun r hr => ?_).symm
    exact latest_eq_none_iff.mp hl r (h.mem_iff.mpr hr)
  | some r =>
    obtain ⟨hr, hk, hmax⟩ := latest_spec hl
    cases hl' : latest key time rows' k with
    | none => exact absurd hk (latest_eq_none_iff.mp hl' r (h.mem_iff.mp hr))
    | some r' =>
      obtain ⟨hr', hk', hmax'⟩ := latest_spec hl'
      have hmem := h.mem_iff.mpr hr'
      have htime : time r = time r' :=
        le_antisymm (hmax' r (h.mem_iff.mp hr) hk) (hmax r' hmem hk')
      rw [hinj r hr r' hmem (hk.trans hk'.symm) htime]

/-- Rows with increasing times per key are told apart by key and time. -/
theorem eq_of_pairwise_lt {rows : List ρ}
    (h : ∀ k, (rows.filter fun r => key r = k).Pairwise fun r r' => time r < time r') :
    ∀ r ∈ rows, ∀ r' ∈ rows, key r = key r' → time r = time r' → r = r' := by
  intro r hr r' hr' hk ht
  have hmem : r ∈ rows.filter fun r => key r = key r' :=
    List.mem_filter.mpr ⟨hr, by simpa using hk⟩
  have hmem' : r' ∈ rows.filter fun r => key r = key r' :=
    List.mem_filter.mpr ⟨hr', by simp⟩
  by_contra hne
  -- of two distinct rows of a key, in either order, one is earlier
  have hpw : (rows.filter fun r => key r = key r').Pairwise fun a b => time a ≠ time b :=
    (h (key r')).imp fun hlt => ne_of_lt hlt
  have : Std.Symm fun a b => time a ≠ time b := ⟨fun _ _ h => h.symm⟩
  exact hpw.forall hmem hmem' hne ht

omit [DecidableEq κ] in
theorem argmax_of_pairwise_lt {rows : List ρ}
    (h : rows.Pairwise fun r r' => time r < time r') :
    rows.argmax time = rows.getLast? := by
  induction rows using List.reverseRecOn with
  | nil => rfl
  | append_singleton l a ih =>
    rw [List.pairwise_append] at h
    rw [List.argmax_concat, List.getLast?_concat, ih h.1]
    cases hl : l.getLast? with
    | none => rfl
    | some c =>
      have hc := List.mem_of_mem_getLast? (Option.mem_def.mpr hl)
      exact if_pos (h.2.2 c hc a (List.mem_singleton_self a))

/-- The latest of rows with increasing times is the last one. -/
theorem latest_of_pairwise_lt {rows : List ρ} {k : κ}
    (h : (rows.filter fun r => key r = k).Pairwise fun r r' => time r < time r') :
    latest key time rows k = (rows.filter fun r => key r = k).getLast? :=
  argmax_of_pairwise_lt h

omit [LinearOrder τ] in
/-- Rows with distinct keys have at most one row of a key. -/
theorem filter_key_of_nodup {rows : List ρ} (hnd : (rows.map key).Nodup) (k : κ) :
    ((∀ r ∈ rows, key r ≠ k) ∧ (rows.filter fun r => key r = k) = []) ∨
      ∃ r ∈ rows, key r = k ∧ (rows.filter fun r => key r = k) = [r] := by
  induction rows with
  | nil => exact Or.inl ⟨fun _ h => (nomatch h), rfl⟩
  | cons r rows ih =>
    rw [List.map_cons, List.nodup_cons] at hnd
    by_cases hk : key r = k
    · refine Or.inr ⟨r, List.mem_cons_self, hk, ?_⟩
      rw [List.filter_cons_of_pos (by simpa using hk)]
      rcases ih hnd.2 with ⟨-, hnil⟩ | ⟨r', hr', hk', -⟩
      · rw [hnil]
      · exact absurd (List.mem_map.mpr ⟨r', hr', hk'.trans hk.symm⟩) hnd.1
    · rw [List.filter_cons_of_neg (by simpa using hk)]
      rcases ih hnd.2 with ⟨hno, hnil⟩ | ⟨r', hr', hk', hone⟩
      · refine Or.inl ⟨fun r' hr' => ?_, hnil⟩
        rcases List.mem_cons.mp hr' with rfl | hr'
        · exact hk
        · exact hno r' hr'
      · exact Or.inr ⟨r', List.mem_cons_of_mem _ hr', hk', hone⟩

/-- Of rows with distinct pairs of a key and a time, those of one time have distinct keys. -/
theorem nodup_map_filter {ρ : Type*} {κ : Type*} {τ : Type*} [DecidableEq τ] {key : ρ → κ}
    {time : ρ → τ} {rows : List ρ} (h : (rows.map fun r => (key r, time r)).Nodup) (t : τ) :
    ((rows.filter fun r => time r = t).map key).Nodup := by
  refine List.Nodup.of_map (fun k => (k, t)) ?_
  have hpairs : (rows.filter fun r => time r = t).map ((fun k => (k, t)) ∘ key) =
      (rows.filter fun r => time r = t).map fun r => (key r, time r) := by
    refine List.map_congr_left fun r hr => ?_
    have ht : time r = t := by simpa using (List.mem_filter.mp hr).2
    exact Prod.ext rfl ht.symm
  rw [List.map_map, hpairs]
  exact h.sublist (List.filter_sublist.map _)

omit [DecidableEq κ] [LinearOrder τ] in
/-- A property that no two rows share selects the one row that has it. -/
theorem filter_eq_singleton {p : ρ → Prop} [DecidablePred p] {rows : List ρ}
    (h : rows.Pairwise fun r r' => ¬ (p r ∧ p r')) {r : ρ} (hr : r ∈ rows) (hp : p r) :
    rows.filter p = [r] := by
  induction rows with
  | nil => cases hr
  | cons a rows ih =>
    obtain ⟨ha, hrest⟩ := List.pairwise_cons.mp h
    rcases List.mem_cons.mp hr with rfl | hr
    · rw [List.filter_cons_of_pos (by simpa using hp)]
      congr 1
      exact List.filter_eq_nil_iff.mpr fun r' hr' hp' => ha r' hr' ⟨hp, by simpa using hp'⟩
    · rw [List.filter_cons_of_neg (by simpa using fun hpa => ha r hr ⟨hpa, hp⟩)]
      exact ih hrest hr

/-- The rows `DISTINCT ON` returns are the latest ones of their keys. -/
theorem mem_distinctOn {rows : List ρ} {r : ρ} :
    r ∈ distinctOn key time rows ↔ latest key time rows (key r) = some r := by
  rw [distinctOn, List.mem_filterMap]
  constructor
  · rintro ⟨k, -, hk⟩
    obtain ⟨-, rfl, -⟩ := latest_spec hk
    exact hk
  · intro h
    have hmem := (latest_spec h).1
    exact ⟨key r, List.mem_dedup.mpr (List.mem_map.mpr ⟨r, hmem, rfl⟩), h⟩

/-- `DISTINCT ON` returns a row for each key. -/
theorem exists_mem_distinctOn {rows : List ρ} {r : ρ} (h : r ∈ rows) :
    ∃ r' ∈ distinctOn key time rows, key r' = key r := by
  cases hl : latest key time rows (key r) with
  | none => exact absurd rfl (latest_eq_none_iff.mp hl r h)
  | some r' =>
    obtain ⟨-, hk, -⟩ := latest_spec hl
    exact ⟨r', mem_distinctOn.mpr (hk ▸ hl), hk⟩

/-- `DISTINCT ON` returns one row for each key. -/
theorem nodup_distinctOn (rows : List ρ) : ((distinctOn key time rows).map key).Nodup := by
  have hsub : ∀ ks : List κ,
      ((ks.filterMap (latest key time rows)).map key).Sublist ks := by
    intro ks
    induction ks with
    | nil => exact List.Sublist.refl _
    | cons k ks ih =>
      rw [List.filterMap_cons]
      cases hl : latest key time rows k with
      | none => exact ih.cons _
      | some r =>
        obtain ⟨-, rfl, -⟩ := latest_spec hl
        exact ih.cons_cons _
  exact (List.nodup_dedup _).sublist (hsub _)

/-- What holds of the latest row of a key holds of the row that is returned for it. -/
theorem any_latest_iff {rows : List ρ} {k : κ} {p : ρ → Bool} :
    (latest key time rows k).any p = true ↔
      ∃ r ∈ distinctOn key time rows, key r = k ∧ p r = true := by
  rw [Option.any_eq_true]
  constructor
  · rintro ⟨r, hr, hp⟩
    obtain ⟨-, rfl, -⟩ := latest_spec hr
    exact ⟨r, mem_distinctOn.mpr hr, rfl, hp⟩
  · rintro ⟨r, hr, rfl, hp⟩
    exact ⟨r, mem_distinctOn.mp hr, hp⟩

/-- The row that `DISTINCT ON` returns for a key is the latest one. -/
theorem find?_distinctOn (rows : List ρ) (k : κ) :
    (distinctOn key time rows).find? (fun r => decide (key r = k)) = latest key time rows k := by
  cases hfind : (distinctOn key time rows).find? fun r => decide (key r = k) with
  | none =>
    refine (latest_eq_none_iff.mpr fun r hr hk => ?_).symm
    obtain ⟨r', hr', hk'⟩ : ∃ r' ∈ distinctOn key time rows, key r' = key r :=
      exists_mem_distinctOn hr
    simpa [hk', hk] using List.find?_eq_none.mp hfind r' hr'
  | some r =>
    have hk : key r = k := by simpa using List.find?_some hfind
    rw [← hk]
    exact (mem_distinctOn.mp (List.mem_of_find?_eq_some hfind)).symm

end DistinctOn

/-! ## Filters -/

/-- A filter that selects less leaves nothing out exactly if it selects the same. -/
theorem map_filter_eq_iff {α β : Type*} {f : α → β} {p q : α → Bool} {l : List α}
    (h : ∀ a, p a → q a) :
    (l.filter p).map f = (l.filter q).map f ↔ ∀ a ∈ l, q a → p a := by
  constructor
  · intro heq a ha hq
    have hlen : (l.filter p).length = (l.filter q).length := by
      simpa using congrArg List.length heq
    have hfilter : l.filter p = l.filter q :=
      (List.monotone_filter_right l h).eq_of_length hlen
    exact (List.mem_filter.mp (hfilter ▸ List.mem_filter.mpr ⟨ha, hq⟩)).2
  · intro hall
    rw [List.filter_congr fun a ha => Bool.eq_iff_iff.mpr ⟨h a, hall a ha⟩]

/-! ## Sorting by a key -/

instance totalByKey {α : Type u} {τ : Type v} [LinearOrder τ] (key : α → τ) :
    Std.Total fun a b : α => key a ≤ key b := ⟨fun a b => le_total (key a) (key b)⟩

instance isTransByKey {α : Type u} {τ : Type v} [LinearOrder τ] (key : α → τ) :
    IsTrans α fun a b => key a ≤ key b := ⟨fun _ _ _ => le_trans⟩

/-! ## Descending lists -/

/-- In a descending list of numbers up to `m` only the numbers between `a` and `m` can stand
before `a`. -/
theorem mem_take_of_pairwise_gt {l : List Nat} {a m k : Nat} (hl : l.Pairwise (· > ·))
    (hmax : ∀ b ∈ l, b ≤ m) (ha : a ∈ l) (hk : m < a + k) : a ∈ l.take k := by
  induction l generalizing m k with
  | nil => cases ha
  | cons b l ih =>
    obtain ⟨hhead, htail⟩ := List.pairwise_cons.mp hl
    have hb : b ≤ m := hmax b List.mem_cons_self
    rcases List.mem_cons.mp ha with rfl | hmem
    · obtain ⟨k, rfl⟩ : ∃ j, k = j + 1 := ⟨k - 1, by omega⟩
      exact List.mem_cons_self
    · have hab : a < b := hhead a hmem
      obtain ⟨k, rfl⟩ : ∃ j, k = j + 1 := ⟨k - 1, by omega⟩
      refine List.mem_cons_of_mem _ (ih (m := m - 1) htail (fun c hc => ?_) hmem (by omega))
      have hcb : c < b := hhead c hc
      omega

/-! ## Chunks -/

/-- Rust's `slice::chunks(n)`; the first argument bounds the number of chunks. -/
def chunksAux {α : Type u} (n : Nat) : Nat → List α → List (List α)
  | 0, _ => []
  | _ + 1, [] => []
  | fuel + 1, a :: l => (a :: l).take n :: chunksAux n fuel ((a :: l).drop n)

/-- Consecutive pieces of length `n`, the last one shorter. -/
def chunks {α : Type u} (n : Nat) (l : List α) : List (List α) :=
  chunksAux n l.length l

theorem chunksAux_flatten {α : Type u} {n : Nat} (hn : 0 < n) :
    ∀ (fuel : Nat) (l : List α), l.length ≤ fuel → (chunksAux n fuel l).flatten = l
  | 0, l, h => by
    obtain rfl := List.length_eq_zero_iff.mp (Nat.le_zero.mp h)
    rfl
  | _ + 1, [], _ => rfl
  | fuel + 1, a :: l, h => by
    show (a :: l).take n ++ (chunksAux n fuel ((a :: l).drop n)).flatten = a :: l
    rw [chunksAux_flatten hn fuel ((a :: l).drop n) ?_, List.take_append_drop]
    rw [List.length_drop]
    rw [List.length_cons] at h ⊢
    omega

/-- The chunks together are the list. -/
theorem chunks_flatten {α : Type u} {n : Nat} (hn : 0 < n) (l : List α) :
    (chunks n l).flatten = l :=
  chunksAux_flatten hn l.length l (Nat.le_refl _)

theorem chunksAux_take_flatten {α : Type u} {n : Nat} (hn : 0 < n) :
    ∀ (fuel : Nat) (l : List α) (k : Nat), l.length ≤ fuel →
      ((chunksAux n fuel l).take k).flatten = l.take (n * k)
  | _, _, 0, _ => by simp
  | 0, l, k + 1, h => by
    obtain rfl := List.length_eq_zero_iff.mp (Nat.le_zero.mp h)
    simp [chunksAux]
  | _ + 1, [], k + 1, _ => by simp [chunksAux]
  | fuel + 1, a :: l, k + 1, h => by
    show (a :: l).take n ++ ((chunksAux n fuel ((a :: l).drop n)).take k).flatten = _
    rw [chunksAux_take_flatten hn fuel ((a :: l).drop n) k ?_, Nat.mul_succ, Nat.add_comm,
      List.take_add]
    rw [List.length_drop]
    rw [List.length_cons] at h ⊢
    omega

/-- The first `k` chunks together are the first `n * k` elements. -/
theorem chunks_take_flatten {α : Type u} {n : Nat} (hn : 0 < n) (l : List α) (k : Nat) :
    ((chunks n l).take k).flatten = l.take (n * k) :=
  chunksAux_take_flatten hn l.length l k (Nat.le_refl _)

/-- All chunks together are all elements. -/
theorem take_length_chunks {α : Type u} {n : Nat} (hn : 0 < n) (l : List α) :
    l.take (n * (chunks n l).length) = l := by
  rw [← chunks_take_flatten hn, List.take_length, chunks_flatten hn]

theorem length_of_mem_chunksAux {α : Type u} {n : Nat} {chunk : List α} :
    ∀ {fuel : Nat} {l : List α}, chunk ∈ chunksAux n fuel l → chunk.length ≤ n
  | 0, _, h => nomatch h
  | _ + 1, [], h => nomatch h
  | fuel + 1, a :: l, h => by
    rcases List.mem_cons.mp h with rfl | h
    · exact List.length_take_le n (a :: l)
    · exact length_of_mem_chunksAux h

theorem length_of_mem_chunks {α : Type u} {n : Nat} {l chunk : List α}
    (h : chunk ∈ chunks n l) : chunk.length ≤ n :=
  length_of_mem_chunksAux h

theorem mem_of_mem_chunks {α : Type u} {n : Nat} (hn : 0 < n) {l chunk : List α}
    (h : chunk ∈ chunks n l) {a : α} (ha : a ∈ chunk) : a ∈ l := by
  have hmem : a ∈ (chunks n l).flatten := List.mem_flatten.mpr ⟨chunk, h, ha⟩
  rwa [chunks_flatten hn] at hmem

theorem lt_length_of_chunksAux {α : Type u} (n : Nat) :
    ∀ (fuel : Nat) (l : List α) (k : Nat), k < (chunksAux n fuel l).length →
      n * k < l.length
  | 0, _, _, h => nomatch h
  | _ + 1, [], _, h => nomatch h
  | _ + 1, a :: l, 0, _ => by simp
  | fuel + 1, a :: l, k + 1, h => by
    have hk := lt_length_of_chunksAux n fuel ((a :: l).drop n) k
      (Nat.lt_of_succ_lt_succ h)
    rw [List.length_drop] at hk
    rw [Nat.mul_succ]
    omega

/-- There is a chunk `k` only if there are more than `n * k` elements. -/
theorem lt_length_of_chunks {α : Type u} {n : Nat} {l : List α} {k : Nat}
    (hk : k < (chunks n l).length) : n * k < l.length :=
  lt_length_of_chunksAux n l.length l k hk

end DelegationStrategy.Lib
