import DelegationStrategy.Lib.Entries
import Mathlib.Algebra.BigOperators.Group.List.Basic

/-!
# Adding up by key

A loop that adds amounts to the entries of a map (`tally`), and a list that is cut into
slices by a key of its elements.

- `getD_tallyAll`: the entry of a key is what it was and the amounts of the key.
- `sum_tallyAll`: the values together are what they were and all amounts.
- `foldlM_map_eq_ok`: a loop that may fail, over what it got.
- `slices_perm`: the slices of distinct keys are the elements, once each, if every element
  has one of the keys.
-/

namespace DelegationStrategy.Lib

section Amounts

variable {κ M : Type} [DecidableEq κ]

/-- The amounts of a key. -/
def amountsOf (k : κ) (amounts : List (κ × M)) : List M :=
  (amounts.filter fun e => e.1 = k).map Prod.snd

theorem amountsOf_append (k : κ) (l₁ l₂ : List (κ × M)) :
    amountsOf k (l₁ ++ l₂) = amountsOf k l₁ ++ amountsOf k l₂ := by
  unfold amountsOf
  rw [List.filter_append, List.map_append]

theorem amountsOf_perm {l₁ l₂ : List (κ × M)} (h : l₁.Perm l₂) (k : κ) :
    (amountsOf k l₁).Perm (amountsOf k l₂) := (h.filter _).map _

/-- The amounts of a key are made of the elements with that key. -/
theorem amountsOf_filterMap {ρ : Type} {key : ρ → κ} {f : ρ → Option (κ × M)}
    (hf : ∀ r e, f r = some e → e.1 = key r) (l : List ρ) (k : κ) :
    amountsOf k (l.filterMap f) = ((l.filter fun r => key r = k).filterMap f).map Prod.snd := by
  unfold amountsOf
  rw [List.filter_filterMap, List.filterMap_filter]
  congr 1
  refine List.filterMap_congr fun r _ => ?_
  cases hr : f r with
  | none => simp
  | some e => simp [Option.filter, hf r e hr]

/-- A measure of the amounts of a key, element by element. -/
theorem sum_amountsOf_filterMap {ρ N : Type} [AddCommMonoid N] (g : M → N)
    (f : ρ → Option (κ × M)) (l : List ρ) (k : κ) :
    ((amountsOf k (l.filterMap f)).map g).sum =
      (l.map fun r => ((amountsOf k (f r).toList).map g).sum).sum := by
  induction l with
  | nil => rfl
  | cons r l ih =>
    rw [List.map_cons, List.sum_cons, ← ih, ← List.sum_append, ← List.map_append,
      ← amountsOf_append]
    cases hr : f r with
    | none => rw [List.filterMap_cons_none hr]; rfl
    | some e => rw [List.filterMap_cons_some hr]; rfl

variable [AddCommMonoid M]

/-- `*map.entry(k).or_insert(0) += v`. -/
def tally (d : Dict κ M) (k : κ) (v : M) : Dict κ M := d.insert k ((d.get? k).getD 0 + v)

/-- The loop over amounts. -/
def tallyAll (d : Dict κ M) (amounts : List (κ × M)) : Dict κ M :=
  amounts.foldl (fun d e => tally d e.1 e.2) d

@[simp] theorem tallyAll_nil (d : Dict κ M) : tallyAll d [] = d := rfl

@[simp] theorem tallyAll_cons (d : Dict κ M) (e : κ × M) (amounts : List (κ × M)) :
    tallyAll d (e :: amounts) = tallyAll (tally d e.1 e.2) amounts := rfl

theorem tallyAll_append (d : Dict κ M) (l₁ l₂ : List (κ × M)) :
    tallyAll d (l₁ ++ l₂) = tallyAll (tallyAll d l₁) l₂ := List.foldl_append

theorem getD_tally (d : Dict κ M) (k k' : κ) (v : M) :
    ((tally d k v).get? k').getD 0 = (d.get? k').getD 0 + if k = k' then v else 0 := by
  unfold tally
  rw [Dict.get?_insert]
  by_cases hk : k = k'
  · subst hk
    simp
  · simp [hk, Ne.symm hk]

/-- **One entry**: the amounts of its key were added to it. -/
theorem getD_tallyAll (d : Dict κ M) (amounts : List (κ × M)) (k : κ) :
    ((tallyAll d amounts).get? k).getD 0 = (d.get? k).getD 0 + (amountsOf k amounts).sum := by
  induction amounts generalizing d with
  | nil => simp [amountsOf]
  | cons e amounts ih =>
    rw [tallyAll_cons, ih, getD_tally, add_assoc]
    by_cases hk : e.1 = k <;> simp [amountsOf, hk]

theorem mem_keys_tallyAll {d : Dict κ M} {amounts : List (κ × M)} {k : κ} :
    k ∈ (tallyAll d amounts).keys ↔ k ∈ d.keys ∨ k ∈ amounts.map Prod.fst := by
  induction amounts generalizing d with
  | nil => simp
  | cons e amounts ih =>
    rw [tallyAll_cons, ih, tally, Dict.mem_keys_insert, List.map_cons, List.mem_cons, or_assoc]

/-- A key has an entry if it has amounts. -/
theorem mem_keys_tallyAll_empty {amounts : List (κ × M)} {k : κ} :
    k ∈ (tallyAll Dict.empty amounts).keys ↔ amountsOf k amounts ≠ [] := by
  rw [mem_keys_tallyAll, amountsOf, ne_eq, List.map_eq_nil_iff, List.filter_eq_nil_iff]
  constructor
  · rintro (hempty | hmem)
    · cases hempty
    · obtain ⟨e, he, rfl⟩ := List.mem_map.mp hmem
      exact fun hnone => hnone e he (decide_eq_true rfl)
  · intro hsome
    push Not at hsome
    obtain ⟨e, he, hk⟩ := hsome
    exact Or.inr (List.mem_map.mpr ⟨e, he, of_decide_eq_true hk⟩)

/-- The entries of a map that was filled by the loop. -/
theorem get?_tallyAll_empty {amounts : List (κ × M)} {k : κ} :
    (tallyAll Dict.empty amounts).get? k =
      if (amountsOf k amounts).isEmpty then none else some (amountsOf k amounts).sum := by
  have hsum := getD_tallyAll Dict.empty amounts k
  have hkey : k ∈ (tallyAll Dict.empty amounts).keys ↔ amountsOf k amounts ≠ [] :=
    mem_keys_tallyAll_empty
  cases hget : (tallyAll Dict.empty amounts).get? k with
  | none =>
    have hno := Dict.get?_eq_none_iff.mp hget
    rw [hkey, not_not] at hno
    rw [hno]
    rfl
  | some v =>
    have hne : amountsOf k amounts ≠ [] := hkey.mp (List.mem_map_of_mem (Dict.mem_of_get? hget))
    rw [hget] at hsum
    rw [if_neg (by rwa [List.isEmpty_iff]), ← zero_add (List.sum _)]
    exact congrArg some hsum

/-- A loop whose step adds amounts to a map, in a view of its state. -/
theorem foldl_tallyAll {σ ρ : Type} {step : σ → ρ → σ} {amounts : ρ → List (κ × M)}
    (view : σ → Dict κ M)
    (hstep : ∀ s r, view (step s r) = tallyAll (view s) (amounts r)) (l : List ρ) (s : σ) :
    view (l.foldl step s) = tallyAll (view s) (l.flatMap amounts) := by
  induction l generalizing s with
  | nil => rfl
  | cons r l ih => rw [List.foldl_cons, ih, hstep, ← tallyAll_append, List.flatMap_cons]

/-! ## All entries -/

/-- The values of a map together. -/
def Dict.total (d : Dict κ M) : M := (d.entries.map Prod.snd).sum

theorem total_tally (d : Dict κ M) (k : κ) (v : M) : (tally d k v).total = d.total + v := by
  have hkey : ((d.entries.filter fun e => e.1 = k).map Prod.snd).sum = (d.get? k).getD 0 := by
    have h := filter_entries Scan.sequential d k
    rw [show Scan.sequential.order d.entries = d.entries from rfl] at h
    rw [h]
    cases d.get? k <;> simp
  have hsplit := List.sum_map_filter_add_sum_map_filter_not (fun e : κ × M => e.1 = k) Prod.snd
    d.entries
  rw [hkey] at hsplit
  show (((d.entries.filter fun e => e.1 ≠ k) ++ [(k, (d.get? k).getD 0 + v)]).map Prod.snd).sum =
    (d.entries.map Prod.snd).sum + v
  rw [List.map_append, List.sum_append, ← hsplit]
  simp only [List.map_cons, List.map_nil, List.sum_singleton]
  rw [← add_assoc, add_comm (List.sum _)]

omit [DecidableEq κ] in
/-- A component of the total is the sum of the component. -/
theorem sum_map_entries {N : Type} [AddCommMonoid N] (f : M →+ N) (d : Dict κ M) :
    (d.entries.map fun e => f e.2).sum = f d.total := by
  unfold Dict.total
  rw [map_list_sum, List.map_map]
  rfl

/-- **All entries**: no amount is lost, and none is counted twice. -/
theorem sum_tallyAll (d : Dict κ M) (amounts : List (κ × M)) :
    (tallyAll d amounts).total = d.total + (amounts.map Prod.snd).sum := by
  induction amounts generalizing d with
  | nil => simp
  | cons e amounts ih =>
    rw [tallyAll_cons, ih, total_tally, add_assoc, List.map_cons, List.sum_cons]

end Amounts

/-! ## Loops that may fail -/

section Loops

variable {ε σ α β : Type}

/-- A loop that gets something for each element and goes on with it: if it succeeds, it got
everything, and its result is the loop over what it got. -/
theorem foldlM_map_eq_ok {get : α → Except ε β} (step : σ → β → σ) {l : List α} {s s' : σ}
    (h : l.foldlM (fun s a => (get a).map (step s)) s = .ok s') :
    ∃ results, List.Forall₂ (fun a b => get a = .ok b) l results ∧
      s' = results.foldl step s := by
  induction l generalizing s with
  | nil =>
    obtain rfl := Except.ok.inj h
    exact ⟨[], List.Forall₂.nil, rfl⟩
  | cons a l ih =>
    rw [List.foldlM_cons] at h
    obtain ⟨s₁, hfirst, hrest⟩ := bind_eq_ok.mp h
    obtain ⟨b, hget, rfl⟩ := map_eq_ok.mp hfirst
    obtain ⟨results, hresults, rfl⟩ := ih hrest
    exact ⟨b :: results, List.Forall₂.cons hget hresults, rfl⟩

/-- If all succeed, each result is that of its element. -/
theorem forall₂_of_mapM {f : α → Except ε β} {l : List α} {results : List β}
    (h : l.mapM f = .ok results) : List.Forall₂ (fun a b => f a = .ok b) l results := by
  induction l generalizing results with
  | nil =>
    obtain rfl := Except.ok.inj h
    exact List.Forall₂.nil
  | cons a l ih =>
    rw [List.mapM_cons] at h
    obtain ⟨b, hb, h⟩ := bind_eq_ok.mp h
    obtain ⟨rest, hrest, h⟩ := bind_eq_ok.mp h
    obtain rfl := Except.ok.inj h
    exact List.Forall₂.cons hb (ih hrest)

/-- An element of a list has a partner in a related one. -/
theorem exists_of_forall₂ {R : α → β → Prop} {l : List α} {l' : List β}
    (h : List.Forall₂ R l l') {a : α} (ha : a ∈ l) : ∃ b ∈ l', R a b := by
  induction h with
  | nil => cases ha
  | cons hfirst _ ih =>
    rcases List.mem_cons.mp ha with rfl | ha
    · exact ⟨_, List.mem_cons_self, hfirst⟩
    · obtain ⟨b, hb, hab⟩ := ih ha
      exact ⟨b, List.mem_cons_of_mem _ hb, hab⟩

/-- A loop that gets everything succeeds. -/
theorem foldlM_map_of_ok {get : α → Except ε β} (step : σ → β → σ) {l : List α}
    {results : List β} (h : List.Forall₂ (fun a b => get a = .ok b) l results) (s : σ) :
    l.foldlM (fun s a => (get a).map (step s)) s = .ok (results.foldl step s) := by
  induction h generalizing s with
  | nil => rfl
  | cons hfirst _ ih =>
    rw [List.foldlM_cons, hfirst]
    exact ih _

/-- Everything that is got at all is got together. -/
theorem exists_forall₂ {R : α → β → Prop} {l : List α} (h : ∀ a ∈ l, ∃ b, R a b) :
    ∃ results, List.Forall₂ R l results := by
  induction l with
  | nil => exact ⟨[], List.Forall₂.nil⟩
  | cons a l ih =>
    obtain ⟨b, hb⟩ := h a List.mem_cons_self
    obtain ⟨results, hresults⟩ := ih fun a' ha' => h a' (List.mem_cons_of_mem a ha')
    exact ⟨b :: results, List.Forall₂.cons hb hresults⟩

/-- What was got, was got for an element. -/
theorem mem_results {get : α → Except ε β} {l : List α} {results : List β}
    (h : List.Forall₂ (fun a b => get a = .ok b) l results) {b : β} :
    b ∈ results ↔ ∃ a ∈ l, get a = .ok b := by
  induction h with
  | nil => simp
  | @cons a b' l results hfirst _ ih =>
    rw [List.mem_cons, ih, List.exists_mem_cons_iff, hfirst, Except.ok.injEq, eq_comm]

/-- Parts in any order together. -/
theorem flatten_perm {part : α → List β} {l : List α} {parts : List (List β)}
    (h : List.Forall₂ (fun a found => found.Perm (part a)) l parts) :
    parts.flatten.Perm (l.flatMap part) := by
  induction h with
  | nil => exact List.Perm.refl _
  | cons hfirst _ ih =>
    rw [List.flatten_cons, List.flatMap_cons]
    exact hfirst.append ih

end Loops

/-! ## Slices -/

section Slices

variable {α κ : Type} [DecidableEq κ] (key : α → κ)

theorem slices_perm_filter {ks : List κ} (h : ks.Nodup) (l : List α) :
    (ks.flatMap fun k => l.filter fun a => key a = k).Perm (l.filter fun a => key a ∈ ks) := by
  induction ks with
  | nil => simp
  | cons k ks ih =>
    obtain ⟨hk, hks⟩ := List.nodup_cons.mp h
    rw [List.flatMap_cons]
    refine ((ih hks).append_left _).trans ?_
    -- an element of the later slices is not one of the first
    have hfirst : (l.filter fun a => key a = k) =
        (l.filter fun a => key a ∈ k :: ks).filter fun a => key a = k := by
      rw [List.filter_filter]
      refine List.filter_congr fun a _ => ?_
      by_cases ha : key a = k <;> simp [ha]
    have hlater : (l.filter fun a => key a ∈ ks) =
        (l.filter fun a => key a ∈ k :: ks).filter fun a => !decide (key a = k) := by
      rw [List.filter_filter]
      refine List.filter_congr fun a _ => ?_
      by_cases ha : key a = k
      · simp [ha, hk]
      · simp [ha]
    rw [hfirst, hlater]
    exact List.filter_append_perm _ _

/-- **The slices of distinct keys** are the elements, once each, if each has one of the keys. -/
theorem slices_perm {ks : List κ} (h : ks.Nodup) {l : List α} (hkey : ∀ a ∈ l, key a ∈ ks) :
    (ks.flatMap fun k => l.filter fun a => key a = k).Perm l := by
  refine (slices_perm_filter key h l).trans (List.Perm.of_eq (List.filter_eq_self.mpr ?_))
  exact fun a ha => decide_eq_true (hkey a ha)

end Slices

end DelegationStrategy.Lib
