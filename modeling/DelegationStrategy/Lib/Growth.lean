import Mathlib.Data.List.Sort

/-!
# Tables that grow

The rows of a table are edited in place, and new rows join it (`Grows`). What an edit keeps and
where new rows stand are parameters. A selection of such a table grows with it, and so does its
sorted form if the new rows come last.

A query with `LAG` and `LEAD` sees of other rows only the value of the row before and of the row
after. What it has selected once it selects again, if its condition stays true when a `NULL` gets
a value (`sublist_selected`).
-/

namespace DelegationStrategy.Lib

universe u v

/-! ## Values -/

section Fills

variable {β : Type v} {a b c : Option β}

/-- A value that is known stays; a `NULL` may get one. -/
def Fills (a b : Option β) : Prop := ∀ x, a = some x → b = some x

theorem Fills.refl (a : Option β) : Fills a a := fun _ h => h

theorem Fills.trans (h : Fills a b) (h' : Fills b c) : Fills a c := fun x hx => h' x (h x hx)

theorem Fills.none (b : Option β) : Fills Option.none b := fun _ h => (nomatch h)

theorem Fills.of_eq (h : b = a) : Fills a b := h ▸ Fills.refl a

end Fills

/-! ## Tables -/

section Grows

variable {α : Type u} {Edit After : α → α → Prop} {l l' l'' new : List α}

/-- Each row of `l` has become the edited one at its place, and new rows are after all of `l`. -/
def Grows (Edit After : α → α → Prop) (l l' : List α) : Prop :=
  ∃ f new, l' = l.map f ++ new ∧ (∀ a ∈ l, Edit a (f a)) ∧ ∀ a ∈ l, ∀ b ∈ new, After a b

theorem Grows.refl (hrefl : ∀ a, Edit a a) (l : List α) : Grows Edit After l l :=
  ⟨id, [], by simp, fun a _ => hrefl a, fun _ _ _ h => (nomatch h)⟩

/-- New rows. -/
theorem Grows.append (h : Grows Edit After l l') (hnew : ∀ a ∈ l, ∀ b ∈ new, After a b) :
    Grows Edit After l (l' ++ new) := by
  obtain ⟨f, added, rfl, hedit, hafter⟩ := h
  refine ⟨f, added ++ new, List.append_assoc _ _ _, hedit, fun a ha b hb => ?_⟩
  rcases List.mem_append.mp hb with hb | hb
  · exact hafter a ha b hb
  · exact hnew a ha b hb

/-- Edited rows. -/
theorem Grows.map {g : α → α} (h : Grows Edit After l l')
    (htrans : ∀ a b c, Edit a b → Edit b c → Edit a c)
    (hafter : ∀ a b c, After a b → Edit b c → After a c) (hg : ∀ b ∈ l', Edit b (g b)) :
    Grows Edit After l (l'.map g) := by
  obtain ⟨f, new, rfl, hedit, hnew⟩ := h
  refine ⟨g ∘ f, new.map g, by rw [List.map_append, List.map_map], fun a ha => ?_,
    fun a ha b hb => ?_⟩
  · exact htrans _ _ _ (hedit a ha)
      (hg _ (List.mem_append_left _ (List.mem_map_of_mem ha)))
  · obtain ⟨b, hadded, rfl⟩ := List.mem_map.mp hb
    exact hafter _ _ _ (hnew a ha b hadded) (hg _ (List.mem_append_right _ hadded))

theorem Grows.trans (h : Grows Edit After l l') (h' : Grows Edit After l' l'')
    (htrans : ∀ a b c, Edit a b → Edit b c → Edit a c)
    (hafter : ∀ a b c, After a b → Edit b c → After a c)
    (hbefore : ∀ a b c, Edit a b → After b c → After a c) : Grows Edit After l l'' := by
  obtain ⟨g, new, rfl, hg, hnew⟩ := h'
  refine (h.map htrans hafter hg).append fun a ha b hb => ?_
  obtain ⟨f, added, rfl, hedit, -⟩ := h
  exact hbefore _ _ _ (hedit a ha)
    (hnew _ (List.mem_append_left _ (List.mem_map_of_mem ha)) b hb)

theorem Grows.imp {Edit' After' : α → α → Prop} (h : Grows Edit After l l')
    (hedit : ∀ a ∈ l, ∀ b, Edit a b → Edit' a b)
    (hafter : ∀ a b, After a b → After' a b) : Grows Edit' After' l l' := by
  obtain ⟨f, new, rfl, hf, hnew⟩ := h
  exact ⟨f, new, rfl, fun a ha => hedit a ha _ (hf a ha),
    fun a ha b hb => hafter a b (hnew a ha b hb)⟩

/-- A selection grows if an edit does not change what is selected. -/
theorem Grows.filter {After' : α → α → Prop} {p : α → Bool} (h : Grows Edit After l l')
    (hp : ∀ a b, Edit a b → p b = p a)
    (hafter : ∀ a b, p a = true → p b = true → After a b → After' a b) :
    Grows Edit After' (l.filter p) (l'.filter p) := by
  obtain ⟨f, new, rfl, hedit, hnew⟩ := h
  refine ⟨f, new.filter p, ?_, fun a ha => hedit a (List.mem_of_mem_filter ha),
    fun a ha b hb => ?_⟩
  · rw [List.filter_append, List.filter_map]
    congr 2
    exact List.filter_congr fun a ha => hp a (f a) (hedit a ha)
  · exact hafter a b (List.of_mem_filter ha) (List.of_mem_filter hb)
      (hnew a (List.mem_of_mem_filter ha) b (List.mem_of_mem_filter hb))

section Sorted

variable {r : α → α → Prop} [DecidableRel r]

theorem orderedInsert_append {a : α} (h : ∀ b ∈ l', r a b) :
    (l ++ l').orderedInsert r a = l.orderedInsert r a ++ l' := by
  induction l with
  | nil =>
    cases l' with
    | nil => rfl
    | cons b l' => exact List.orderedInsert_cons_of_le r l' (h b List.mem_cons_self)
  | cons b l ih =>
    rw [List.cons_append, List.orderedInsert_cons, List.orderedInsert_cons]
    split
    · rfl
    · rw [List.cons_append, ih]

/-- Two lists of which one is before the other are sorted one by one. -/
theorem insertionSort_append (h : ∀ a ∈ l, ∀ b ∈ l', r a b) :
    (l ++ l').insertionSort r = l.insertionSort r ++ l'.insertionSort r := by
  induction l with
  | nil => rfl
  | cons a l ih =>
    obtain ⟨hfirst, hrest⟩ := List.forall_mem_cons.mp h
    rw [List.cons_append, List.insertionSort_cons, List.insertionSort_cons, ih hrest]
    exact orderedInsert_append fun b hb => hfirst b ((List.mem_insertionSort r).mp hb)

/-- The sorted form grows if the new rows come last. -/
theorem Grows.insertionSort (h : Grows Edit r l l')
    (hr : ∀ a a' b b', Edit a a' → Edit b b' → (r a b ↔ r a' b'))
    (hbefore : ∀ a b c, Edit a b → r a c → r b c) :
    Grows Edit r (l.insertionSort r) (l'.insertionSort r) := by
  obtain ⟨f, new, rfl, hedit, hnew⟩ := h
  refine ⟨f, new.insertionSort r, ?_, fun a ha => hedit a ((List.mem_insertionSort r).mp ha),
    fun a ha b hb => ?_⟩
  · rw [List.map_insertionSort r r f l fun a ha b hb => hr _ _ _ _ (hedit a ha) (hedit b hb)]
    refine insertionSort_append fun a' ha' b hb => ?_
    obtain ⟨a, ha, rfl⟩ := List.mem_map.mp ha'
    exact hbefore _ _ _ (hedit a ha) (hnew a ha b hb)
  · exact hnew a ((List.mem_insertionSort r).mp ha) b ((List.mem_insertionSort r).mp hb)

end Sorted

end Grows

/-! ## Neighbours -/

section Neighbours

variable {α : Type u} {β : Type v} (value : α → Option β)

/-- `LAG` and `LEAD`: each row with the value of the row before it, at first `prev`, and of the
row after it. -/
def neighbours : Option β → List α → List (Option β × α × Option β)
  | _, [] => []
  | prev, a :: rest => (prev, a, rest.head?.bind value) :: neighbours (value a) rest

/-- The rows of which the condition is true. -/
def selected (select : Option β → Option β → α → Bool) (prev : Option β) (l : List α) : List α :=
  ((neighbours value prev l).filter fun (prev, a, next) => select prev next a).map
    fun (_, a, _) => a

variable {value} {select : Option β → Option β → α → Bool}

theorem selected_cons (prev : Option β) (a : α) (rest : List α) :
    selected value select prev (a :: rest) =
      (if select prev (rest.head?.bind value) a then [a] else []) ++
        selected value select (value a) rest := by
  unfold selected
  rw [neighbours, List.filter_cons]
  by_cases h : select prev (rest.head?.bind value) a = true
  · rw [if_pos h, if_pos h]
    rfl
  · rw [if_neg h, if_neg h]
    rfl

/-- The value of the row after. -/
theorem fills_next {f : α → α} {l : List α} (hvalue : ∀ a ∈ l, Fills (value a) (value (f a)))
    (new : List α) : Fills (l.head?.bind value) ((l.map f ++ new).head?.bind value) := by
  cases l with
  | nil => exact Fills.none _
  | cons a l => exact hvalue a List.mem_cons_self

/-- **What was selected is selected again** when the rows are edited and others follow. -/
theorem sublist_selected {f : α → α} {l : List α} (new : List α) {prev prev' : Option β}
    (hprev : Fills prev prev') (hvalue : ∀ a ∈ l, Fills (value a) (value (f a)))
    (hselect : ∀ a ∈ l, ∀ prev prev' next next', Fills prev prev' → Fills next next' →
      select prev next a = true → select prev' next' (f a) = true) :
    ((selected value select prev l).map f).Sublist
      (selected value select prev' (l.map f ++ new)) := by
  induction l generalizing prev prev' with
  | nil => exact List.nil_sublist _
  | cons a l ih =>
    obtain ⟨hvalue₁, hvalue⟩ := List.forall_mem_cons.mp hvalue
    obtain ⟨hselect₁, hselect⟩ := List.forall_mem_cons.mp hselect
    rw [selected_cons, List.map_append, List.map_cons, List.cons_append, selected_cons]
    refine List.Sublist.append ?_ (ih hvalue₁ hvalue hselect)
    split
    · rename_i hselected
      rw [if_pos (hselect₁ _ _ _ _ hprev (fills_next hvalue new) hselected)]
      exact List.Sublist.refl _
    · exact List.nil_sublist _

end Neighbours

end DelegationStrategy.Lib
