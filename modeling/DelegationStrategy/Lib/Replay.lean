import Mathlib.Data.List.Destutter

/-!
# The changes of a value along a list

A scan remembers the value of the last element and reports each element whose value is
another one, with the value before it.

- `isChain_changesFrom`, `head?_changesFrom`, `getLast?_changesFrom`: the reports are a chain
  from the value at the start to the value at the end.
- `destutter_map_eq`: the chain is the list of values without adjacent repetitions.
-/

namespace DelegationStrategy.Lib

universe u v

variable {α : Type u} {β : Type v} [DecidableEq β] {value : α → β}

/-- The elements that change the value, each with the value before it. -/
def changesFrom (value : α → β) : β → List α → List (β × α)
  | _, [] => []
  | b, a :: l =>
    if value a ≠ b then (b, a) :: changesFrom value (value a) l
    else changesFrom value (value a) l

/-- The scan of a list: the first element has no value before it. -/
def changes (value : α → β) : List α → List (β × α)
  | [] => []
  | a :: l => changesFrom value (value a) l

theorem changesFrom_cons_of_ne {a : α} {b : β} (h : value a ≠ b) (l : List α) :
    changesFrom value b (a :: l) = (b, a) :: changesFrom value (value a) l :=
  if_pos h

theorem changesFrom_cons_self (a : α) (l : List α) :
    changesFrom value (value a) (a :: l) = changesFrom value (value a) l :=
  if_neg fun h => h rfl

/-! ## The chain -/

variable (value)

theorem changesFrom_ne (b : β) (l : List α) : ∀ c ∈ changesFrom value b l, c.1 ≠ value c.2 := by
  induction l generalizing b with
  | nil => exact fun _ h => nomatch h
  | cons a l ih =>
    intro c hc
    by_cases h : value a = b
    · subst h
      rw [changesFrom_cons_self] at hc
      exact ih _ c hc
    · rw [changesFrom_cons_of_ne h, List.mem_cons] at hc
      rcases hc with rfl | hc
      · exact fun heq => h heq.symm
      · exact ih _ c hc

theorem head?_changesFrom (b : β) (l : List α) :
    ∀ c ∈ (changesFrom value b l).head?, c.1 = b := by
  induction l generalizing b with
  | nil => exact fun _ h => nomatch h
  | cons a l ih =>
    intro c hc
    by_cases h : value a = b
    · subst h
      rw [changesFrom_cons_self] at hc
      exact ih _ c hc
    · rw [changesFrom_cons_of_ne h] at hc
      obtain rfl : (b, a) = c := by simpa using hc
      rfl

theorem isChain_changesFrom (b : β) (l : List α) :
    (changesFrom value b l).IsChain fun c c' => c'.1 = value c.2 := by
  induction l generalizing b with
  | nil => exact List.IsChain.nil
  | cons a l ih =>
    by_cases h : value a = b
    · subst h
      rw [changesFrom_cons_self]
      exact ih _
    · rw [changesFrom_cons_of_ne h, List.isChain_cons]
      exact ⟨head?_changesFrom value _ l, ih _⟩

/-- The last change leads to the last value; without a change that is the first one. -/
theorem getLast?_changesFrom (b : β) (l : List α) :
    ((changesFrom value b l).getLast?.map fun c => value c.2).getD b =
      (l.getLast?.map value).getD b := by
  induction l generalizing b with
  | nil => rfl
  | cons a l ih =>
    have hrest : ((a :: l).getLast?.map value).getD b =
        (l.getLast?.map value).getD (value a) := by
      cases l <;> simp [List.getLast?_cons]
    rw [hrest, ← ih (value a)]
    by_cases h : value a = b
    · subst h
      rw [changesFrom_cons_self]
    · rw [changesFrom_cons_of_ne h]
      cases changesFrom value (value a) l <;> simp [List.getLast?_cons]

/-- The reported elements are elements, in their order. -/
theorem changesFrom_sublist (b : β) (l : List α) :
    ((changesFrom value b l).map Prod.snd).Sublist l := by
  induction l generalizing b with
  | nil => exact List.Sublist.slnil
  | cons a l ih =>
    by_cases h : value a = b
    · subst h
      rw [changesFrom_cons_self]
      exact (ih _).cons _
    · rw [changesFrom_cons_of_ne h, List.map_cons]
      exact (ih _).cons_cons _

/-! ## Collapsed values -/

theorem destutter'_map_eq (b : β) (l : List α) :
    (l.map value).destutter' (· ≠ ·) b =
      b :: (changesFrom value b l).map fun c => value c.2 := by
  induction l generalizing b with
  | nil => rfl
  | cons a l ih =>
    rw [List.map_cons]
    by_cases h : value a = b
    · subst h
      rw [changesFrom_cons_self, List.destutter'_cons_neg _ (by simp), ih]
    · rw [changesFrom_cons_of_ne h, List.destutter'_cons_pos _ (fun heq => h heq.symm), ih,
        List.map_cons]

/-- **The values without adjacent repetitions** are the first value and the changed ones. -/
theorem destutter_map_eq (l : List α) :
    (l.map value).destutter (· ≠ ·) =
      (l.head?.map value).toList ++ (changes value l).map fun c => value c.2 := by
  cases l with
  | nil => rfl
  | cons a l => exact destutter'_map_eq value (value a) l

end DelegationStrategy.Lib
