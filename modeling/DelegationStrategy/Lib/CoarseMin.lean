import DelegationStrategy.Lib.Query
import Mathlib.Data.List.Rotate
import Mathlib.Order.Monotone.Basic

/-!
# Minima by a coarser key

A collection without an order is searched for an element of least `key`, the first one
found counts, and `key` is monotone but forgets something (it rounds). Any element of
least key may come first (`argmin_cons_of_le`), so what is found is a least element in
every order exactly if the elements of least key are all the same (`leastAgree_iff`).
-/

namespace DelegationStrategy.Lib

universe u v

/-- The rows from the `n`-th on, then those before. -/
def Scan.rotate (n : Nat) : Scan := ⟨fun rows => rows.rotate n, fun rows => rows.rotate_perm n⟩

/-- Any row may come first. -/
theorem Scan.exists_order_cons {ρ : Type} {rows : List ρ} {r : ρ} (h : r ∈ rows) :
    ∃ (scan : Scan) (rest : List ρ), scan.order rows = r :: rest := by
  obtain ⟨before, after, rfl⟩ := List.append_of_mem h
  refine ⟨.rotate before.length, after ++ before, ?_⟩
  show (before ++ r :: after).rotate before.length = _
  rw [List.rotate_append_length_eq, List.cons_append]

section CoarseMin

variable {α : Type u} {β : Type v} [LinearOrder β] {key : α → β} {l l' : List α} {a m : α}

/-- A first element of least key is found. -/
theorem argmin_cons_of_le (h : ∀ b ∈ l, key a ≤ key b) : (a :: l).argmin key = some a := by
  rw [List.argmin_cons]
  cases hrest : l.argmin key with
  | none => rfl
  | some b => exact if_neg (not_lt.mpr (h b (List.argmin_mem hrest)))

/-- What is found in some order is an element of least key. -/
theorem argmin_of_perm (hperm : l'.Perm l) (hm : m ∈ l'.argmin key) :
    m ∈ l ∧ ∀ b ∈ l, key m ≤ key b :=
  ⟨hperm.subset (List.argmin_mem hm), fun _ hb =>
    List.le_of_mem_argmin (hperm.symm.subset hb) hm⟩

variable [LinearOrder α]

/-- The elements of least key are all the same. -/
def LeastAgree (key : α → β) (l : List α) : Prop :=
  ∀ a ∈ l, (∀ c ∈ l, key a ≤ key c) → ∀ b ∈ l, key b = key a → b = a

instance (key : α → β) (l : List α) : Decidable (LeastAgree key l) :=
  inferInstanceAs (Decidable (∀ a ∈ l, (∀ c ∈ l, key a ≤ key c) → ∀ b ∈ l, key b = key a → b = a))

/-- The elements of least key are all the same exactly if each of them is least. -/
theorem leastAgree_iff (hmono : Monotone key) :
    LeastAgree key l ↔ ∀ a ∈ l, (∀ c ∈ l, key a ≤ key c) → ∀ b ∈ l, a ≤ b := by
  constructor
  · intro h a ha hleast b hb
    by_contra hlt
    -- a smaller element has a smaller key, so the same key, so it is the same
    have hkey : key b = key a := le_antisymm (hmono (not_le.mp hlt).le) (hleast b hb)
    exact hlt (h a ha hleast b hb hkey).ge
  · intro h a ha hleast b hb hkey
    have hleast' : ∀ c ∈ l, key b ≤ key c := fun c hc => hkey.le.trans (hleast c hc)
    exact le_antisymm (h b hb hleast' a ha) (h a ha hleast b hb)

/-- What a search for the minimum returns: nothing only if there is nothing. -/
def IsMinimum (l : List α) : Option α → Prop
  | none => l = []
  | some m => m ∈ l ∧ ∀ b ∈ l, m ≤ b

theorem IsMinimum.unique {o o' : Option α} (h : IsMinimum l o) (h' : IsMinimum l o') : o = o' := by
  cases o with
  | none =>
    cases o' with
    | none => rfl
    | some m' =>
      subst h
      cases h'.1
  | some m =>
    cases o' with
    | none =>
      subst h'
      cases h.1
    | some m' => rw [le_antisymm (h.2 m' h'.1) (h'.2 m h.1)]

/-- If the elements of least key agree, the minimum is found in every order. -/
theorem isMinimum_argmin (hmono : Monotone key) (hagree : LeastAgree key l) (hperm : l'.Perm l) :
    IsMinimum l (l'.argmin key) := by
  cases hm : l'.argmin key with
  | none =>
    rw [List.argmin_eq_none] at hm
    subst hm
    exact hperm.symm.eq_nil
  | some m =>
    obtain ⟨hmem, hleast⟩ := argmin_of_perm hperm hm
    exact ⟨hmem, (leastAgree_iff hmono).mp hagree m hmem hleast⟩

end CoarseMin

end DelegationStrategy.Lib
