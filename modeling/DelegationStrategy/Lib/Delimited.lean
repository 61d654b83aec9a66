import Mathlib.Computability.Language
import Mathlib.Data.String.Basic

/-!
# Words with a delimiter

The language of the words that are a word of `L`, a delimiter and a word of `M`. If the
delimiter is in no word of `L`, such a word has to be cut where the delimiter stands first
(`append_mem_delimited`), so a reader that cuts there decides the language.

A text of pieces joined by a character that none of them has is cut back into the pieces
(`splitOn_intercalate`).
-/

namespace DelegationStrategy.Lib

universe u

variable {α : Type u} {delimiter : α} {before before' after after' w : List α}

/-- There is one place to cut a word at its first delimiter. -/
theorem cut_unique (h : delimiter ∉ before) (h' : delimiter ∉ before')
    (heq : before ++ delimiter :: after = before' ++ delimiter :: after') :
    before = before' ∧ after = after' := by
  induction before generalizing before' with
  | nil =>
    cases before' with
    | nil => exact ⟨rfl, (List.cons.inj heq).2⟩
    | cons a before' => exact absurd ((List.cons.inj heq).1 ▸ List.mem_cons_self) h'
  | cons a before ih =>
    cases before' with
    | nil => exact absurd ((List.cons.inj heq).1 ▸ List.mem_cons_self) h
    | cons a' before' =>
      obtain ⟨rfl, hrest⟩ := List.cons.inj heq
      obtain ⟨rfl, rfl⟩ := ih (fun hmem => h (List.mem_cons_of_mem _ hmem))
        (fun hmem => h' (List.mem_cons_of_mem _ hmem)) hrest
      exact ⟨rfl, rfl⟩

variable {L M : Language α}

/-- A word of `L`, the delimiter and a word of `M`. -/
def delimited (delimiter : α) (L M : Language α) : Language α := L * ({[delimiter]} * M)

theorem mem_delimited : w ∈ delimited delimiter L M ↔
    ∃ before ∈ L, ∃ after ∈ M, w = before ++ delimiter :: after := by
  constructor
  · rintro ⟨before, hbefore, _, ⟨_, rfl, after, hafter, rfl⟩, rfl⟩
    exact ⟨before, hbefore, after, hafter, rfl⟩
  · rintro ⟨before, hbefore, after, hafter, rfl⟩
    exact ⟨before, hbefore, _, ⟨_, rfl, after, hafter, rfl⟩, rfl⟩

/-- A word without the delimiter. -/
theorem notMem_delimited (h : delimiter ∉ w) : w ∉ delimited delimiter L M := by
  intro hw
  obtain ⟨before, -, after, -, rfl⟩ := mem_delimited.mp hw
  exact h (List.mem_append_right _ List.mem_cons_self)

/-- **The first delimiter** is the one to cut at. -/
theorem append_mem_delimited (hL : ∀ w ∈ L, delimiter ∉ w) (h : delimiter ∉ before) :
    before ++ delimiter :: after ∈ delimited delimiter L M ↔ before ∈ L ∧ after ∈ M := by
  rw [mem_delimited]
  constructor
  · rintro ⟨before', hbefore, after', hafter, heq⟩
    obtain ⟨rfl, rfl⟩ := cut_unique h (hL before' hbefore) heq
    exact ⟨hbefore, hafter⟩
  · rintro ⟨hbefore, hafter⟩
    exact ⟨before, hbefore, after, hafter, rfl⟩

/-! ## Texts of pieces -/

section Pieces

open String Pos.Raw

/-- What is left after the characters `l` and the unfinished piece `m` is cut at every
delimiter. -/
theorem splitOnAux_singleton (delimiter : Char) (l m r : List Char) (pieces : List String) :
    splitOnAux (ofList (l ++ m ++ r)) (singleton delimiter) ⟨utf8Len l⟩
        ⟨utf8Len l + utf8Len m⟩ 0 pieces =
      pieces.reverse ++ (List.splitOnPPrepend (· == delimiter) r m.reverse).map ofList := by
  have hdelimiter : Pos.Raw.get (singleton delimiter) 0 = delimiter := by
    simpa using get_of_valid [] [delimiter]
  induction r generalizing l m pieces with
  | nil =>
    have hend : Pos.Raw.atEnd (ofList (l ++ m ++ [])) ⟨utf8Len l + utf8Len m⟩ = true := by
      rw [← utf8Len_append]
      exact (atEnd_of_valid (l ++ m) []).mpr rfl
    rw [splitOnAux, if_pos hend, extract_of_valid]
    simp
  | cons c r ih =>
    have hend : ¬ Pos.Raw.atEnd (ofList (l ++ m ++ c :: r)) ⟨utf8Len l + utf8Len m⟩ = true := by
      rw [← utf8Len_append]
      exact (atEnd_of_valid (l ++ m) (c :: r)).not.mpr (by simp)
    have hget : Pos.Raw.get (ofList (l ++ m ++ c :: r)) ⟨utf8Len l + utf8Len m⟩ = c := by
      simpa using get_of_valid (l ++ m) (c :: r)
    have hnext : Pos.Raw.next (ofList (l ++ m ++ c :: r)) ⟨utf8Len l + utf8Len m⟩ =
        ⟨utf8Len l + utf8Len m + c.utf8Size⟩ := by
      simpa using next_of_valid (l ++ m) c r
    rw [splitOnAux, if_neg hend, hget, hdelimiter, hnext]
    by_cases hc : c = delimiter
    · subst hc
      have hsep : Pos.Raw.next (singleton c) 0 = ⟨c.utf8Size⟩ := by
        simpa using next_of_valid [] c []
      have hsepEnd : Pos.Raw.atEnd (singleton c) ⟨c.utf8Size⟩ = true := by
        simpa using (atEnd_of_valid [c] []).mpr rfl
      have hback : (⟨utf8Len l + utf8Len m + c.utf8Size⟩ : Pos.Raw).unoffsetBy ⟨c.utf8Size⟩ =
          ⟨utf8Len l + utf8Len m⟩ := by
        simp [Pos.Raw.unoffsetBy]
      -- the piece is finished, and the next one starts after the delimiter
      have h := ih (l ++ m ++ [c]) [] (ofList m :: pieces)
      rw [if_pos (by simp), hsep]
      simp only [hsepEnd, if_true, hback]
      rw [extract_of_valid l m (c :: r), List.splitOnPPrepend_cons_pos (by simp),
        List.reverse_reverse]
      simpa [Nat.add_assoc, -ofList_append, -ofList_cons] using h
    · have hback : (⟨utf8Len l + utf8Len m⟩ : Pos.Raw).unoffsetBy 0 =
          ⟨utf8Len l + utf8Len m⟩ := by
        simp [Pos.Raw.unoffsetBy]
      have h := ih l (m ++ [c]) pieces
      rw [if_neg (by simpa using hc), hback, hnext,
        List.splitOnPPrepend_cons_neg (by simpa using hc)]
      simpa [Nat.add_assoc, -ofList_append, -ofList_cons] using h

theorem splitOn_singleton (text : String) (delimiter : Char) :
    text.splitOn (singleton delimiter) = (text.toList.splitOn delimiter).map ofList := by
  have hsep : (singleton delimiter == "") = false := by simp
  have h := splitOnAux_singleton delimiter [] [] text.toList []
  rw [String.splitOn, hsep, List.splitOn_eq_splitOnP]
  simpa using h

/-- **Joined and cut again**: pieces without the delimiter. -/
theorem splitOn_intercalate (delimiter : Char) {pieces : List String}
    (h : ∀ piece ∈ pieces, delimiter ∉ piece.toList) (hne : pieces ≠ []) :
    ((singleton delimiter).intercalate pieces).splitOn (singleton delimiter) = pieces := by
  rw [splitOn_singleton, toList_intercalate, toList_singleton,
    List.splitOn_intercalate delimiter (by simpa using h) (by simpa using hne), List.map_map]
  simp [Function.comp_def]

end Pieces

end DelegationStrategy.Lib
