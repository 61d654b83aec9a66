import Mathlib.Algebra.Ring.Nat
import Mathlib.Data.List.Basic
import Mathlib.Data.List.Forall2
import Mathlib.Data.List.TakeWhile

/-!
# Numbered placeholders

The bind parameters of a statement stand in its text as `$1`, `$2`, …, and a `VALUES` list is
a list of tuples of them, each with a cast or without one.

- `numberTuples`: the tuples of rows of any widths, numbered through;
- `values_numberTuples`: the placeholders of a row refer to its values, among the values of
  all rows;
- `placeholdersIn`: the numbers that a server reads in a text. It reads those of the tuples
  (`placeholdersIn_valuesText`) if the casts have no placeholders of their own (`Plain`).
-/

namespace DelegationStrategy.Lib

universe u

/-- `$n` or `$n::cast`. -/
structure Placeholder where
  number : Nat
  cast : Option String
  deriving DecidableEq, Repr

def castText : Option String → String
  | some cast => "::" ++ cast
  | none => ""

def Placeholder.text (p : Placeholder) : String := "$" ++ toString p.number ++ castText p.cast

/-- `($1,$2,…)` -/
def tupleText (tuple : List Placeholder) : String :=
  "(" ++ ",".intercalate (tuple.map Placeholder.text) ++ ")"

/-- `(…),(…),…` -/
def valuesText (tuples : List (List Placeholder)) : String :=
  ",".intercalate (tuples.map tupleText)

theorem Placeholder.toList_text (p : Placeholder) : p.text.toList =
    '$' :: (Nat.toDigits 10 p.number ++ (castText p.cast).toList) := by
  unfold Placeholder.text
  rw [String.toList_append, String.toList_append, Nat.toString_eq_repr, Nat.toList_repr]
  rfl

theorem toList_tupleText (tuple : List Placeholder) : (tupleText tuple).toList =
    '(' :: ((",".intercalate (tuple.map Placeholder.text)).toList ++ [')']) := by
  unfold tupleText
  rw [String.toList_append, String.toList_append]
  rfl

theorem valuesText_concat {tuples : List (List Placeholder)} (tuple : List Placeholder)
    (h : tuples ≠ []) :
    valuesText (tuples ++ [tuple]) = valuesText tuples ++ "," ++ tupleText tuple := by
  unfold valuesText
  rw [List.map_append, List.map_singleton, String.intercalate_append_of_ne_nil
    (fun hnil => h (List.map_eq_nil_iff.mp hnil)) (List.cons_ne_nil _ _),
    String.intercalate_singleton]

theorem toList_valuesText (tuple : List Placeholder) (tuples : List (List Placeholder)) :
    ∃ rest, (valuesText (tuple :: tuples)).toList = '(' :: rest := by
  unfold valuesText
  rw [List.map_cons]
  cases tuples with
  | nil =>
    rw [List.map_nil, String.intercalate_singleton]
    exact ⟨_, toList_tupleText tuple⟩
  | cons next tuples =>
    rw [List.map_cons, String.intercalate_cons_cons, String.append_assoc, String.toList_append,
      toList_tupleText]
    exact ⟨_, rfl⟩

/-! ## Numbering -/

/-- A tuple whose first number is `n`. -/
def numberFrom (n : Nat) (casts : List (Option String)) : List Placeholder :=
  (casts.zipIdx n).map fun (cast, number) => ⟨number, cast⟩

/-- Tuples that are numbered through from `n`. -/
def numberTuples : Nat → List (List (Option String)) → List (List Placeholder)
  | _, [] => []
  | n, casts :: rows => numberFrom n casts :: numberTuples (n + casts.length) rows

section Numbering

variable {n : Nat} {casts : List (Option String)} {rows : List (List (Option String))}

theorem length_numberFrom : (numberFrom n casts).length = casts.length := by
  unfold numberFrom
  rw [List.length_map, List.length_zipIdx]

theorem numberFrom_concat (cast : Option String) :
    numberFrom n (casts ++ [cast]) = numberFrom n casts ++ [⟨n + casts.length, cast⟩] := by
  unfold numberFrom
  rw [List.zipIdx_append, List.map_append]
  rfl

theorem map_number_numberFrom :
    (numberFrom n casts).map Placeholder.number = List.range' n casts.length := by
  unfold numberFrom
  rw [List.map_map, ← List.zipIdx_map_snd n casts]
  rfl

theorem map_cast_numberFrom : (numberFrom n casts).map Placeholder.cast = casts := by
  unfold numberFrom
  rw [List.map_map]
  exact List.zipIdx_map_fst n casts

theorem numberTuples_ne_nil (h : rows ≠ []) : numberTuples n rows ≠ [] := by
  cases rows with
  | nil => exact absurd rfl h
  | cons row rows => exact List.cons_ne_nil _ _

/-- The casts stay as they are. -/
theorem mem_numberTuples {tuple : List Placeholder} (h : tuple ∈ numberTuples n rows) :
    tuple.map Placeholder.cast ∈ rows := by
  induction rows generalizing n with
  | nil => cases h
  | cons row rows ih =>
    rcases List.mem_cons.mp h with rfl | h
    · rw [map_cast_numberFrom]
      exact List.mem_cons_self
    · exact List.mem_cons_of_mem _ (ih h)

theorem numberTuples_concat : numberTuples n (rows ++ [casts]) =
    numberTuples n rows ++ [numberFrom (n + (rows.map List.length).sum) casts] := by
  induction rows generalizing n with
  | nil => rfl
  | cons row rows ih =>
    rw [List.cons_append, numberTuples, ih, numberTuples, List.map_cons, List.sum_cons,
      Nat.add_assoc]
    rfl

/-- The numbers go up by one, over all tuples. -/
theorem numbers_numberTuples : (numberTuples n rows).flatten.map Placeholder.number =
    List.range' n (rows.map List.length).sum := by
  induction rows generalizing n with
  | nil => rfl
  | cons row rows ih =>
    rw [numberTuples, List.flatten_cons, List.map_append, ih, map_number_numberFrom,
      List.map_cons, List.sum_cons, List.range'_append_1]

variable {α : Type u}

/-- The parameter that a placeholder refers to; the first one is `$1`. -/
def Placeholder.value? (params : List α) (p : Placeholder) : Option α := params[p.number - 1]?

/-- The placeholders of a tuple refer to its values, which follow those of the tuples before. -/
theorem values_numberFrom {before values after : List α} (h : casts.length = values.length) :
    (numberFrom (before.length + 1) casts).map
        (Placeholder.value? (before ++ values ++ after)) = values.map some := by
  have hnumbers : (numberFrom (before.length + 1) casts).map
      (Placeholder.value? (before ++ values ++ after)) =
        (List.range' (before.length + 1) values.length).map fun number =>
          (before ++ values ++ after)[number - 1]? := by
    rw [← h, ← map_number_numberFrom, List.map_map]
    rfl
  rw [hnumbers]
  refine List.ext_getElem (by simp) fun i hi hi' => ?_
  rw [List.length_map] at hi'
  rw [List.getElem_map, List.getElem_map, List.getElem_range',
    show before.length + 1 + 1 * i - 1 = before.length + i by omega, List.append_assoc,
    List.getElem?_append_right (Nat.le_add_right _ _), Nat.add_sub_cancel_left,
    List.getElem?_append_left hi', List.getElem?_eq_getElem hi']

/-- **Every row gets its values**, in order, and its casts. -/
theorem values_numberTuples (before : List α) {rows : List (List α × List (Option String))}
    (h : ∀ row ∈ rows, row.2.length = row.1.length) :
    List.Forall₂ (fun row tuple => tuple.map (Placeholder.value?
        (before ++ rows.flatMap Prod.fst)) = row.1.map some ∧ tuple.map Placeholder.cast = row.2)
      rows (numberTuples (before.length + 1) (rows.map Prod.snd)) := by
  induction rows generalizing before with
  | nil => exact List.Forall₂.nil
  | cons row rows ih =>
    have hrow := h row List.mem_cons_self
    refine List.Forall₂.cons ⟨?_, map_cast_numberFrom⟩ ?_
    · rw [List.flatMap_cons, ← List.append_assoc]
      exact values_numberFrom hrow
    · have hrest := ih (before ++ row.1) fun r hr => h r (List.mem_cons_of_mem _ hr)
      rw [List.length_append, ← hrow, Nat.add_right_comm, List.append_assoc] at hrest
      exact hrest

end Numbering

/-! ## Reading a text -/

/-- The numbers behind the signs `$` of a text. -/
def placeholdersIn : List Char → List Nat
  | [] => []
  | c :: text =>
    if c = '$' then Nat.ofDigitChars 10 (text.takeWhile Char.isDigit) 0 :: placeholdersIn text
    else placeholdersIn text

theorem placeholdersIn_cons (c : Char) (text : List Char) : placeholdersIn (c :: text) =
    if c = '$' then Nat.ofDigitChars 10 (text.takeWhile Char.isDigit) 0 :: placeholdersIn text
    else placeholdersIn text := rfl

theorem placeholdersIn_eq_nil {text : List Char} (h : '$' ∉ text) : placeholdersIn text = [] := by
  induction text with
  | nil => rfl
  | cons c text ih =>
    rw [List.mem_cons, not_or] at h
    rw [placeholdersIn_cons, if_neg (Ne.symm h.1)]
    exact ih h.2

/-- What follows does not go on with a number. -/
def EndsNumber (text : List Char) : Prop := ∀ c ∈ text.head?, c.isDigit = false

theorem endsNumber_of_cons {text rest : List Char} {c : Char} (h : text = c :: rest)
    (hc : c.isDigit = false) : EndsNumber text := by
  intro c' hc'
  rw [h] at hc'
  obtain rfl := Option.some.inj hc'
  exact hc

/-- A text is read part by part. -/
theorem placeholdersIn_append {text rest : List Char} (h : EndsNumber rest) :
    placeholdersIn (text ++ rest) = placeholdersIn text ++ placeholdersIn rest := by
  have hrest : rest.takeWhile Char.isDigit = [] := by
    cases rest with
    | nil => rfl
    | cons c rest => exact List.takeWhile_cons_of_neg (by rw [h c rfl]; decide)
  induction text with
  | nil => rfl
  | cons c text ih =>
    have hdigits : (text ++ rest).takeWhile Char.isDigit = text.takeWhile Char.isDigit := by
      rw [List.takeWhile_append, hrest, List.append_nil]
      split
      · rename_i hall
        exact ((List.takeWhile_prefix _).eq_of_length hall).symm
      · rfl
    rw [List.cons_append, placeholdersIn_cons, placeholdersIn_cons, hdigits, ih]
    split
    · rfl
    · rfl

/-- The cast has no placeholder of its own. -/
def PlainCast (cast : Option String) : Prop := ∀ text ∈ cast, '$' ∉ text.toList

theorem placeholdersIn_text {p : Placeholder} (h : PlainCast p.cast) :
    placeholdersIn p.text.toList = [p.number] := by
  have hcast : EndsNumber (castText p.cast).toList ∧
      placeholdersIn (castText p.cast).toList = [] := by
    cases hc : p.cast with
    | none => exact ⟨nofun, rfl⟩
    | some cast =>
      have htext : (castText (some cast)).toList = ':' :: ':' :: cast.toList :=
        String.toList_append
      rw [htext]
      refine ⟨endsNumber_of_cons rfl (by decide), ?_⟩
      rw [placeholdersIn_cons, if_neg (by decide), placeholdersIn_cons, if_neg (by decide),
        placeholdersIn_eq_nil (h cast hc)]
  have hnumber : placeholdersIn ('$' :: Nat.toDigits 10 p.number) = [p.number] := by
    have hdigits : ∀ c ∈ Nat.toDigits 10 p.number, c.isDigit = true := fun c hc =>
      Nat.isDigit_of_mem_toDigits (by decide) (by decide) hc
    rw [placeholdersIn_cons, if_pos rfl, List.takeWhile_eq_self_iff.mpr hdigits,
      Nat.ofDigitChars_ten_toDigits, placeholdersIn_eq_nil fun hmem => ?_]
    exact absurd (hdigits _ hmem) (by decide)
  rw [p.toList_text, ← List.cons_append, placeholdersIn_append hcast.1, hnumber, hcast.2]
  rfl

theorem placeholdersIn_intercalate {parts : List String}
    (h : ∀ part ∈ parts, EndsNumber part.toList) :
    placeholdersIn (",".intercalate parts).toList =
      parts.flatMap fun part => placeholdersIn part.toList := by
  induction parts with
  | nil => rfl
  | cons part parts ih =>
    have hparts := ih fun p hp => h p (List.mem_cons_of_mem _ hp)
    by_cases hnil : parts = []
    · subst hnil
      rw [String.intercalate_singleton, List.flatMap_singleton]
    · have hcomma : ("," ++ ",".intercalate parts).toList =
          ',' :: (",".intercalate parts).toList := String.toList_append
      rw [String.intercalate_cons_of_ne_nil hnil, String.append_assoc, String.toList_append,
        hcomma, placeholdersIn_append (endsNumber_of_cons rfl (by decide)), placeholdersIn_cons,
        if_neg (by decide), hparts, List.flatMap_cons]

theorem placeholdersIn_tupleText {tuple : List Placeholder} (h : ∀ p ∈ tuple, PlainCast p.cast) :
    placeholdersIn (tupleText tuple).toList = tuple.map Placeholder.number := by
  have hparts : placeholdersIn (",".intercalate (tuple.map Placeholder.text)).toList =
      tuple.map Placeholder.number := by
    rw [placeholdersIn_intercalate, List.flatMap_map, List.map_eq_flatMap]
    · exact List.flatMap_congr fun p hp => placeholdersIn_text (h p hp)
    · intro part hpart
      obtain ⟨p, -, rfl⟩ := List.mem_map.mp hpart
      exact endsNumber_of_cons p.toList_text (by decide)
  rw [toList_tupleText, placeholdersIn_cons, if_neg (by decide),
    placeholdersIn_append (endsNumber_of_cons rfl (by decide)), hparts]
  exact List.append_nil _

/-- **Reading gives the numbers back.** -/
theorem placeholdersIn_valuesText {tuples : List (List Placeholder)}
    (h : ∀ tuple ∈ tuples, ∀ p ∈ tuple, PlainCast p.cast) :
    placeholdersIn (valuesText tuples).toList = tuples.flatten.map Placeholder.number := by
  unfold valuesText
  rw [placeholdersIn_intercalate, List.flatMap_map, List.map_flatten, List.flatMap_def]
  · congr 1
    exact List.map_congr_left fun tuple htuple => placeholdersIn_tupleText (h tuple htuple)
  · intro part hpart
    obtain ⟨tuple, -, rfl⟩ := List.mem_map.mp hpart
    exact endsNumber_of_cons (toList_tupleText tuple) (by decide)

theorem endsNumber_valuesText (tuples : List (List Placeholder)) :
    EndsNumber (valuesText tuples).toList := by
  cases tuples with
  | nil => exact nofun
  | cons tuple tuples =>
    obtain ⟨rest, hrest⟩ := toList_valuesText tuple tuples
    exact endsNumber_of_cons hrest (by decide)

/-! ## Texts without placeholders -/

/-- The text has no placeholder. -/
def Plain (text : String) : Prop := '$' ∉ text.toList

instance (text : String) : Decidable (Plain text) :=
  inferInstanceAs (Decidable ('$' ∉ text.toList))

/-- A literal, by its characters. -/
theorem Plain.literal {l : List Char} (h : l.contains '$' = false) : Plain (String.ofList l) := by
  unfold Plain
  rw [String.toList_ofList]
  intro hmem
  rw [List.contains_iff_mem.mpr hmem] at h
  cases h

theorem Plain.append {text text' : String} (h : Plain text) (h' : Plain text') :
    Plain (text ++ text') := by
  unfold Plain
  rw [String.toList_append, List.mem_append]
  exact fun hmem => hmem.elim h h'

theorem Plain.append_literal {text : String} {l : List Char} (h : Plain text)
    (hl : l.contains '$' = false) : Plain (text ++ String.ofList l) :=
  h.append (Plain.literal hl)

theorem Plain.intercalate {separator : String} {texts : List String} (h : Plain separator)
    (htexts : ∀ text ∈ texts, Plain text) : Plain (separator.intercalate texts) := by
  induction texts with
  | nil => exact List.not_mem_nil
  | cons text texts ih =>
    have htext := htexts text List.mem_cons_self
    have hrest := ih fun t ht => htexts t (List.mem_cons_of_mem _ ht)
    cases texts with
    | nil =>
      rw [String.intercalate_singleton]
      exact htext
    | cons text' texts =>
      rw [String.intercalate_cons_cons]
      exact (htext.append h).append hrest

end DelegationStrategy.Lib
