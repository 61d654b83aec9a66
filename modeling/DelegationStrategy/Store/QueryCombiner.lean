import DelegationStrategy.Lib.Placeholders
import DelegationStrategy.Lib.Query

/-!
# The query combiners

`InsertQueryCombiner` and `UpdateQueryCombiner` (`store/src/utils.rs`) collect rows of values
into the text of one statement and the list of its parameters. The placeholders of a row are
numbered from the length of that list, which the row extends afterwards.

`combiners_encode`: whatever the widths of the rows and the casts, every placeholder refers to
its value, and the text has `$1` to `$n` once each and in order.
-/

namespace DelegationStrategy.Store

open DelegationStrategy.Lib

/-- What `client.execute` sends. -/
structure CombinedQuery (α : Type) where
  statement : String
  params : List α
  deriving DecidableEq, Repr

/-! ## The program -/

section Program

variable {α : Type}

/-- The `query_end` of a row, the same loop in both combiners. -/
def queryEnd (collected width : Nat) (types : Dict Nat String) : String :=
  let loop := (List.range width).foldl (fun queryEnd i =>
    let queryEnd := if i > 0 then queryEnd.push ',' else queryEnd
    let queryEnd := queryEnd ++ ("$" ++ toString (i + 1 + collected))
    match types.get? i with
    | some t => queryEnd ++ ("::" ++ t)
    | none => queryEnd) "("
  loop.push ')'

structure InsertQueryCombiner (α : Type) where
  insertions : Nat
  statement : String
  params : List α
  deriving DecidableEq, Repr

namespace InsertQueryCombiner

def new (tableName columns : String) : InsertQueryCombiner α where
  insertions := 0
  statement := "INSERT INTO " ++ tableName ++ " (" ++ columns ++ ") VALUES"
  params := []

/-- `add`; the vector of values is drained. -/
def add (query : InsertQueryCombiner α) (values : List α) : InsertQueryCombiner α :=
  let separator := if query.insertions = 0 then " " else ","
  let queryEnd := queryEnd query.params.length values.length Dict.empty
  { insertions := query.insertions + 1
    statement := query.statement ++ (separator ++ queryEnd)
    params := query.params ++ values }

/-- The query that `execute` sends; no rows, no query. -/
def execute (query : InsertQueryCombiner α) : Option (CombinedQuery α) :=
  if query.insertions = 0 then none else some ⟨query.statement, query.params⟩

end InsertQueryCombiner

structure UpdateQueryCombiner (α : Type) where
  updates : Nat
  statement : String
  valuesNames : String
  whereCondition : String
  params : List α
  deriving DecidableEq, Repr

/-- The arguments of `UpdateQueryCombiner::add`. -/
structure TypedValues (α : Type) where
  values : List α
  types : Dict Nat String

namespace UpdateQueryCombiner

def new (tableName updates valuesNames whereCondition : String) : UpdateQueryCombiner α where
  updates := 0
  statement := "UPDATE " ++ tableName ++ " SET " ++ updates ++ " FROM (VALUES"
  valuesNames := valuesNames
  whereCondition := whereCondition
  params := []

/-- `add`; the vector of values is drained. -/
def add (query : UpdateQueryCombiner α) (call : TypedValues α) : UpdateQueryCombiner α :=
  let separator := if query.updates = 0 then " " else ","
  let queryEnd := queryEnd query.params.length call.values.length call.types
  { query with
    updates := query.updates + 1
    statement := query.statement ++ (separator ++ queryEnd)
    params := query.params ++ call.values }

/-- `execute` ends the text of the combiner; no rows, no query. -/
def execute (query : UpdateQueryCombiner α) :
    UpdateQueryCombiner α × Option (CombinedQuery α) :=
  if query.updates = 0 then (query, none)
  else
    let statement := query.statement ++
      (") AS " ++ query.valuesNames ++ " WHERE " ++ query.whereCondition)
    ({ query with statement := statement }, some ⟨statement, query.params⟩)

theorem execute_snd (query : UpdateQueryCombiner α) : query.execute.2 =
    if query.updates = 0 then none
    else some ⟨query.statement ++ (") AS " ++ query.valuesNames ++ " WHERE " ++
      query.whereCondition), query.params⟩ := by
  unfold execute
  split
  · rfl
  · rfl

end UpdateQueryCombiner

end Program

/-! ## The text of a row -/

section Rows

variable {α : Type}

/-- The casts of a row, value by value. -/
def TypedValues.casts (call : TypedValues α) : List (Option String) :=
  (List.range call.values.length).map call.types.get?

theorem TypedValues.length_casts (call : TypedValues α) :
    call.casts.length = call.values.length := by
  unfold TypedValues.casts
  rw [List.length_map, List.length_range]

theorem push_eq_append (s : String) (c : Char) : s.push c = s ++ String.singleton c := by
  rw [← String.toList_inj, String.toList_push, String.toList_append, String.toList_singleton]

/-- What the loop pushes for a value is its placeholder. -/
theorem push_placeholder (s : String) (number : Nat) (cast : Option String) :
    (match cast with
      | some t => s ++ ("$" ++ toString number) ++ ("::" ++ t)
      | none => s ++ ("$" ++ toString number)) = s ++ Placeholder.text ⟨number, cast⟩ := by
  unfold Placeholder.text
  cases cast with
  | some t => exact String.append_assoc ..
  | none => exact congrArg (s ++ ·) String.append_empty.symm

/-- **The loop** writes a tuple that is numbered from the parameters that are there. -/
theorem queryEnd_eq (collected width : Nat) (types : Dict Nat String) :
    queryEnd collected width types =
      tupleText (numberFrom (collected + 1) ((List.range width).map types.get?)) := by
  have hloop : (List.range width).foldl (fun queryEnd i =>
      let queryEnd := if i > 0 then queryEnd.push ',' else queryEnd
      let queryEnd := queryEnd ++ ("$" ++ toString (i + 1 + collected))
      match types.get? i with
      | some t => queryEnd ++ ("::" ++ t)
      | none => queryEnd) "(" = "(" ++ ",".intercalate
        ((numberFrom (collected + 1) ((List.range width).map types.get?)).map
          Placeholder.text) := by
    induction width with
    | zero => rfl
    | succ width ih =>
      rw [List.range_succ, List.foldl_append, ih, List.map_append, List.map_singleton,
        numberFrom_concat, List.map_append, List.map_singleton, List.length_map,
        List.length_range, List.foldl_cons, List.foldl_nil]
      have hnumber : width + 1 + collected = collected + 1 + width := by omega
      refine (push_placeholder _ _ _).trans ?_
      rw [hnumber]
      by_cases hzero : width = 0
      · subst hzero
        rfl
      · -- a comma after the tuple so far
        have hne : (numberFrom (collected + 1) ((List.range width).map types.get?)).map
            Placeholder.text ≠ [] := by
          intro hnil
          have hlength := congrArg List.length hnil
          rw [List.length_map, length_numberFrom, List.length_map, List.length_range] at hlength
          exact hzero hlength
        rw [if_pos (Nat.pos_of_ne_zero hzero), push_eq_append,
          String.intercalate_append_of_ne_nil hne (List.cons_ne_nil _ _),
          String.intercalate_singleton, String.append_assoc, String.append_assoc,
          String.append_assoc]
        rfl
  unfold queryEnd
  rw [hloop]
  exact push_eq_append _ _

end Rows

/-! ## The text of a statement -/

section Statements

variable {α : Type} {head tail : String} {calls : List (TypedValues α)} {count : Nat}
  {statement : String} {params : List α}

/-- What a combiner has after some calls. -/
structure Combines (head : String) (calls : List (TypedValues α)) (count : Nat)
    (statement : String) (params : List α) : Prop where
  count : count = calls.length
  statement : statement = head ++ (if calls.isEmpty then "" else " ") ++
    valuesText (numberTuples 1 (calls.map TypedValues.casts))
  params : params = calls.flatMap TypedValues.values

theorem Combines.length_params (h : Combines head calls count statement params) :
    ((calls.map TypedValues.casts).map List.length).sum = params.length := by
  rw [h.params, List.length_flatMap, List.map_map]
  exact congrArg List.sum (List.map_congr_left fun call _ => call.length_casts)

theorem combines_new (head : String) : Combines head ([] : List (TypedValues α)) 0 head [] where
  count := rfl
  statement := by
    show head = head ++ "" ++ ""
    rw [String.append_empty, String.append_empty]
  params := rfl

/-- One call adds a tuple and its values. -/
theorem combines_add (h : Combines head calls count statement params) (call : TypedValues α) :
    Combines head (calls ++ [call]) (count + 1)
      (statement ++ ((if count = 0 then " " else ",") ++
        queryEnd params.length call.values.length call.types))
      (params ++ call.values) where
  count := by rw [h.count, List.length_append, List.length_singleton]
  statement := by
    rw [h.statement, h.count, queryEnd_eq, List.map_append, List.map_singleton,
      numberTuples_concat, h.length_params, Nat.add_comm 1]
    cases calls with
    | nil =>
      show head ++ "" ++ "" ++ (" " ++ _) = head ++ " " ++ valuesText [_]
      rw [String.append_empty, String.append_empty, ← String.append_assoc]
      exact congrArg _ String.intercalate_singleton.symm
    | cons first calls =>
      have hne : numberTuples 1 ((first :: calls).map TypedValues.casts) ≠ [] :=
        numberTuples_ne_nil (List.cons_ne_nil _ _)
      rw [valuesText_concat _ hne, List.length_cons, if_neg (Nat.add_one_ne_zero _)]
      simp only [List.cons_append, List.isEmpty_cons, Bool.false_eq_true, if_false,
        String.append_assoc]
      rfl
  params := by rw [h.params, List.flatMap_append, List.flatMap_singleton]

/-- The numbers of the whole statement. -/
theorem Combines.numbers (h : Combines head calls count statement params) :
    (numberTuples 1 (calls.map TypedValues.casts)).flatten.map Placeholder.number =
      List.range' 1 params.length := by
  rw [numbers_numberTuples, h.length_params]

/-- The statement has one tuple for each call, separated by commas, and nothing else between
`head` and `tail`. -/
structure EncodedAs (head tail : String) (calls : List (TypedValues α)) (query : CombinedQuery α)
    (tuples : List (List Placeholder)) : Prop where
  text : query.statement =
    head ++ (if calls.isEmpty then "" else " ") ++ valuesText tuples ++ tail
  /-- The placeholders of a tuple refer to the values of its call, one by one, and have the
  casts of the call at their indices. -/
  rows : List.Forall₂ (fun call tuple =>
    tuple.map (Placeholder.value? query.params) = call.values.map some ∧
      tuple.map Placeholder.cast = (List.range call.values.length).map call.types.get?)
    calls tuples
  params : query.params = calls.flatMap TypedValues.values
  /-- The numbers of the whole statement. -/
  numbers : tuples.flatten.map Placeholder.number = List.range' 1 query.params.length
  /-- These are the placeholders that the server reads, unless a text that is given has some. -/
  read : '$' ∉ head.toList → '$' ∉ tail.toList →
    (∀ call ∈ calls, ∀ e ∈ call.types.entries, '$' ∉ e.2.toList) →
      placeholdersIn query.statement.toList = List.range' 1 query.params.length

/-- The text of a combiner, with what ends the statement. -/
theorem encodedAs_of_combines (h : Combines head calls count statement params)
    (htail : EndsNumber tail.toList) :
    EncodedAs head tail calls ⟨statement ++ tail, params⟩
      (numberTuples 1 (calls.map TypedValues.casts)) where
  text := congrArg (· ++ tail) h.statement
  rows := by
    have hlengths : ∀ row ∈ calls.map fun call => (call.values, call.casts),
        row.2.length = row.1.length := by
      intro row hrow
      obtain ⟨call, -, rfl⟩ := List.mem_map.mp hrow
      exact call.length_casts
    have hrows := values_numberTuples [] hlengths
    rw [List.map_map, List.flatMap_map] at hrows
    rw [h.params]
    exact List.forall₂_map_left_iff.mp hrows
  params := h.params
  numbers := h.numbers
  read hhead htail' hcasts := by
    have hplain : ∀ tuple ∈ numberTuples 1 (calls.map TypedValues.casts), ∀ p ∈ tuple,
        PlainCast p.cast := by
      intro tuple htuple p hp text htext
      obtain ⟨call, hcall, hrow⟩ := List.mem_map.mp (mem_numberTuples htuple)
      have hmem : p.cast ∈ call.casts := hrow ▸ List.mem_map_of_mem hp
      obtain ⟨i, -, hi⟩ := List.mem_map.mp hmem
      exact hcasts call hcall _ (Dict.mem_of_get? (hi.trans htext))
    have hseparator : '$' ∉ (head ++ if calls.isEmpty then "" else " ").toList := by
      rw [String.toList_append]
      refine fun hmem => (List.mem_append.mp hmem).elim hhead fun hmem => ?_
      split at hmem
      · exact absurd hmem (by decide)
      · exact absurd hmem (by decide)
    show placeholdersIn (statement ++ tail).toList = _
    rw [h.statement, String.toList_append, placeholdersIn_append htail, String.toList_append,
      placeholdersIn_append (endsNumber_valuesText _), placeholdersIn_eq_nil hseparator,
      placeholdersIn_eq_nil htail', placeholdersIn_valuesText hplain, List.nil_append,
      List.append_nil, h.numbers]

/-- The text before `execute` ends it. -/
theorem encodedAs_empty (h : Combines head calls count statement params) :
    EncodedAs head "" calls ⟨statement, params⟩
      (numberTuples 1 (calls.map TypedValues.casts)) := by
  have hencoded : EncodedAs head "" calls ⟨statement ++ "", params⟩ _ :=
    encodedAs_of_combines h nofun
  rwa [String.append_empty] at hencoded

end Statements

/-! ## The combiners -/

section Combiners

variable {α : Type}

/-- A row of `InsertQueryCombiner`. -/
def TypedValues.untyped (values : List α) : TypedValues α := ⟨values, Dict.empty⟩

/-- The texts around the tuples. -/
def insertHead (tableName columns : String) : String :=
  "INSERT INTO " ++ tableName ++ " (" ++ columns ++ ") VALUES"

def updateHead (tableName updates : String) : String :=
  "UPDATE " ++ tableName ++ " SET " ++ updates ++ " FROM (VALUES"

def updateTail (valuesNames whereCondition : String) : String :=
  ") AS " ++ valuesNames ++ " WHERE " ++ whereCondition

theorem endsNumber_updateTail (valuesNames whereCondition : String) :
    EndsNumber (updateTail valuesNames whereCondition).toList := by
  unfold updateTail
  rw [String.append_assoc, String.append_assoc, String.toList_append]
  exact endsNumber_of_cons rfl (by decide)

/-- No rows, no query. -/
theorem ite_length_eq_zero {β γ : Type} (calls : List β) (query : Option γ) :
    (if calls.length = 0 then none else query) = if calls.isEmpty then none else query := by
  cases calls with
  | nil => rfl
  | cons call calls => rfl

theorem InsertQueryCombiner.combines (tableName columns : String) (calls : List (List α)) :
    Combines (insertHead tableName columns) (calls.map TypedValues.untyped)
      (calls.foldl add (new tableName columns)).insertions
      (calls.foldl add (new tableName columns)).statement
      (calls.foldl add (new tableName columns)).params := by
  induction calls using List.reverseRecOn with
  | nil => exact combines_new _
  | append_singleton calls values ih =>
    rw [List.foldl_append, List.map_append]
    exact combines_add ih (TypedValues.untyped values)

theorem UpdateQueryCombiner.combines (tableName updates valuesNames whereCondition : String)
    (calls : List (TypedValues α)) :
    Combines (updateHead tableName updates) calls
      (calls.foldl add (new tableName updates valuesNames whereCondition)).updates
      (calls.foldl add (new tableName updates valuesNames whereCondition)).statement
      (calls.foldl add (new tableName updates valuesNames whereCondition)).params := by
  induction calls using List.reverseRecOn with
  | nil => exact combines_new _
  | append_singleton calls call ih =>
    rw [List.foldl_append]
    exact combines_add ih call

/-- The texts that `execute` needs stay as they are. -/
theorem UpdateQueryCombiner.texts (tableName updates valuesNames whereCondition : String)
    (calls : List (TypedValues α)) :
    (calls.foldl add (new tableName updates valuesNames whereCondition)).valuesNames =
        valuesNames ∧
      (calls.foldl add (new tableName updates valuesNames whereCondition)).whereCondition =
        whereCondition := by
  induction calls using List.reverseRecOn with
  | nil => exact ⟨rfl, rfl⟩
  | append_singleton calls call ih =>
    rw [List.foldl_append]
    exact ih

/-- **The combiners encode rows faithfully**: the text that is built, the counter and what
`execute` sends, for all sequences of calls. -/
theorem combiners_encode {α : Type} :
    (∀ (tableName columns : String) (calls : List (List α)),
      let query := calls.foldl InsertQueryCombiner.add (.new tableName columns)
      query.insertions = calls.length ∧
      (∃ tuples, EncodedAs (insertHead tableName columns) "" (calls.map TypedValues.untyped)
        ⟨query.statement, query.params⟩ tuples) ∧
      query.execute = if calls.isEmpty then none else some ⟨query.statement, query.params⟩) ∧
    (∀ (tableName updates valuesNames whereCondition : String) (calls : List (TypedValues α)),
      let query := calls.foldl UpdateQueryCombiner.add
        (.new tableName updates valuesNames whereCondition)
      query.updates = calls.length ∧
      (∃ tuples,
        EncodedAs (updateHead tableName updates) "" calls ⟨query.statement, query.params⟩ tuples ∧
        EncodedAs (updateHead tableName updates) (updateTail valuesNames whereCondition) calls
          ⟨query.statement ++ updateTail valuesNames whereCondition, query.params⟩ tuples) ∧
      query.execute.2 = if calls.isEmpty then none
        else some ⟨query.statement ++ updateTail valuesNames whereCondition, query.params⟩) := by
  constructor
  · intro tableName columns calls query
    have h : Combines _ _ query.insertions query.statement query.params :=
      InsertQueryCombiner.combines tableName columns calls
    have hcount : query.insertions = calls.length := h.count.trans (List.length_map _)
    refine ⟨hcount, ⟨_, encodedAs_empty h⟩, ?_⟩
    unfold InsertQueryCombiner.execute
    rw [hcount, ite_length_eq_zero]
  · intro tableName updates valuesNames whereCondition calls query
    have h : Combines _ _ query.updates query.statement query.params :=
      UpdateQueryCombiner.combines tableName updates valuesNames whereCondition calls
    obtain ⟨hnames, hwhere⟩ : query.valuesNames = valuesNames ∧
        query.whereCondition = whereCondition :=
      UpdateQueryCombiner.texts tableName updates valuesNames whereCondition calls
    refine ⟨h.count, ⟨_, encodedAs_empty h, encodedAs_of_combines h ?_⟩, ?_⟩
    · exact endsNumber_updateTail valuesNames whereCondition
    · rw [← ite_length_eq_zero, ← h.count, ← hnames, ← hwhere]
      exact query.execute_snd

example : (([⟨[7, 60], Dict.ofList [(0, "BIGINT")]⟩, ⟨[8, 60], Dict.empty⟩].foldl
      UpdateQueryCombiner.add (.new "uptimes" "end_at = u.end_at" "u(id, end_at)"
        "uptimes.id = u.id")).execute.2).map CombinedQuery.statement =
    some ("UPDATE uptimes SET end_at = u.end_at FROM (VALUES ($1::BIGINT,$2),($3,$4)) " ++
      "AS u(id, end_at) WHERE uptimes.id = u.id") := by
  decide

end Combiners

end DelegationStrategy.Store
