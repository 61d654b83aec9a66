import DelegationStrategy.Lib.Query
import Mathlib.Data.Rat.Defs

/-!
# Parameterised SQL statements

PostgreSQL statements with bind parameters, as far as a program that combines
`INSERT … VALUES` and `UPDATE … FROM (VALUES …)` statements depends on them.

- A `Param` carries the type the client gives it; a value is accepted only for a
  place of that very type. A place in a `VALUES` list has the type of its cast and
  `TEXT` without one; a place in an `INSERT` has the type of its column.
- A table is a list of typed rows (`Relation`): `get` reads a column, and `build`
  makes a row of column values, unless a `NOT NULL` column is missing or a value
  has the wrong type.
- A statement is atomic: it fails and changes nothing, or applies to all rows.

Everything is positional, as in the protocol: which value reaches which column
depends on the order of the names and of the parameters alone.
`executeUpdate_eq_ok` and `executeInsert_eq_ok` say what a well-typed statement
does.
-/

namespace DelegationStrategy.Lib

/-- Why a statement fails. -/
inductive DbError where
  /-- More bind parameters than the wire protocol can number. -/
  | tooManyParameters
  /-- A row with the same primary key exists. -/
  | uniqueViolation
  /-- `NULL` in a `NOT NULL` column. -/
  | notNullViolation
  /-- A parameter or an assignment of the wrong type. -/
  | datatypeMismatch
  | foreignKeyViolation
  /-- `ON CONFLICT … DO UPDATE` would affect a row twice. -/
  | cardinalityViolation
  | divisionByZero
  /-- The connection is lost or the server reports any other error. -/
  | connection
  deriving DecidableEq, Repr

/-- Bind parameters are numbered by 16 bits. -/
def maxParams : Nat := 65535

/-- A statement with `params` bind parameters. -/
def withParams {α : Type} (params : Nat) (statement : Except DbError α) :
    Except DbError α :=
  if params ≤ maxParams then statement else .error .tooManyParameters

theorem withParams_eq_ok {α : Type} {params : Nat} {statement : Except DbError α}
    {a : α} (h : withParams params statement = .ok a) : statement = .ok a := by
  unfold withParams at h
  split at h
  · exact h
  · cases h

theorem le_of_withParams_eq_ok {α : Type} {params : Nat} {statement : Except DbError α}
    {a : α} (h : withParams params statement = .ok a) : params ≤ maxParams := by
  unfold withParams at h
  split at h
  · assumption
  · cases h

theorem withParams_of_le {α : Type} {params : Nat} (h : params ≤ maxParams)
    (statement : Except DbError α) : withParams params statement = statement :=
  if_pos h

/-! ## Types, values and parameters -/

inductive SqlType where
  | text
  | integer
  | numeric
  | doublePrecision
  | bool
  | timestamp
  deriving DecidableEq, Repr

inductive SqlValue where
  | null
  | text (a : String)
  | integer (a : Int)
  | numeric (a : Rat)
  | doublePrecision (a : Rat)
  | bool (a : Bool)
  | timestamp (a : Int)
  deriving DecidableEq, Repr

/-- A bind parameter. -/
structure Param where
  type : SqlType
  value : SqlValue
  deriving DecidableEq, Repr

/-- How the values of a type travel in a column of type `tag`. The tag tells apart
columns with the same values: an `INTEGER` and a `TIMESTAMP` are both integers. -/
class SqlCodec (tag : SqlType) (α : Type) where
  toSql : α → SqlValue
  ofSql : SqlValue → Option α
  ofSql_toSql : ∀ a, ofSql (toSql a) = some a

attribute [simp] SqlCodec.ofSql_toSql

/-- A parameter of a client type. -/
def param (tag : SqlType) {α : Type} [SqlCodec tag α] (a : α) : Param :=
  ⟨tag, SqlCodec.toSql tag a⟩

instance : SqlCodec .text String where
  toSql := .text
  ofSql
    | .text a => some a
    | _ => none
  ofSql_toSql _ := rfl

instance : SqlCodec .text (Option String) where
  toSql
    | some a => .text a
    | none => .null
  ofSql
    | .text a => some (some a)
    | .null => some none
    | _ => none
  ofSql_toSql a := by cases a <;> rfl

instance : SqlCodec .integer (Option Int) where
  toSql
    | some a => .integer a
    | none => .null
  ofSql
    | .integer a => some (some a)
    | .null => some none
    | _ => none
  ofSql_toSql a := by cases a <;> rfl

/-- A `NUMERIC` column that only ever holds natural numbers. -/
instance : SqlCodec .numeric Nat where
  toSql a := .numeric a
  ofSql
    | .numeric a => if a.den = 1 ∧ 0 ≤ a.num then some a.num.toNat else none
    | _ => none
  ofSql_toSql a := by simp

instance : SqlCodec .numeric (Option Rat) where
  toSql
    | some a => .numeric a
    | none => .null
  ofSql
    | .numeric a => some (some a)
    | .null => some none
    | _ => none
  ofSql_toSql a := by cases a <;> rfl

instance : SqlCodec .doublePrecision Rat where
  toSql := .doublePrecision
  ofSql
    | .doublePrecision a => some a
    | _ => none
  ofSql_toSql _ := rfl

instance : SqlCodec .doublePrecision (Option Rat) where
  toSql
    | some a => .doublePrecision a
    | none => .null
  ofSql
    | .doublePrecision a => some (some a)
    | .null => some none
    | _ => none
  ofSql_toSql a := by cases a <;> rfl

instance : SqlCodec .bool Bool where
  toSql := .bool
  ofSql
    | .bool a => some a
    | _ => none
  ofSql_toSql _ := rfl

instance : SqlCodec .timestamp Int where
  toSql := .timestamp
  ofSql
    | .timestamp a => some a
    | _ => none
  ofSql_toSql _ := rfl

/-! ## Tables -/

/-- A table with rows of type `ρ` and columns `C`. -/
class Relation (ρ : Type) (C : outParam Type) where
  type : C → SqlType
  default : C → SqlValue
  get : ρ → C → SqlValue
  /-- `none` for `NULL` in a `NOT NULL` column or a value of another type. -/
  build : (C → SqlValue) → Option ρ
  primaryKey : List C
  build_get : ∀ row, build (get row) = some row

section Statements

variable {ρ C : Type} [Relation ρ C] [DecidableEq C]

/-- The values of the primary key. -/
def keyOf (row : ρ) : List SqlValue := (Relation.primaryKey ρ).map (Relation.get row)

/-- Bind parameters to places of the given types. -/
def bindParams (types : List SqlType) (params : List Param) : Except DbError (List SqlValue) :=
  if params.map Param.type = types then .ok (params.map Param.value)
  else .error .datatypeMismatch

/-- What stands under a name in a list of values. -/
def valueUnder {α : Type} (names : List C) (values : List α) (c : C) : Option α :=
  ((names.zip values).find? fun e => e.1 = c).map Prod.snd

/-- Check the primary key of the rows a statement leaves. -/
def checkKey (rows : List ρ) : Except DbError (List ρ) :=
  if (rows.map keyOf).Nodup then .ok rows else .error .uniqueViolation

/-- Make a row of column values. -/
def buildRow (values : C → SqlValue) : Except DbError ρ :=
  match Relation.build values with
  | some row => .ok row
  | none => .error .notNullViolation

/-! ### `UPDATE … FROM (VALUES …)` -/

/-- The right side of an assignment. -/
inductive SetExpr (C : Type) where
  /-- `u.c` -/
  | value (c : C)
  /-- `COALESCE(u.c, t.c)` -/
  | coalesce (c : C)
  deriving DecidableEq, Repr

def SetExpr.column {C : Type} : SetExpr C → C
  | .value c => c
  | .coalesce c => c

/-- `UPDATE t SET updates FROM (VALUES …) AS u(valuesNames) WHERE t.c = u.c …`, with
the casts of the values by position. -/
structure UpdateQuery (C : Type) where
  updates : List (C × SetExpr C)
  valuesNames : List C
  whereCondition : List C
  types : List (Nat × SqlType)

variable (q : UpdateQuery C)

/-- The types of the values: `TEXT` without a cast. -/
def UpdateQuery.valueTypes (q : UpdateQuery C) : List SqlType :=
  (List.range q.valuesNames.length).map fun i =>
    ((q.types.find? fun e => e.1 = i).map Prod.snd).getD .text

/-- Every assigned value has the type of its column. -/
def UpdateQuery.Assignable (ρ : Type) [Relation ρ C] (q : UpdateQuery C) : Prop :=
  ∀ e ∈ q.updates, valueUnder q.valuesNames q.valueTypes e.2.column =
    some (Relation.type ρ e.1)

instance (ρ : Type) [Relation ρ C] : Decidable (q.Assignable ρ) :=
  inferInstanceAs (Decidable (∀ e ∈ q.updates, _))

/-- The tuple `u`. -/
def UpdateQuery.tuple (values : List SqlValue) (c : C) : SqlValue :=
  (valueUnder q.valuesNames values c).getD .null

/-- The `WHERE` condition; `NULL` equals nothing. -/
def UpdateQuery.Selects (u : C → SqlValue) (row : ρ) : Prop :=
  ∀ c ∈ q.whereCondition, u c ≠ .null ∧ Relation.get row c = u c

instance (u : C → SqlValue) (row : ρ) : Decidable (q.Selects u row) :=
  inferInstanceAs (Decidable (∀ c ∈ q.whereCondition, _))

/-- The value of an assignment. -/
def SetExpr.eval (u : C → SqlValue) (row : ρ) : SetExpr C → SqlValue
  | .value c => u c
  | .coalesce c => if u c = .null then Relation.get row c else u c

/-- The values of the columns of an updated row. -/
def UpdateQuery.assigned (u : C → SqlValue) (row : ρ) (c : C) : SqlValue :=
  match q.updates.find? fun e => e.1 = c with
  | some e => e.2.eval u row
  | none => Relation.get row c

/-- A row after the statement. -/
def UpdateQuery.updateRow (us : List (C → SqlValue)) (row : ρ) : Except DbError ρ :=
  match us.find? fun u => q.Selects u row with
  | some u => buildRow (q.assigned u row)
  | none => .ok row

/-- Execute the statement with the parameters of its tuples; without a tuple there
is no statement. -/
def executeUpdate (tuples : List (List Param)) (table : List ρ) :
    Except DbError (List ρ) :=
  if tuples = [] then .ok table
  else withParams tuples.flatten.length <|
    if q.Assignable ρ then do
      let values ← tuples.mapM (bindParams q.valueTypes)
      let rows ← table.mapM (q.updateRow (values.map q.tuple))
      checkKey rows
    else .error .datatypeMismatch

/-! ### `INSERT … VALUES` -/

/-- Execute an `INSERT` with the parameters of its rows; without a row there is no
statement. -/
def executeInsert (columns : List C) (tuples : List (List Param)) (table : List ρ) :
    Except DbError (List ρ) :=
  if tuples = [] then .ok table
  else withParams tuples.flatten.length do
    let values ← tuples.mapM (bindParams (columns.map (Relation.type ρ)))
    let rows ← values.mapM fun values => buildRow fun c =>
      (valueUnder columns values c).getD (Relation.default ρ c)
    checkKey (table ++ rows)

/-! ### What well-typed statements do -/

theorem mapM_eq_ok {α β : Type} {f : α → Except DbError β} {g : α → β} {l : List α}
    (h : ∀ a ∈ l, f a = .ok (g a)) : l.mapM f = .ok (l.map g) := by
  induction l with
  | nil => rfl
  | cons a l ih =>
    rw [List.mapM_cons, h a List.mem_cons_self,
      ih fun b hb => h b (List.mem_cons_of_mem _ hb)]
    rfl

/-- If all succeed, the results are what `f` gives. -/
theorem eq_map_of_mapM {α β : Type} {f : α → Except DbError β} {g : α → β} {l : List α}
    {l' : List β} (hg : ∀ a b, f a = .ok b → g a = b) (h : l.mapM f = .ok l') :
    l' = l.map g := by
  induction l generalizing l' with
  | nil => exact (Except.ok.inj h).symm
  | cons a l ih =>
    rw [List.mapM_cons] at h
    obtain ⟨b, hb, h⟩ := bind_eq_ok.mp h
    obtain ⟨bs, hbs, h⟩ := bind_eq_ok.mp h
    obtain rfl := Except.ok.inj h
    rw [List.map_cons, hg a b hb, ih hbs]

/-- If they fail with one error, that is the result. -/
theorem mapM_eq_error {α β : Type} {f : α → Except DbError β} {e : DbError} {l : List α}
    (h : ∀ a ∈ l, f a = .error e ∨ ∃ b, f a = .ok b) (hfails : ∃ a ∈ l, f a = .error e) :
    l.mapM f = .error e := by
  induction l with
  | nil => obtain ⟨a, ha, -⟩ := hfails; cases ha
  | cons a l ih =>
    obtain ⟨hfirst, hrest⟩ := List.forall_mem_cons.mp h
    rw [List.mapM_cons]
    rcases hfirst with herror | ⟨b, hok⟩
    · rw [herror]
      rfl
    · have htail : ∃ a ∈ l, f a = .error e := by
        obtain ⟨a', ha', herror⟩ := hfails
        rcases List.mem_cons.mp ha' with rfl | hmem
        · rw [hok] at herror
          cases herror
        · exact ⟨a', hmem, herror⟩
      rw [hok, ih hrest htail]
      rfl

theorem bindParams_eq_ok {types : List SqlType} {params : List Param}
    (h : params.map Param.type = types) :
    bindParams types params = .ok (params.map Param.value) :=
  if_pos h

variable {q}

omit [DecidableEq C] in
theorem buildRow_eq_ok {values : C → SqlValue} {row : ρ}
    (h : ∀ c, values c = Relation.get row c) : buildRow values = .ok row := by
  obtain rfl : values = Relation.get row := funext h
  unfold buildRow
  rw [Relation.build_get]

/-- A row becomes `f row` if every tuple that selects it assigns the columns of
`f row`, and `f row` is the row itself if no tuple selects it. -/
theorem updateRow_eq_ok {α : Type} {u : α → C → SqlValue} {entries : List α} {row : ρ}
    {f : ρ → ρ}
    (hselected : ∀ e ∈ entries, q.Selects (u e) row →
      ∀ c, q.assigned (u e) row c = Relation.get (f row) c)
    (hother : (∀ e ∈ entries, ¬ q.Selects (u e) row) → f row = row) :
    q.updateRow (entries.map u) row = .ok (f row) := by
  unfold UpdateQuery.updateRow
  cases hfind : (entries.map u).find? fun u => q.Selects u row with
  | none =>
    have hnone := List.find?_eq_none.mp hfind
    refine congrArg Except.ok (hother fun e he hsel => ?_).symm
    exact hnone (u e) (List.mem_map_of_mem he) (decide_eq_true hsel)
  | some v =>
    obtain ⟨e, he, rfl⟩ := List.mem_map.mp (List.mem_of_find?_eq_some hfind)
    have hsel : q.Selects (u e) row := by simpa using List.find?_some hfind
    exact buildRow_eq_ok (hselected e he hsel)

omit [Relation ρ C] [DecidableEq C] in
theorem length_params {α : Type} {params : α → List Param} {types : List SqlType}
    {entries : List α} (h : ∀ e ∈ entries, (params e).map Param.type = types) :
    (entries.map params).flatten.length = entries.length * types.length := by
  induction entries with
  | nil => simp
  | cons e entries ih =>
    have he := congrArg List.length (h e List.mem_cons_self)
    rw [List.length_map] at he
    rw [List.map_cons, List.flatten_cons, List.length_append, he,
      ih fun e' he' => h e' (List.mem_cons_of_mem _ he'), List.length_cons, Nat.succ_mul,
      Nat.add_comm]

/-- **A well-typed `UPDATE`** changes every row as `updateRow` says. -/
theorem executeUpdate_eq_ok {α : Type} {params : α → List Param} {entries : List α}
    {table : List ρ} {f : ρ → ρ} (hassign : q.Assignable ρ)
    (htypes : ∀ e ∈ entries, (params e).map Param.type = q.valueTypes)
    (hsize : entries.length * q.valueTypes.length ≤ maxParams)
    (hrow : ∀ row ∈ table,
      q.updateRow (entries.map fun e => q.tuple ((params e).map Param.value)) row =
        .ok (f row))
    (hkey : ((table.map f).map keyOf).Nodup) :
    executeUpdate q (entries.map params) table = .ok (table.map f) := by
  unfold executeUpdate
  by_cases hnil : entries = []
  · -- no tuple: no row is changed
    subst hnil
    refine congrArg Except.ok ((List.map_congr_left fun row hr => ?_).trans
      (List.map_id table)).symm
    exact (Except.ok.inj (hrow row hr)).symm
  · rw [if_neg (by simpa using hnil), withParams_of_le (by rwa [length_params htypes]),
      if_pos hassign]
    have hbind : (entries.map params).mapM (bindParams q.valueTypes) =
        .ok ((entries.map params).map fun t => t.map Param.value) := by
      refine mapM_eq_ok fun t ht => ?_
      obtain ⟨e, he, rfl⟩ := List.mem_map.mp ht
      exact bindParams_eq_ok (htypes e he)
    rw [hbind]
    show (table.mapM _ >>= checkKey) = _
    rw [List.map_map, List.map_map]
    show (table.mapM (q.updateRow
      (entries.map fun e => q.tuple ((params e).map Param.value))) >>= checkKey) = _
    rw [mapM_eq_ok hrow]
    exact if_pos hkey

/-- A well-typed `INSERT` of some rows fails on the primary key or appends them. -/
theorem executeInsert_eq {α : Type} {params : α → List Param} {row : α → ρ}
    {columns : List C} {entries : List α} {table : List ρ}
    (htypes : ∀ e ∈ entries, (params e).map Param.type = columns.map (Relation.type ρ))
    (hsize : entries.length * columns.length ≤ maxParams)
    (hrow : ∀ e ∈ entries, ∀ c,
      (valueUnder columns ((params e).map Param.value) c).getD (Relation.default ρ c) =
        Relation.get (row e) c)
    (hne : entries ≠ []) :
    executeInsert columns (entries.map params) table = checkKey (table ++ entries.map row) := by
  have hsize' : (entries.map params).flatten.length ≤ maxParams := by
    rwa [length_params htypes, List.length_map]
  have hbind : (entries.map params).mapM (bindParams (columns.map (Relation.type ρ))) =
      .ok ((entries.map params).map fun t => t.map Param.value) := by
    refine mapM_eq_ok fun t ht => ?_
    obtain ⟨e, he, rfl⟩ := List.mem_map.mp ht
    exact bindParams_eq_ok (htypes e he)
  have hbuild : (entries.map fun e => (params e).map Param.value).mapM
      (fun values => buildRow fun c =>
        (valueUnder columns values c).getD (Relation.default ρ c)) =
      .ok (entries.map row) := by
    rw [List.mapM_map]
    exact mapM_eq_ok fun e he => buildRow_eq_ok (hrow e he)
  unfold executeInsert
  rw [if_neg (by simpa using hne), withParams_of_le hsize', hbind, List.map_map]
  show ((entries.map fun e => (params e).map Param.value).mapM _ >>= fun rows =>
    checkKey (table ++ rows)) = _
  rw [hbuild]
  rfl

/-- **A well-typed `INSERT`** appends the rows. -/
theorem executeInsert_eq_ok {α : Type} {params : α → List Param} {row : α → ρ}
    {columns : List C} {entries : List α} {table : List ρ}
    (htypes : ∀ e ∈ entries, (params e).map Param.type = columns.map (Relation.type ρ))
    (hsize : entries.length * columns.length ≤ maxParams)
    (hrow : ∀ e ∈ entries, ∀ c,
      (valueUnder columns ((params e).map Param.value) c).getD (Relation.default ρ c) =
        Relation.get (row e) c)
    (hkey : ((table ++ entries.map row).map keyOf).Nodup) :
    executeInsert columns (entries.map params) table = .ok (table ++ entries.map row) := by
  by_cases hne : entries = []
  · subst hne
    exact congrArg Except.ok (List.append_nil table).symm
  · rw [executeInsert_eq htypes hsize hrow hne]
    exact if_pos hkey

/-- What a well-typed `INSERT` does if it succeeds. -/
theorem eq_append_of_executeInsert {α : Type} {params : α → List Param} {row : α → ρ}
    {columns : List C} {entries : List α} {table table' : List ρ}
    (htypes : ∀ e ∈ entries, (params e).map Param.type = columns.map (Relation.type ρ))
    (hsize : entries.length * columns.length ≤ maxParams)
    (hrow : ∀ e ∈ entries, ∀ c,
      (valueUnder columns ((params e).map Param.value) c).getD (Relation.default ρ c) =
        Relation.get (row e) c)
    (hkey : (table.map keyOf).Nodup)
    (h : executeInsert columns (entries.map params) table = .ok table') :
    table' = table ++ entries.map row ∧ (table'.map keyOf).Nodup := by
  by_cases hne : entries = []
  · subst hne
    obtain rfl := Except.ok.inj h
    exact ⟨(List.append_nil table).symm, hkey⟩
  · rw [executeInsert_eq htypes hsize hrow hne] at h
    unfold checkKey at h
    split at h
    · rename_i hkey'
      obtain rfl := Except.ok.inj h
      exact ⟨rfl, hkey'⟩
    · cases h

end Statements

end DelegationStrategy.Lib
