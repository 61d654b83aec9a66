import DelegationStrategy.Store.System
import Mathlib.Data.List.Sort

/-!
# `load_ruggers`

`load_ruggers` (`store/src/utils.rs`) selects rows of `validators` by the effective
commission of an epoch and of its neighbours, and reads the observed minimum of the
selected rows into a vector of numbers, which panics on `NULL`. Two of its three
conditions do not look at the minimum.

- `loadRuggers_returns_iff`: on a table it returns exactly if no row that it aggregates
  lacks the minimum;
- `loadRuggers_returns`: it always returns if every run of `close_epoch` that writes an
  effective commission gets to `update_observed_commission`, its last statement.
-/

namespace DelegationStrategy.Store

open DelegationStrategy.Lib DelegationStrategy.Collect

/-! ## The query -/

/-- `a > b` is true; a comparison with `NULL` is not. -/
def isGreater (a b : Option Int) : Bool :=
  match a, b with
  | some a, some b => decide (b < a)
  | _, _ => false

/-- `a <= b` is true. -/
def isAtMost (a b : Option Int) : Bool :=
  match a, b with
  | some a, some b => decide (a ≤ b)
  | _, _ => false

/-- The `WHERE` condition of `filtered_commissions`. -/
def selectsRugger (prevCommission nextCommission : Option Int) (row : ValidatorsRow) : Bool :=
  -- only this condition looks at the observed minimum
  (isGreater row.commissionEffective row.commissionMinObserved &&
    isGreater row.commissionEffective (some 10) &&
    isAtMost row.commissionMinObserved (some 10)) ||
  -- a low commission between two high ones, and a high one between two low ones
  (isGreater prevCommission (some 10) && isAtMost row.commissionEffective (some 10) &&
    isGreater nextCommission (some 10)) ||
  (isAtMost prevCommission (some 10) && isGreater row.commissionEffective (some 10) &&
    isAtMost nextCommission (some 10))

/-- `LAG` and `LEAD` over the rows of a validator in the order of their epochs, after a
row with the effective commission `prev`. -/
def commissionChanges : Option Int → List ValidatorsRow →
    List (Option Int × ValidatorsRow × Option Int)
  | _, [] => []
  | prev, row :: rest =>
    (prev, row, rest.head?.bind ValidatorsRow.commissionEffective) ::
      commissionChanges row.commissionEffective rest

/-- The rows of `filtered_commissions` of a vote account. -/
def filteredCommissions (table : List ValidatorsRow) (voteAccount : String) :
    List ValidatorsRow :=
  let partition := (table.filter fun row => row.voteAccount = voteAccount).insertionSort
    fun row row' => row.epoch ≤ row'.epoch
  ((commissionChanges none partition).filter fun (prev, row, next) =>
    selectsRugger prev next row).map fun (_, row, _) => row

/-- The groups of the result, each in the order in which its rows are aggregated. -/
def ruggerGroups (scan : Scan) (table : List ValidatorsRow) :
    List (String × List ValidatorsRow) :=
  (((table.map ValidatorsRow.voteAccount).dedup).map fun voteAccount =>
    (voteAccount, scan.order (filteredCommissions table voteAccount))).filter fun g =>
      1 < g.2.length

/-! ## The program -/

structure RuggerRecord where
  epochs : List Nat
  occurrences : Nat
  observedCommissions : List Nat
  minCommissions : List Nat
  createdAt : Timestamp
  deriving DecidableEq, Repr

/-- Reading an array into a vector of numbers; `none` is the panic on a `NULL`. -/
def readArray : List (Option Int) → Option (List Int)
  | [] => some []
  | none :: _ => none
  | some a :: rest => (readArray rest).map (a :: ·)

/-- `val as u64` of an `i32` -/
def asU64 (val : Int) : Nat := (val % 2 ^ 64).toNat

/-- The record of a row of the result. -/
def ruggerRecord (now : Timestamp) (rows : List ValidatorsRow) : Option RuggerRecord := do
  let observedCommissions ← readArray (rows.map ValidatorsRow.commissionEffective)
  let minCommissions ← readArray (rows.map ValidatorsRow.commissionMinObserved)
  some
    { epochs := rows.map ValidatorsRow.epoch
      occurrences := rows.length
      observedCommissions := observedCommissions.map asU64
      minCommissions := minCommissions.map asU64
      createdAt := now }

/-- The loop over the result; `none` if a record panics. -/
def ruggerRecords (now : Timestamp) : List (String × List ValidatorsRow) →
    Option (List (String × RuggerRecord))
  | [] => some []
  | g :: groups => do
    let record ← ruggerRecord now g.2
    let records ← ruggerRecords now groups
    some ((g.1, record) :: records)

/-- `load_ruggers`; `none` is a panic. -/
def loadRuggers (scan : Scan) (now : Timestamp) (table : List ValidatorsRow) :
    Option (Dict String RuggerRecord) :=
  (ruggerRecords now (ruggerGroups scan table)).map Dict.ofList

/-! ## When it returns -/

theorem readArray_eq_some {values : List (Option Int)} {l : List Int} :
    readArray values = some l ↔ values = l.map some := by
  induction values generalizing l with
  | nil => cases l <;> simp [readArray]
  | cons value values ih =>
    cases value with
    | none => cases l <;> simp [readArray]
    | some a =>
      cases l with
      | nil => simp [readArray]
      | cons b l =>
        show (readArray values).map (a :: ·) = some (b :: l) ↔ _
        rw [Option.map_eq_some_iff, List.map_cons, List.cons.injEq, Option.some.injEq, ← ih]
        constructor
        · rintro ⟨l', hl', heq⟩
          obtain ⟨rfl, rfl⟩ := List.cons.inj heq
          exact ⟨rfl, hl'⟩
        · rintro ⟨rfl, hl⟩
          exact ⟨l, hl, rfl⟩

theorem readArray_isSome {values : List (Option Int)} :
    (∃ l, readArray values = some l) ↔ ∀ value ∈ values, value ≠ none := by
  constructor
  · rintro ⟨l, hl⟩ value hvalue
    rw [readArray_eq_some.mp hl] at hvalue
    obtain ⟨a, -, rfl⟩ := List.mem_map.mp hvalue
    exact Option.some_ne_none a
  · intro h
    induction values with
    | nil => exact ⟨[], rfl⟩
    | cons value values ih =>
      obtain ⟨l, hl⟩ := ih fun v hv => h v (List.mem_cons_of_mem _ hv)
      obtain ⟨a, rfl⟩ := Option.ne_none_iff_exists'.mp (h value List.mem_cons_self)
      exact ⟨a :: l, by rw [readArray, hl]; rfl⟩

/-- The record has the values of the rows, position by position. -/
structure Aggregates (rows : List ValidatorsRow) (record : RuggerRecord) : Prop where
  epochs : record.epochs = rows.map ValidatorsRow.epoch
  occurrences : record.occurrences = rows.length
  observedCommissions : record.observedCommissions.map some =
    rows.map fun row => row.commissionEffective.map asU64
  minCommissions : record.minCommissions.map some =
    rows.map fun row => row.commissionMinObserved.map asU64

theorem ruggerRecord_aggregates {now : Timestamp} {rows : List ValidatorsRow}
    {record : RuggerRecord} (h : ruggerRecord now rows = some record) :
    Aggregates rows record := by
  obtain ⟨observed, hobserved, h⟩ := Option.bind_eq_some_iff.mp h
  obtain ⟨minimal, hminimal, h⟩ := Option.bind_eq_some_iff.mp h
  obtain rfl := Option.some.inj h
  have hread : ∀ {f : ValidatorsRow → Option Int} {l : List Int},
      readArray (rows.map f) = some l →
        (l.map asU64).map some = rows.map fun row => (f row).map asU64 := by
    intro f l hl
    have hmap := congrArg (List.map (Option.map asU64)) (readArray_eq_some.mp hl)
    rw [List.map_map, List.map_map] at hmap
    rw [List.map_map]
    exact hmap.symm
  exact ⟨rfl, rfl, hread hobserved, hread hminimal⟩

theorem ruggerRecord_isSome {now : Timestamp} {rows : List ValidatorsRow} :
    (∃ record, ruggerRecord now rows = some record) ↔
      ∀ row ∈ rows, row.commissionEffective ≠ none ∧ row.commissionMinObserved ≠ none := by
  constructor
  · rintro ⟨record, h⟩ row hrow
    obtain ⟨observed, hobserved, h⟩ := Option.bind_eq_some_iff.mp h
    obtain ⟨minimal, hminimal, -⟩ := Option.bind_eq_some_iff.mp h
    exact ⟨readArray_isSome.mp ⟨_, hobserved⟩ _ (List.mem_map_of_mem hrow),
      readArray_isSome.mp ⟨_, hminimal⟩ _ (List.mem_map_of_mem hrow)⟩
  · intro h
    have hall : ∀ f : ValidatorsRow → Option Int, (∀ row ∈ rows, f row ≠ none) →
        ∃ l, readArray (rows.map f) = some l := by
      intro f hf
      refine readArray_isSome.mpr fun value hvalue => ?_
      obtain ⟨row, hrow, rfl⟩ := List.mem_map.mp hvalue
      exact hf row hrow
    obtain ⟨observed, hobserved⟩ := hall _ fun row hrow => (h row hrow).1
    obtain ⟨minimal, hminimal⟩ := hall _ fun row hrow => (h row hrow).2
    unfold ruggerRecord
    rw [hobserved, hminimal]
    exact ⟨_, rfl⟩

theorem ruggerRecords_isSome {now : Timestamp} {groups : List (String × List ValidatorsRow)} :
    (∃ records, ruggerRecords now groups = some records) ↔
      ∀ g ∈ groups, ∃ record, ruggerRecord now g.2 = some record := by
  induction groups with
  | nil => exact ⟨fun _ _ h => (nomatch h), fun _ => ⟨[], rfl⟩⟩
  | cons g groups ih =>
    rw [List.forall_mem_cons, ← ih]
    constructor
    · rintro ⟨records, h⟩
      obtain ⟨record, hrecord, h⟩ := Option.bind_eq_some_iff.mp h
      obtain ⟨rest, hrest, -⟩ := Option.bind_eq_some_iff.mp h
      exact ⟨⟨record, hrecord⟩, rest, hrest⟩
    · rintro ⟨⟨record, hrecord⟩, rest, hrest⟩
      unfold ruggerRecords
      rw [hrecord, hrest]
      exact ⟨_, rfl⟩

theorem mem_ruggerRecords {now : Timestamp} {groups : List (String × List ValidatorsRow)}
    {records : List (String × RuggerRecord)} (h : ruggerRecords now groups = some records)
    {e : String × RuggerRecord} (he : e ∈ records) :
    ∃ g ∈ groups, e.1 = g.1 ∧ ruggerRecord now g.2 = some e.2 := by
  induction groups generalizing records with
  | nil =>
    obtain rfl := Option.some.inj h
    cases he
  | cons g groups ih =>
    obtain ⟨record, hrecord, h⟩ := Option.bind_eq_some_iff.mp h
    obtain ⟨rest, hrest, h⟩ := Option.bind_eq_some_iff.mp h
    obtain rfl := Option.some.inj h
    rcases List.mem_cons.mp he with rfl | he
    · exact ⟨g, List.mem_cons_self, rfl, hrecord⟩
    · obtain ⟨g', hg', hkey, hrecord'⟩ := ih hrest he
      exact ⟨g', List.mem_cons_of_mem _ hg', hkey, hrecord'⟩

theorem mem_commissionChanges {prev : Option Int} {rows : List ValidatorsRow}
    {change : Option Int × ValidatorsRow × Option Int}
    (h : change ∈ commissionChanges prev rows) : change.2.1 ∈ rows := by
  induction rows generalizing prev with
  | nil => cases h
  | cons row rows ih =>
    rcases List.mem_cons.mp h with rfl | h
    · exact List.mem_cons_self
    · exact List.mem_cons_of_mem _ (ih h)

/-- A comparison that is true has a left side. -/
theorem ne_none_of_selectsRugger {prev next : Option Int} {row : ValidatorsRow}
    (h : selectsRugger prev next row = true) : row.commissionEffective ≠ none := by
  intro hnone
  unfold selectsRugger isGreater isAtMost at h
  rw [hnone] at h
  simp at h

/-- Selected rows are rows of the validator with an effective commission. -/
theorem mem_filteredCommissions {table : List ValidatorsRow} {voteAccount : String}
    {row : ValidatorsRow} (h : row ∈ filteredCommissions table voteAccount) :
    row ∈ table ∧ row.voteAccount = voteAccount ∧ row.commissionEffective ≠ none := by
  obtain ⟨⟨prev, row', next⟩, hchange, rfl⟩ := List.mem_map.mp h
  obtain ⟨hmem, hselects⟩ := List.mem_filter.mp hchange
  have hpartition := List.mem_filter.mp ((List.mem_insertionSort _).mp
    (mem_commissionChanges hmem))
  exact ⟨hpartition.1, of_decide_eq_true hpartition.2, ne_none_of_selectsRugger hselects⟩

/-- **When it returns**: no aggregated row lacks the observed minimum. -/
theorem loadRuggers_returns_iff (scan : Scan) (now : Timestamp) (table : List ValidatorsRow) :
    (∃ ruggers, loadRuggers scan now table = some ruggers) ↔
      ∀ g ∈ ruggerGroups scan table, ∀ row ∈ g.2, row.commissionMinObserved ≠ none := by
  have hload : (∃ ruggers, loadRuggers scan now table = some ruggers) ↔
      ∃ records, ruggerRecords now (ruggerGroups scan table) = some records := by
    unfold loadRuggers
    constructor
    · rintro ⟨ruggers, h⟩
      obtain ⟨records, hrecords, -⟩ := Option.map_eq_some_iff.mp h
      exact ⟨records, hrecords⟩
    · rintro ⟨records, hrecords⟩
      exact ⟨_, by rw [hrecords]; rfl⟩
  rw [hload, ruggerRecords_isSome]
  refine forall₂_congr fun g hg => ?_
  rw [ruggerRecord_isSome]
  refine forall₂_congr fun row hrow => and_iff_right ?_
  obtain ⟨hgroup, -⟩ := List.mem_filter.mp hg
  obtain ⟨voteAccount, -, rfl⟩ := List.mem_map.mp hgroup
  exact (mem_filteredCommissions (scan.mem_order.mp hrow)).2.2

/-- `load_ruggers` returns on the table: selected rows have all their values, and the
arrays of a record match. -/
structure RuggersLoad (table : List ValidatorsRow) : Prop where
  selected : ∀ voteAccount, ∀ row ∈ filteredCommissions table voteAccount,
    row.commissionEffective ≠ none ∧ row.commissionMinObserved ≠ none
  returns : ∀ scan now, ∃ ruggers, loadRuggers scan now table = some ruggers ∧
    ∀ e ∈ ruggers.entries, ∃ rows, rows.Perm (filteredCommissions table e.1) ∧
      Aggregates rows e.2

/-! ## Rows with an effective commission -/

/-- A row with an effective commission has the observed minimum. -/
def Observed (row : ValidatorsRow) : Prop :=
  row.commissionEffective ≠ none → row.commissionMinObserved ≠ none

theorem ruggersLoad_of_observed {table : List ValidatorsRow} (h : ∀ row ∈ table, Observed row) :
    RuggersLoad table := by
  have hselected : ∀ voteAccount, ∀ row ∈ filteredCommissions table voteAccount,
      row.commissionEffective ≠ none ∧ row.commissionMinObserved ≠ none := by
    intro voteAccount row hrow
    obtain ⟨hmem, -, heffective⟩ := mem_filteredCommissions hrow
    exact ⟨heffective, h row hmem heffective⟩
  refine ⟨hselected, fun scan now => ?_⟩
  obtain ⟨ruggers, hruggers⟩ := (loadRuggers_returns_iff scan now table).mpr (by
    intro g hg row hrow
    obtain ⟨hgroup, -⟩ := List.mem_filter.mp hg
    obtain ⟨voteAccount, -, rfl⟩ := List.mem_map.mp hgroup
    exact (hselected voteAccount row (scan.mem_order.mp hrow)).2)
  refine ⟨ruggers, hruggers, fun e he => ?_⟩
  obtain ⟨records, hrecords, rfl⟩ := Option.map_eq_some_iff.mp hruggers
  obtain ⟨g, hg, hkey, hrecord⟩ := mem_ruggerRecords hrecords (Dict.mem_of_mem_ofList he)
  obtain ⟨hgroup, -⟩ := List.mem_filter.mp hg
  obtain ⟨voteAccount, -, rfl⟩ := List.mem_map.mp hgroup
  refine ⟨_, ?_, ruggerRecord_aggregates hrecord⟩
  rw [hkey]
  exact scan.perm _

theorem observed_of_columns {row row' : ValidatorsRow} (h : Observed row)
    (heffective : row'.commissionEffective = row.commissionEffective)
    (hminimal : row'.commissionMinObserved = row.commissionMinObserved) : Observed row' := by
  unfold Observed at h ⊢
  rw [heffective, hminimal]
  exact h

theorem observed_timedRow (vars : EpochsRow) (uptimes : List UptimeRow) {row : ValidatorsRow}
    (h : Observed row) : Observed (timedRow vars uptimes row) := by
  obtain ⟨pct, uptime, downtime, hrow⟩ := timedRow_eq vars uptimes row
  rw [hrow]
  exact observed_of_columns h rfl rfl

/-- `LEAST` of some value is not `NULL`. -/
theorem least_ne_none {values : List (Option Int)} {a : Int} (h : some a ∈ values) :
    least values ≠ none := by
  unfold least
  intro hnone
  have hmem : a ∈ values.filterMap id := List.mem_filterMap.mpr ⟨some a, h, rfl⟩
  rw [List.min?_eq_none_iff.mp hnone] at hmem
  cases hmem

/-- **`update_observed_commission`** observes the rows of its epoch. -/
theorem observed_observedRow {epoch : Nat} {commissions : List CommissionRow}
    {row : ValidatorsRow} (h : row.epoch ≠ epoch → Observed row) :
    Observed (observedRow epoch commissions row) := by
  unfold observedRow
  split
  · intro heffective
    obtain ⟨a, ha⟩ := Option.ne_none_iff_exists'.mp heffective
    refine least_ne_none (a := a) ?_
    rw [← ha]
    exact List.mem_cons_of_mem _ (List.mem_cons_of_mem _ List.mem_cons_self)
  · rename_i hepoch
    exact h hepoch

/-! ## Statements -/

/-- During a run of a command that started in `start`, every row is observed but for
those of exempt epochs, and has the key of a row of `start`. -/
structure ObservedExcept (exempt : Nat → Prop) (start db : Database) : Prop where
  key : PrimaryKey db.validators
  origin : ∀ row ∈ db.validators, ∃ old ∈ start.validators, SameKey old row
  observed : ∀ row ∈ db.validators, ¬ exempt row.epoch → Observed row

theorem ObservedExcept.refl {exempt : Nat → Prop} {db : Database}
    (hkey : PrimaryKey db.validators) (h : ∀ row ∈ db.validators, Observed row) :
    ObservedExcept exempt db db :=
  ⟨hkey, fun row hrow => ⟨row, hrow, rfl, rfl⟩, fun row hrow _ => h row hrow⟩

/-- A statement that rewrites the rows in place. -/
theorem ObservedExcept.of_map {exempt : Nat → Prop} {start db db' : Database}
    {f : ValidatorsRow → ValidatorsRow} (h : ObservedExcept exempt start db)
    (hdb' : db'.validators = db.validators.map f) (hkey : PrimaryKey db'.validators)
    (hsame : ∀ row, SameKey row (f row))
    (hf : ∀ row ∈ db.validators, ¬ exempt row.epoch → Observed row → Observed (f row)) :
    ObservedExcept exempt start db' := by
  refine ⟨hkey, fun row' hrow' => ?_, fun row' hrow' hexempt => ?_⟩
  all_goals
    rw [hdb'] at hrow'
    obtain ⟨row, hrow, rfl⟩ := List.mem_map.mp hrow'
  · obtain ⟨old, hold, hsame'⟩ := h.origin row hrow
    exact ⟨old, hold, hsame'.1.trans (hsame row).1, hsame'.2.trans (hsame row).2⟩
  · rw [← (hsame row).2] at hexempt
    exact hf row hrow hexempt (h.observed row hrow hexempt)

/-- The `UPDATE` of a chunk, when it writes an effective commission into exempt rows
only. -/
theorem ObservedExcept.closeChunk {exempt : Nat → Prop} {start db : Database} {scan : Scan}
    {snapshot : ValidatorsPerformanceSnapshot} {rewards : Dict String ValidatorRewards}
    {chunk : List ValidatorUpdateRecord} {validators : List ValidatorsRow}
    (h : ObservedExcept exempt start db)
    (hchunk : chunk ∈ chunks defaultChunkSize (validatorUpdateRecords scan snapshot rewards))
    (hsafe : ∀ v ∈ chunk, v.commissionEffective ≠ none →
      exempt snapshot.epoch ∨ rowsAt start.validators v.voteAccount snapshot.epoch = [])
    (hkey' : PrimaryKey validators)
    (hrun : closeChunk chunk db.validators = .ok validators) :
    ObservedExcept exempt start { db with validators := validators } := by
  obtain rfl := Except.ok.inj ((closeChunk_eq_ok h.key hchunk).symm.trans hrun)
  have hedits := edits_close snapshot rewards
  refine h.of_map rfl hkey' (fun row => ?_) fun row hrow hexempt hobserved => ?_
  · exact ⟨(hedits.editRow_key _ row).1.symm, (hedits.editRow_key _ row).2.symm⟩
  · rcases editRow_cases (chunk.map ValidatorUpdateRecord.voteAccount) row with
      hsame | ⟨v, hget, hvote, hepoch, hedit⟩
    · rw [hsame]
      exact hobserved
    · -- a finalized row has no effective commission, or is exempt
      rw [hedit]
      intro heffective
      have hv : v ∈ chunk := by
        rw [← filterMap_updateRecord? hchunk]
        exact List.mem_filterMap.mpr ⟨_, hvote, hget⟩
      rcases hsafe v hv heffective with hexempt' | hnone
      · exact absurd (hepoch ▸ hexempt') hexempt
      · -- the row has the key of a row that was there at the start
        obtain ⟨old, hold, hkey⟩ := h.origin row hrow
        have hvote' : v.voteAccount = row.voteAccount := (updateRecord?_key hget).1
        refine absurd (decide_eq_true ?_) (List.filter_eq_nil_iff.mp hnone old hold)
        exact ⟨hkey.1.trans hvote'.symm, hkey.2.trans hepoch⟩

/-- **A statement of `close_epoch`** observes rows or leaves them as they are, unless it
writes an effective commission. -/
theorem ObservedExcept.close {exempt : Nat → Prop} {start db db' : Database} {scan : Scan}
    {snapshot : ValidatorsPerformanceSnapshot} {step : Step} {k : Nat}
    (h : ObservedExcept exempt start db)
    (hmem : step ∈ (closeEpochSteps scan snapshot).take k)
    (hsafe : ∀ rewards, snapshot.rewards = some rewards → ∀ chunk ∈
      (chunks defaultChunkSize (validatorUpdateRecords scan snapshot rewards)).take (k - 1),
      ∀ v ∈ chunk, v.commissionEffective ≠ none →
        exempt snapshot.epoch ∨ rowsAt start.validators v.voteAccount snapshot.epoch = [])
    (hstep : step.statement db = .ok db') : ObservedExcept exempt start db' := by
  have hkey' : PrimaryKey db'.validators :=
    (closeEpochSteps_effect (List.mem_of_mem_take hmem) h.key hstep).key
  rcases mem_take_closeEpochSteps hmem with
    ⟨clusterInflation, rfl⟩ | ⟨rewards, hrewards, chunk, hchunk, rfl⟩ | rfl | rfl
  · obtain ⟨row, -, -, rfl⟩ := createEpochRecord_eq_ok.mp hstep
    exact ⟨h.key, h.origin, h.observed⟩
  · obtain ⟨validators, hrun, rfl⟩ := onValidators_eq_ok.mp hstep
    exact h.closeChunk (List.mem_of_mem_take hchunk) (hsafe rewards hrewards chunk hchunk)
      hkey' hrun
  · rcases updateUptimes_eq_ok hstep with rfl | ⟨vars, -, rfl⟩
    · exact h
    · refine h.of_map rfl hkey' (fun row => ?_) fun row _ _ => observed_timedRow vars _
      obtain ⟨pct, uptime, downtime, hrow⟩ := timedRow_eq vars db.uptimes row
      rw [hrow]
      exact ⟨rfl, rfl⟩
  · obtain rfl := Except.ok.inj hstep
    refine h.of_map rfl hkey' (fun row => ?_) fun row _ _ hobserved =>
      observed_observedRow fun _ => hobserved
    unfold observedRow
    split <;> exact ⟨rfl, rfl⟩

/-- **A statement of `store_validators`** keeps the closing columns, and a new row has no
effective commission. -/
theorem observed_validatorsStep {scan : Scan} {snapshot : Snapshot}
    {table : List ValidatorsRow} {db db' : Database} {step : Step}
    (hmem : step ∈ validatorsSteps scan snapshot table) (hkey : PrimaryKey db.validators)
    (h : ∀ row ∈ db.validators, Observed row) (hstep : step.statement db = .ok db') :
    ∀ row ∈ db'.validators, Observed row := by
  rcases mem_validatorsSteps hmem with ⟨chunk, hchunk, rfl⟩ | ⟨chunk, hchunk, rfl⟩
  · obtain ⟨validators, hrun, rfl⟩ := onValidators_eq_ok.mp hstep
    have hsize : chunk.length * validatorsUpdate.valueTypes.length ≤ maxParams :=
      (Nat.mul_le_mul_right _ (length_of_mem_chunks hchunk)).trans (by decide)
    obtain rfl := Except.ok.inj
      (((edits_update snapshot).executeUpdate_eq_ok hkey hsize).symm.trans hrun)
    intro row' hrow'
    obtain ⟨row, hrow, rfl⟩ := List.mem_map.mp hrow'
    rcases editRow_cases chunk row with hsame | ⟨v, -, -, -, hedit⟩
    · rw [hsame]
      exact h row hrow
    · rw [hedit]
      exact observed_of_columns (h row hrow) rfl rfl
  · obtain ⟨validators, hrun, rfl⟩ := onValidators_eq_ok.mp hstep
    obtain ⟨rfl, -⟩ := insertChunk_append (length_of_mem_chunks hchunk) hkey hrun
    intro row hrow
    rcases List.mem_append.mp hrow with hold | hnew
    · exact h row hold
    · obtain ⟨e, he, rfl⟩ := List.mem_map.mp hnew
      have hinserted := mem_of_mem_chunks (by decide) hchunk (List.mem_filter.mp he).1
      obtain ⟨v, -, rfl⟩ := mem_snapshotValidators (mem_insertedValidators.mp hinserted).1
      exact fun heffective => absurd rfl heffective

/-! ## Runs -/

/-- Every row has the observed minimum if it has an effective commission. -/
structure AllObserved (db : Database) : Prop where
  key : PrimaryKey db.validators
  observed : ∀ row ∈ db.validators, Observed row

/-- The records of the `UPDATE`s among the first `k` statements of `close_epoch`. -/
def updatedRecords (scan : Scan) (snapshot : ValidatorsPerformanceSnapshot)
    (rewards : Dict String ValidatorRewards) (k : Nat) : List ValidatorUpdateRecord :=
  ((chunks defaultChunkSize (validatorUpdateRecords scan snapshot rewards)).take (k - 1)).flatten

/-- A run of `close_epoch` gets to its end, or stops before an `UPDATE` that gives an
effective commission to a row. -/
def ClosesSafely (db : Database) (run : Run) : Prop :=
  ∀ scan snapshot, run.command = .closeEpoch scan snapshot →
    run.committed db = (closeEpochSteps scan snapshot).length ∨
    ∀ rewards, snapshot.rewards = some rewards →
      ∀ v ∈ updatedRecords scan snapshot rewards (run.committed db),
        v.commissionEffective ≠ none →
          rowsAt db.validators v.voteAccount snapshot.epoch = []

/-- A run of `close_epoch` to its end. -/
theorem AllObserved.complete {scan : Scan} {snapshot : ValidatorsPerformanceSnapshot}
    {db db' : Database} (h : AllObserved db)
    (hrun : commitAll ((closeEpochSteps scan snapshot).map Step.statement) db = .ok db') :
    AllObserved db' := by
  rcases closeEpochSteps_last scan snapshot with hnil | ⟨first, hfirst⟩
  · rw [hnil] at hrun
    obtain rfl := Except.ok.inj hrun
    exact h
  · -- the last statement observes the rows of the epoch, whatever the others did to them
    rw [hfirst, List.map_append] at hrun
    obtain ⟨db₁, hbefore, hlast⟩ := commitAll_append.mp hrun
    have hexcept : ObservedExcept (fun epoch => epoch = snapshot.epoch) db db₁ := by
      refine commitAll_inv (fun statement hstatement s s' hs hstep => ?_)
        (ObservedExcept.refl h.key h.observed) hbefore
      obtain ⟨step, hmem, rfl⟩ := List.mem_map.mp hstatement
      have hmem' : step ∈ (closeEpochSteps scan snapshot).take
          (closeEpochSteps scan snapshot).length := by
        rw [List.take_length, hfirst]
        exact List.mem_append_left _ hmem
      exact hs.close hmem' (fun _ _ _ _ _ _ _ => Or.inl rfl) hstep
    obtain ⟨db₂, hobserve, hend⟩ := commitAll_cons.mp hlast
    obtain rfl := Except.ok.inj hobserve
    obtain rfl := Except.ok.inj hend
    refine ⟨?_, fun row' hrow' => ?_⟩
    · have hmem : (⟨[], updateObservedCommission snapshot.epoch⟩ : Step) ∈
          closeEpochSteps scan snapshot := by
        rw [hfirst]
        exact List.mem_append_right _ (List.mem_singleton_self _)
      exact (closeEpochSteps_effect hmem hexcept.key rfl).key
    · obtain ⟨row, hrow, rfl⟩ := List.mem_map.mp hrow'
      exact observed_observedRow fun hepoch => hexcept.observed row hrow hepoch

/-- **A run** that closes safely keeps all rows observed. -/
theorem AllObserved.execute {db : Database} (h : AllObserved db) {run : Run}
    (hsafe : ClosesSafely db run) : AllObserved (run.execute db).1 := by
  refine ⟨run.execute_key h.key, ?_⟩
  have hcommitted := run.commitAll_committed db
  obtain ⟨command, fault⟩ := run
  cases command with
  | storeValidators scan snapshot =>
    refine (Run.execute_inv (P := AllObserved) _ (fun step hmem s s' hs hstep => ?_) h).observed
    exact ⟨(step_effect hmem hs.key hstep).key,
      observed_validatorsStep hmem hs.key hs.observed hstep⟩
  | storeCommissions scan snapshot =>
    refine (Run.execute_inv (P := AllObserved) _ (fun step hmem s s' hs hstep => ?_) h).observed
    obtain rfl := List.mem_singleton.mp hmem
    obtain ⟨commissions, -, rfl⟩ := map_eq_ok.mp hstep
    exact ⟨hs.key, hs.observed⟩
  | closeEpoch scan snapshot =>
    rcases hsafe scan snapshot rfl with hcomplete | hstopped
    · have hall : (commandSteps (.closeEpoch scan snapshot) db).take
          (Run.committed ⟨.closeEpoch scan snapshot, fault⟩ db) =
          closeEpochSteps scan snapshot := by
        rw [hcomplete]
        exact List.take_length
      rw [hall] at hcommitted
      exact (h.complete hcommitted).observed
    · have hexcept : ObservedExcept (fun _ => False) db
          (Run.execute ⟨.closeEpoch scan snapshot, fault⟩ db).1 := by
        refine commitAll_inv (fun statement hstatement s s' hs hstep => ?_)
          (ObservedExcept.refl h.key h.observed) hcommitted
        obtain ⟨step, hmem, rfl⟩ := List.mem_map.mp hstatement
        refine hs.close hmem (fun rewards hrewards chunk hchunk v hv heffective => ?_) hstep
        exact Or.inr (hstopped rewards hrewards v
          (List.mem_flatten.mpr ⟨chunk, hchunk, hv⟩) heffective)
      exact fun row hrow => hexcept.observed row hrow not_false
  | replaceOthers uptimes clusterInfo =>
    refine (Run.execute_inv (P := AllObserved) _ (fun step hmem s s' hs hstep => ?_) h).observed
    obtain rfl := List.mem_singleton.mp hmem
    obtain rfl := Except.ok.inj hstep
    exact ⟨hs.key, hs.observed⟩

/-- **`load_ruggers` returns** in every state of every schedule in which the runs of
`close_epoch` close safely. -/
theorem loadRuggers_returns (db : Database) (hempty : db.validators = []) (runs : List Run)
    (hsafe : StepsAll nextDatabase ClosesSafely db runs) :
    StatesAll nextDatabase (fun db => RuggersLoad db.validators) db runs := by
  have hinit : AllObserved db := by
    refine ⟨?_, fun row hrow => ?_⟩
    · unfold PrimaryKey
      rw [hempty]
      exact List.nodup_nil
    · rw [hempty] at hrow
      cases hrow
  have hall : StatesAll nextDatabase AllObserved db runs := by
    refine statesAll_of_stepsAll (fun s run s' hs hrun hnext => ?_) hinit hsafe
    obtain rfl := Option.some.inj hnext
    exact hs.execute hrun
  exact hall.mono fun db h => ruggersLoad_of_observed h.observed

/-! ### A validator that raises its commission twice -/

/-- Three epochs of cluster info, and no validator is stored yet. -/
def ruggerDatabase : Database where
  validators := []
  epochs := []
  commissions := []
  uptimes := []
  clusterInfo := [⟨500, 1000, 0⟩, ⟨501, 2000, minute⟩, ⟨502, 3000, 2 * minute⟩]

/-- The validator is stored with an advertised commission of 5. -/
def storeRun (epoch : Nat) : Run where
  command := .storeValidators .sequential { singleValidators 0 10 with epoch := epoch }
  fault _ := none

/-- The epoch is closed with an effective commission. -/
def closeRun (epoch : Nat) (commission : UInt8) (fault : Nat → Option DbError) : Run where
  command := .closeEpoch .sequential
    { closingSnapshot with
      epoch := epoch
      rewards := some (Dict.ofList [("vote", ⟨some commission⟩)]) }
  fault := fault

/-- The commission is 20, 5 and 20, and the second closing loses its connection after the
`UPDATE`. -/
def ruggerRuns : List Run :=
  [storeRun 500, closeRun 500 20 fun _ => none, storeRun 501,
   closeRun 501 5 (stopAt 2 .connection), storeRun 502, closeRun 502 20 fun _ => none]

theorem ruggerRuns_panic :
    loadRuggers .sequential 0 (executeAll ruggerRuns ruggerDatabase).validators = none := rfl

/-- `load_ruggers` does not return in every state that the runs reach. -/
theorem loadRuggers_panics :
    ¬ ∀ (db : Database) (runs : List Run), db.validators = [] →
      StatesAll nextDatabase (fun db => RuggersLoad db.validators) db runs := by
  intro h
  have hload : RuggersLoad (executeAll ruggerRuns ruggerDatabase).validators :=
    (h ruggerDatabase ruggerRuns rfl).last (exec_nextDatabase ruggerDatabase ruggerRuns)
  obtain ⟨ruggers, hruggers, -⟩ := hload.returns .sequential 0
  rw [ruggerRuns_panic] at hruggers
  cases hruggers

/-- Without the lost connection it returns. -/
theorem loadRuggers_returns_complete :
    StatesAll nextDatabase (fun db => RuggersLoad db.validators) ruggerDatabase
      [storeRun 500, closeRun 500 20 fun _ => none] := by
  refine loadRuggers_returns ruggerDatabase rfl _ fun db hdb => ⟨?_, fun db' _ => ⟨?_, trivial⟩⟩
  · exact fun _ _ h => (nomatch h)
  · obtain rfl := Option.some.inj hdb
    rintro scan snapshot h
    obtain ⟨rfl, rfl⟩ := Command.closeEpoch.inj h
    exact Or.inl rfl

end DelegationStrategy.Store
