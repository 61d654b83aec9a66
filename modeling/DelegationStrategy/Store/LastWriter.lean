import DelegationStrategy.Store.System

/-!
# Who wrote the performance of a validator last

`store_validators` and `close_epoch` write the same performance columns of the same
rows, and neither looks at `updated_at` or `created_at` before it does. So a row has
the values of the run that was executed last among those that wrote it, not of the run
with the newest snapshot (`validators_lastWriter`). The two agree when the runs were
executed in the order of their snapshots.

Runs are executed here together with a log of the writes into existing rows; without
the log they are the runs of the system (`logRuns_fst`).
-/

namespace DelegationStrategy.Store

open DelegationStrategy.Lib DelegationStrategy.Collect

/-- A database and the log of the writes into its `validators`. -/
abbrev Logged := Database × List Write

/-- A statement that logs its writes into the rows that are there. -/
def Step.logged (step : Step) : Statement DbError Logged := fun s =>
  (step.statement s.1).map fun db =>
    (db, s.2 ++ step.writes.filter fun w => ∃ row ∈ db.validators, w.At row)

def Run.log (run : Run) (s : Logged) : Logged :=
  (autocommit run.fault ((commandSteps run.command s.1).map Step.logged) s).1

/-- The database and the log after all runs. -/
def logRuns (runs : List Run) (s : Logged) : Logged :=
  runs.foldl (fun s run => run.log s) s

/-- The log makes no difference. -/
theorem Run.log_fst (run : Run) (s : Logged) : (run.log s).1 = (run.execute s.1).1 := by
  refine autocommit_sim Prod.fst (fun step _ s => ?_) run.fault s
  unfold Step.logged
  cases step.statement s.1 with
  | error e => rfl
  | ok db => rfl

theorem logRuns_fst (runs : List Run) (s : Logged) :
    (logRuns runs s).1 = executeAll runs s.1 := by
  induction runs generalizing s with
  | nil => rfl
  | cons run runs ih =>
    show (logRuns runs (run.log s)).1 = executeAll runs (run.execute s.1).1
    rw [ih, Run.log_fst]

/-! ## The last writes -/

/-- The writes into a row, in the order of their execution. -/
def writesTo (log : List Write) (row : ValidatorsRow) : List Write :=
  log.filter fun w => w.At row

/-- Those of them that write `commission_advertised`. -/
def advertisingWritesTo (log : List Write) (row : ValidatorsRow) : List Write :=
  (writesTo log row).filter fun w => w.commissionAdvertised.isSome

theorem writesTo_append (log log' : List Write) (row : ValidatorsRow) :
    writesTo (log ++ log') row = writesTo log row ++ writesTo log' row :=
  List.filter_append ..

theorem writesTo_of_sameKey {row row' : ValidatorsRow} (h : SameKey row row')
    (log : List Write) : writesTo log row = writesTo log row' := by
  unfold writesTo
  refine List.filter_congr fun w _ => decide_eq_decide.mpr ?_
  unfold Write.At
  rw [h.1, h.2]

/-- Writes into a row that is there are all logged. -/
theorem writesTo_logged {table : List ValidatorsRow} {row : ValidatorsRow} (h : row ∈ table)
    (writes : List Write) :
    writesTo (writes.filter fun w => ∃ row ∈ table, w.At row) row = writesTo writes row := by
  unfold writesTo
  rw [List.filter_filter]
  refine List.filter_congr fun w _ => ?_
  by_cases hat : w.At row
  · have hexists : ∃ row ∈ table, w.At row := ⟨row, h, hat⟩
    simp [hat, hexists]
  · simp [hat]

/-- Every row has the values of its last write. -/
structure Reflects (s : Logged) : Prop where
  key : PrimaryKey s.1.validators
  last : ∀ row ∈ s.1.validators, ∃ w, (writesTo s.2 row).getLast? = some w ∧
    w.performance = performance row
  advertised : ∀ row ∈ s.1.validators, ∃ w, (advertisingWritesTo s.2 row).getLast? = some w ∧
    w.commissionAdvertised = some row.commissionAdvertised

theorem reflects_empty {db : Database} (h : db.validators = []) (log : List Write) :
    Reflects (db, log) := by
  have hno : ∀ row, row ∉ db.validators := fun row hrow => by simp [h] at hrow
  refine ⟨?_, fun row hrow => absurd hrow (hno row), fun row hrow => absurd hrow (hno row)⟩
  show PrimaryKey db.validators
  rw [h]
  exact List.nodup_nil

/-- What is last in an extended log is last in the extension, or in the log if the
extension is empty. -/
theorem getLast?_append_cases (log log' : List Write) :
    (log' = [] ∧ (log ++ log').getLast? = log.getLast?) ∨
      ∃ w ∈ log', (log ++ log').getLast? = some w := by
  cases hlast : log'.getLast? with
  | none =>
    obtain rfl := List.getLast?_eq_none_iff.mp hlast
    exact Or.inl ⟨rfl, by rw [List.append_nil]⟩
  | some w =>
    refine Or.inr ⟨w, List.mem_of_getLast? hlast, ?_⟩
    rw [List.getLast?_append, hlast]
    rfl

section Extend

variable {log writes : List Write} {table table' : List ValidatorsRow}

/-- After a statement a row has the performance of its last write. -/
theorem last_extend (h : StepEffect writes table table')
    (hlast : ∀ row ∈ table, ∃ w, (writesTo log row).getLast? = some w ∧
      w.performance = performance row) :
    ∀ row ∈ table', ∃ w, (writesTo log row ++ writesTo writes row).getLast? = some w ∧
      w.performance = performance row := by
  intro row hrow
  rcases getLast?_append_cases (writesTo log row) (writesTo writes row) with
    ⟨hnil, hsame⟩ | ⟨w, hw, hlast'⟩
  · -- no write: the row has the values it had
    have hno : ∀ w ∈ writes, ¬ w.At row := fun w hw hat =>
      List.filter_eq_nil_iff.mp hnil w hw (decide_eq_true hat)
    obtain ⟨old, hold, hkey, hperformance⟩ := h.kept row hrow hno
    obtain ⟨w, hw, hvalues⟩ := hlast old hold
    rw [hsame, ← writesTo_of_sameKey hkey]
    exact ⟨w, hw, hvalues.trans hperformance⟩
  · obtain ⟨hmem, hat⟩ := List.mem_filter.mp hw
    exact ⟨w, hlast', h.written row hrow w hmem (of_decide_eq_true hat)⟩

/-- After a statement a row has the commission of its last advertising write. -/
theorem advertised_extend (h : StepEffect writes table table')
    (hlast : ∀ row ∈ table, ∃ w, (advertisingWritesTo log row).getLast? = some w ∧
      w.commissionAdvertised = some row.commissionAdvertised) :
    ∀ row ∈ table', ∃ w,
      (advertisingWritesTo log row ++ advertisingWritesTo writes row).getLast? = some w ∧
      w.commissionAdvertised = some row.commissionAdvertised := by
  intro row hrow
  rcases getLast?_append_cases (advertisingWritesTo log row) (advertisingWritesTo writes row) with
    ⟨hnil, hsame⟩ | ⟨w, hw, hlast'⟩
  · have hno : ∀ w ∈ writes, w.At row → w.commissionAdvertised = none := by
      intro w hw hat
      have hmem : w ∈ writesTo writes row := List.mem_filter.mpr ⟨hw, decide_eq_true hat⟩
      simpa using List.filter_eq_nil_iff.mp hnil w hmem
    obtain ⟨old, hold, hkey, hadvertised⟩ := h.keptAdvertised row hrow hno
    obtain ⟨w, hw, hvalue⟩ := hlast old hold
    unfold advertisingWritesTo at hsame hw ⊢
    rw [hsame, ← writesTo_of_sameKey hkey]
    exact ⟨w, hw, hvalue.trans (congrArg some hadvertised)⟩
  · obtain ⟨hmem, hsome⟩ := List.mem_filter.mp hw
    obtain ⟨hmem, hat⟩ := List.mem_filter.mp hmem
    obtain ⟨a, ha⟩ := Option.isSome_iff_exists.mp hsome
    refine ⟨w, hlast', ?_⟩
    rw [ha, h.advertised row hrow w hmem (of_decide_eq_true hat) a ha]

end Extend

theorem Step.logged_eq_ok {step : Step} {s s' : Logged} (h : step.logged s = .ok s') :
    step.statement s.1 = .ok s'.1 ∧
      s'.2 = s.2 ++ step.writes.filter fun w => ∃ row ∈ s'.1.validators, w.At row := by
  obtain ⟨db', hs, rfl⟩ := map_eq_ok.mp h
  exact ⟨hs, rfl⟩

/-- **One statement** keeps the values of the last writes. -/
theorem Reflects.step {s s' : Logged} {command : Command} {start : Database} {step : Step}
    (h : Reflects s) (hmem : step ∈ commandSteps command start)
    (hstep : step.logged s = .ok s') : Reflects s' := by
  obtain ⟨hs, hlog⟩ := Step.logged_eq_ok hstep
  have heffect := step_effect hmem h.key hs
  refine ⟨heffect.key, fun row hrow => ?_, fun row hrow => ?_⟩
  · rw [hlog, writesTo_append, writesTo_logged hrow]
    exact last_extend heffect h.last row hrow
  · have hsplit : advertisingWritesTo s'.2 row =
        advertisingWritesTo s.2 row ++ advertisingWritesTo step.writes row := by
      unfold advertisingWritesTo
      rw [hlog, writesTo_append, writesTo_logged hrow, List.filter_append]
    rw [hsplit]
    exact advertised_extend heffect h.advertised row hrow

/-- **A run** keeps them. -/
theorem Reflects.log {s : Logged} (h : Reflects s) (run : Run) : Reflects (run.log s) := by
  refine autocommit_inv (fun statement hstatement s s' hs hstep => ?_) run.fault h
  obtain ⟨step, hmem, rfl⟩ := List.mem_map.mp hstatement
  exact hs.step hmem hstep

/-- **All runs** keep them. -/
theorem Reflects.logRuns {s : Logged} (h : Reflects s) (runs : List Run) :
    Reflects (logRuns runs s) := by
  induction runs generalizing s with
  | nil => exact h
  | cons run runs ih => exact ih (h.log run)

/-! ## Rows that nobody writes -/

/-- The run stores a validator of the epoch. -/
def Run.Stores (run : Run) (voteAccount : String) (epoch : Nat) : Prop :=
  ∃ scan snapshot, run.command = .storeValidators scan snapshot ∧ snapshot.epoch = epoch ∧
    voteAccount ∈ snapshot.validators.map ValidatorSnapshot.voteAccount

/-- A recorded epoch, and a row of it with the values of `row`. -/
structure Finalized (row : ValidatorsRow) (db : Database) : Prop where
  key : PrimaryKey db.validators
  recorded : db.Recorded row.epoch
  kept : ∃ row' ∈ db.validators, SameKey row row' ∧ performance row' = performance row ∧
    row'.commissionAdvertised = row.commissionAdvertised

/-- A statement without a write into the row keeps it. -/
theorem Finalized.step {row : ValidatorsRow} {db db' : Database} {command : Command}
    {start : Database} {step : Step} (h : Finalized row db)
    (hmem : step ∈ commandSteps command start) (hno : ∀ w ∈ step.writes, ¬ w.At row)
    (hstep : step.statement db = .ok db') : Finalized row db' := by
  have heffect := step_effect hmem h.key hstep
  obtain ⟨old, hold, hsame, hperformance, hadvertised⟩ := h.kept
  have hnoOld : ∀ w ∈ step.writes, ¬ w.At old := fun w hw hat =>
    hno w hw ⟨hat.1.trans hsame.1.symm, hat.2.trans hsame.2.symm⟩
  obtain ⟨row', hrow', hsame', hperformance', hadvertised'⟩ :=
    heffect.unchanged h.key hold hnoOld
  refine ⟨heffect.key, step_recorded hmem h.recorded hstep, row', hrow', ?_, ?_, ?_⟩
  · exact ⟨hsame.1.trans hsame'.1, hsame.2.trans hsame'.2⟩
  · exact hperformance'.trans hperformance
  · exact hadvertised'.trans hadvertised

/-- A run of `close_epoch` on a recorded epoch changes nothing. -/
theorem execute_closeEpoch_recorded {scan : Scan} {snapshot : ValidatorsPerformanceSnapshot}
    {fault : Nat → Option DbError} {db : Database} (h : db.Recorded snapshot.epoch) :
    (Run.execute ⟨.closeEpoch scan snapshot, fault⟩ db).1 = db := by
  show (autocommit fault ((closeEpochSteps scan snapshot).map Step.statement) db).1 = db
  unfold closeEpochSteps
  split
  · rename_i clusterInflation _ _
    obtain ⟨e, herror⟩ := createEpochRecord_recorded clusterInflation h
    exact autocommit_cons_error fault _ herror
  · rfl

/-- **A run** that does not store the validator keeps its row of a recorded epoch. -/
theorem Finalized.execute {row : ValidatorsRow} {db : Database} (h : Finalized row db)
    {run : Run} (hrun : ¬ run.Stores row.voteAccount row.epoch) :
    Finalized row (run.execute db).1 := by
  obtain ⟨command, fault⟩ := run
  by_cases hclose : ∃ scan snapshot, command = .closeEpoch scan snapshot ∧
      snapshot.epoch = row.epoch
  · -- the epoch is recorded: the run fails at its first statement
    obtain ⟨scan, snapshot, rfl, hepoch⟩ := hclose
    rw [execute_closeEpoch_recorded (hepoch ▸ h.recorded)]
    exact h
  · refine Run.execute_inv ⟨command, fault⟩ (fun step hmem s s' hs hstep => ?_) h
    refine hs.step hmem (fun w hw hat => ?_) hstep
    cases command with
    | storeValidators scan snapshot =>
      obtain ⟨hepoch, hvote⟩ := validatorsSteps_writes hmem hw
      exact hrun ⟨scan, snapshot, rfl, hepoch.symm.trans hat.2, hat.1 ▸ hvote⟩
    | storeCommissions scan snapshot =>
      obtain rfl := List.mem_singleton.mp hmem
      cases hw
    | closeEpoch scan snapshot =>
      exact hclose ⟨scan, snapshot, rfl, (closeEpochSteps_writes hmem hw).symm.trans hat.2⟩
    | replaceOthers uptimes clusterInfo =>
      obtain rfl := List.mem_singleton.mp hmem
      cases hw

theorem Finalized.executeAll {row : ValidatorsRow} {db : Database} (h : Finalized row db)
    {runs : List Run} (hruns : ∀ run ∈ runs, ¬ run.Stores row.voteAccount row.epoch) :
    Finalized row (executeAll runs db) := by
  induction runs generalizing db with
  | nil => exact h
  | cons run runs ih =>
    exact ih (h.execute (hruns run List.mem_cons_self))
      fun run' hrun' => hruns run' (List.mem_cons_of_mem _ hrun')

/-! ## The last writer -/

/-- The last of the writes that come in the order of their snapshots is the newest. -/
theorem newest_of_ordered {log : List Write} {w : Write} (hlast : log.getLast? = some w)
    (hordered : log.Pairwise fun w w' => w.createdAt ≤ w'.createdAt) :
    ∀ w' ∈ log, w'.createdAt ≤ w.createdAt := by
  obtain ⟨before, rfl⟩ := List.getLast?_eq_some_iff.mp hlast
  intro w' hw'
  rcases List.mem_append.mp hw' with hbefore | hself
  · exact (List.pairwise_append.mp hordered).2.2 w' hbefore w (List.mem_singleton_self w)
  · obtain rfl := List.mem_singleton.mp hself
    exact Int.le_refl _

/-- **The last writer wins.** After every schedule of runs, a row has the performance of
the write executed last into it, and the advertised commission of the last one that wrote
this column; these are of the newest snapshot if the writes came in the order of their
snapshots. The row of a recorded epoch changes only when its validator is stored again. -/
theorem validators_lastWriter (db : Database) (hempty : db.validators = [])
    (runs : List Run) :
    ∀ row ∈ (executeAll runs db).validators,
      (∃ w, (writesTo (logRuns runs (db, [])).2 row).getLast? = some w ∧
        w.performance = performance row ∧
        ((writesTo (logRuns runs (db, [])).2 row).Pairwise
            (fun w w' => w.createdAt ≤ w'.createdAt) →
          ∀ w' ∈ writesTo (logRuns runs (db, [])).2 row, w'.createdAt ≤ w.createdAt)) ∧
      (∃ w, (advertisingWritesTo (logRuns runs (db, [])).2 row).getLast? = some w ∧
        w.commissionAdvertised = some row.commissionAdvertised ∧
        ((advertisingWritesTo (logRuns runs (db, [])).2 row).Pairwise
            (fun w w' => w.createdAt ≤ w'.createdAt) →
          ∀ w' ∈ advertisingWritesTo (logRuns runs (db, [])).2 row,
            w'.createdAt ≤ w.createdAt)) ∧
      ((executeAll runs db).Recorded row.epoch → ∀ later : List Run,
        (∀ run ∈ later, ¬ run.Stores row.voteAccount row.epoch) →
        ∃ row' ∈ (executeAll later (executeAll runs db)).validators, SameKey row row' ∧
          performance row' = performance row ∧
          row'.commissionAdvertised = row.commissionAdvertised) := by
  intro row hrow
  have hreflects := (reflects_empty hempty []).logRuns runs
  have hfst : (logRuns runs (db, [])).1 = executeAll runs db := logRuns_fst runs (db, [])
  have hmem : row ∈ (logRuns runs (db, [])).1.validators := by
    rw [hfst]
    exact hrow
  refine ⟨?_, ?_, fun hrecorded later hlater => ?_⟩
  · obtain ⟨w, hlast, hvalues⟩ := hreflects.last row hmem
    exact ⟨w, hlast, hvalues, newest_of_ordered hlast⟩
  · obtain ⟨w, hlast, hvalue⟩ := hreflects.advertised row hmem
    exact ⟨w, hlast, hvalue, newest_of_ordered hlast⟩
  · have hfinal : Finalized row (executeAll runs db) :=
      ⟨hfst ▸ hreflects.key, hrecorded, row, hrow, ⟨rfl, rfl⟩, rfl, rfl⟩
    exact (hfinal.executeAll hlater).kept

/-! ### A stale snapshot -/

/-- No validator is stored yet. -/
def emptyDatabase : Database := { openDatabase with validators := [] }

/-- A snapshot of minute one is stored after the epoch was closed with a snapshot of
minute six. -/
def staleRuns : List Run :=
  [⟨.storeValidators .sequential (singleValidators 0 10), fun _ => none⟩,
   ⟨.closeEpoch .sequential closingSnapshot, fun _ => none⟩,
   ⟨.storeValidators .sequential (singleValidators minute 7), fun _ => none⟩]

theorem staleRuns_row :
    ∃ row ∈ (executeAll staleRuns emptyDatabase).validators,
      performance row = (7, 4, 4, 0) := by
  decide

/-- The row has the values of the stale snapshot. -/
theorem validators_lastWriter_stale :
    ∃ row ∈ (executeAll staleRuns emptyDatabase).validators, performance row = (7, 4, 4, 0) ∧
      ∃ w, (writesTo (logRuns staleRuns (emptyDatabase, [])).2 row).getLast? = some w ∧
        w.performance = performance row := by
  obtain ⟨row, hrow, hvalues⟩ := staleRuns_row
  obtain ⟨⟨w, hlast, hw, -⟩, -, -⟩ := validators_lastWriter emptyDatabase rfl staleRuns row hrow
  exact ⟨row, hrow, hvalues, w, hlast, hw⟩

/-- They are not those of the newest snapshot that wrote the row. -/
theorem staleRuns_overwrite :
    ∃ row ∈ (executeAll staleRuns emptyDatabase).validators,
      ∀ w ∈ writesTo (logRuns staleRuns (emptyDatabase, [])).2 row,
        (∀ w' ∈ writesTo (logRuns staleRuns (emptyDatabase, [])).2 row,
          w'.createdAt ≤ w.createdAt) →
        w.performance ≠ performance row := by
  decide

end DelegationStrategy.Store
