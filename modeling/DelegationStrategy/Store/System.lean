import DelegationStrategy.Lib.Trace
import DelegationStrategy.Store.CloseEpoch

/-!
# Runs of the store commands over one database

The commands that write `validators`, `commissions` and `epochs`, each with its
statements (`steps`). A run executes a command until a statement fails, by itself or
through a fault of the environment; a schedule is a list of runs.

Every statement comes with what it writes into the rows of `validators`.
`step_effect` says that it writes this and nothing else: a row has the values of a
write to it, and without one it keeps its values.
-/

namespace DelegationStrategy.Store

open DelegationStrategy.Lib DelegationStrategy.Collect

/-! ## Writes -/

/-- What a statement writes into the row of a validator, as far as both
`store_validators` and `close_epoch` write it. -/
structure Write where
  voteAccount : String
  epoch : Nat
  createdAt : Timestamp
  credits : Nat
  leaderSlots : Nat
  blocksProduced : Nat
  skipRate : Rat
  /-- `none` if the statement does not write the column. -/
  commissionAdvertised : Option (Option Int)
  deriving DecidableEq, Repr

/-- The write is to this row. -/
def Write.At (w : Write) (row : ValidatorsRow) : Prop :=
  w.voteAccount = row.voteAccount ∧ w.epoch = row.epoch

instance (w : Write) (row : ValidatorsRow) : Decidable (w.At row) :=
  inferInstanceAs (Decidable (_ ∧ _))

/-- The four columns that every write fills. -/
def performance (row : ValidatorsRow) : Nat × Nat × Nat × Rat :=
  (row.credits, row.leaderSlots, row.blocksProduced, row.skipRate)

def Write.performance (w : Write) : Nat × Nat × Nat × Rat :=
  (w.credits, w.leaderSlots, w.blocksProduced, w.skipRate)

/-- Two rows with the same key. -/
def SameKey (row row' : ValidatorsRow) : Prop :=
  row.voteAccount = row'.voteAccount ∧ row.epoch = row'.epoch

def Validator.write (createdAt : Timestamp) (v : Validator) : Write where
  voteAccount := v.voteAccount
  epoch := v.epoch
  createdAt := createdAt
  credits := v.credits
  leaderSlots := v.leaderSlots
  blocksProduced := v.blocksProduced
  skipRate := v.skipRate
  commissionAdvertised := some v.commissionAdvertised

def ValidatorUpdateRecord.write (v : ValidatorUpdateRecord) : Write where
  voteAccount := v.voteAccount
  epoch := v.epoch
  createdAt := v.updatedAt
  credits := v.credits
  leaderSlots := v.leaderSlots
  blocksProduced := v.blocksProduced
  skipRate := v.skipRate
  commissionAdvertised := none

/-! ## Commands -/

/-- A statement and what it writes. -/
structure Step where
  writes : List Write
  statement : Statement DbError Database

section Steps

variable (scan : Scan)

/-- The statements of `store_validators` on a table. -/
def validatorsSteps (snapshot : Snapshot) (table : List ValidatorsRow) : List Step :=
  let updated := updatedVoteAccounts scan snapshot table
  (chunks defaultChunkSize (selectedVoteAccounts scan snapshot table)).map (fun chunk =>
    { writes := (chunk.filterMap (snapshotValidators snapshot).get?).map
        (Validator.write snapshot.createdAt)
      statement := onValidators (updateChunk snapshot chunk) }) ++
  (chunks defaultChunkSize (insertedValidators scan snapshot table)).map fun chunk =>
    { writes := (chunk.filter fun e => e.1 ∉ updated).map fun e =>
        e.2.write snapshot.createdAt
      statement := onValidators (insertChunk snapshot updated chunk) }

/-- The statements of `close_epoch`, none if it panics before the first. -/
def closeEpochSteps (snapshot : ValidatorsPerformanceSnapshot) : List Step :=
  match snapshot.rewards, snapshot.clusterInflation with
  | some rewards, some clusterInflation =>
    ⟨[], createEpochRecord snapshot.epoch clusterInflation⟩ ::
      ((chunks defaultChunkSize (validatorUpdateRecords scan snapshot rewards)).map
          (fun chunk => ⟨chunk.map ValidatorUpdateRecord.write, onValidators (closeChunk chunk)⟩) ++
        [⟨[], updateUptimes snapshot.epoch⟩, ⟨[], updateObservedCommission snapshot.epoch⟩])
  | _, _ => []

/-- They are the statements of the command. -/
theorem validatorsSteps_statement (snapshot : Snapshot) (table : List ValidatorsRow) :
    (validatorsSteps scan snapshot table).map Step.statement =
      (validatorsStatements scan snapshot table).map onValidators := by
  unfold validatorsSteps validatorsStatements
  simp only [List.map_append, List.map_map]
  rfl

theorem closeEpochSteps_statement (snapshot : ValidatorsPerformanceSnapshot) :
    (closeEpochSteps scan snapshot).map Step.statement =
      (closeEpochStatements scan snapshot).getD [] := by
  unfold closeEpochSteps closeEpochStatements closeUpdates
  cases snapshot.rewards with
  | none => rfl
  | some rewards =>
    cases snapshot.clusterInflation with
    | none => rfl
    | some clusterInflation =>
      simp only [List.map_cons, List.map_append, List.map_map]
      simp only [Option.bind_eq_bind, Option.bind_some, Option.getD_some]
      rfl

variable {scan}

/-- The statements of `store_validators`. -/
theorem mem_validatorsSteps {snapshot : Snapshot} {table : List ValidatorsRow} {step : Step}
    (h : step ∈ validatorsSteps scan snapshot table) :
    (∃ chunk ∈ chunks defaultChunkSize (selectedVoteAccounts scan snapshot table),
      step =
        { writes := (chunk.filterMap (snapshotValidators snapshot).get?).map
            (Validator.write snapshot.createdAt)
          statement := onValidators (updateChunk snapshot chunk) }) ∨
    ∃ chunk ∈ chunks defaultChunkSize (insertedValidators scan snapshot table),
      step =
        { writes := (chunk.filter fun e => e.1 ∉ updatedVoteAccounts scan snapshot table).map
            fun e => e.2.write snapshot.createdAt
          statement := onValidators
            (insertChunk snapshot (updatedVoteAccounts scan snapshot table) chunk) } := by
  rcases List.mem_append.mp h with hupdate | hinsert
  · obtain ⟨chunk, hchunk, rfl⟩ := List.mem_map.mp hupdate
    exact Or.inl ⟨chunk, hchunk, rfl⟩
  · obtain ⟨chunk, hchunk, rfl⟩ := List.mem_map.mp hinsert
    exact Or.inr ⟨chunk, hchunk, rfl⟩

/-- The first statements of `close_epoch`. -/
theorem mem_take_closeEpochSteps {snapshot : ValidatorsPerformanceSnapshot} {step : Step}
    {k : Nat} (h : step ∈ (closeEpochSteps scan snapshot).take k) :
    (∃ clusterInflation, step = ⟨[], createEpochRecord snapshot.epoch clusterInflation⟩) ∨
    (∃ rewards, snapshot.rewards = some rewards ∧ ∃ chunk ∈
        (chunks defaultChunkSize (validatorUpdateRecords scan snapshot rewards)).take (k - 1),
      step = ⟨chunk.map ValidatorUpdateRecord.write, onValidators (closeChunk chunk)⟩) ∨
    step = ⟨[], updateUptimes snapshot.epoch⟩ ∨
    step = ⟨[], updateObservedCommission snapshot.epoch⟩ := by
  unfold closeEpochSteps at h
  split at h
  · rename_i rewards clusterInflation hrewards _
    cases k with
    | zero => cases h
    | succ k =>
      rcases List.mem_cons.mp h with rfl | h
      · exact Or.inl ⟨clusterInflation, rfl⟩
      rw [List.take_append, ← List.map_take] at h
      rcases List.mem_append.mp h with hupdate | hlast
      · obtain ⟨chunk, hchunk, rfl⟩ := List.mem_map.mp hupdate
        exact Or.inr (Or.inl ⟨rewards, hrewards, chunk, hchunk, rfl⟩)
      · rcases List.mem_cons.mp (List.mem_of_mem_take hlast) with rfl | hlast
        · exact Or.inr (Or.inr (Or.inl rfl))
        · exact Or.inr (Or.inr (Or.inr (List.mem_singleton.mp hlast)))
  · rw [List.take_nil] at h
    cases h

/-- The statements of `close_epoch`. -/
theorem mem_closeEpochSteps {snapshot : ValidatorsPerformanceSnapshot} {step : Step}
    (h : step ∈ closeEpochSteps scan snapshot) :
    (∃ clusterInflation, step = ⟨[], createEpochRecord snapshot.epoch clusterInflation⟩) ∨
    (∃ rewards, ∃ chunk ∈ chunks defaultChunkSize (validatorUpdateRecords scan snapshot rewards),
      step = ⟨chunk.map ValidatorUpdateRecord.write, onValidators (closeChunk chunk)⟩) ∨
    step = ⟨[], updateUptimes snapshot.epoch⟩ ∨
    step = ⟨[], updateObservedCommission snapshot.epoch⟩ := by
  rw [← List.take_length (l := closeEpochSteps scan snapshot)] at h
  rcases mem_take_closeEpochSteps h with
    hcreate | ⟨rewards, -, chunk, hchunk, rfl⟩ | huptimes | hobserved
  · exact Or.inl hcreate
  · exact Or.inr (Or.inl ⟨rewards, chunk, List.mem_of_mem_take hchunk, rfl⟩)
  · exact Or.inr (Or.inr (Or.inl huptimes))
  · exact Or.inr (Or.inr (Or.inr hobserved))

/-- `update_observed_commission` is the last statement of `close_epoch`. -/
theorem closeEpochSteps_last (scan : Scan) (snapshot : ValidatorsPerformanceSnapshot) :
    closeEpochSteps scan snapshot = [] ∨ ∃ first, closeEpochSteps scan snapshot =
      first ++ [⟨[], updateObservedCommission snapshot.epoch⟩] := by
  unfold closeEpochSteps
  split
  · refine Or.inr ⟨_, (List.dropLast_append_getLast? _ ?_).symm⟩
    rw [← List.cons_append, Option.mem_def, List.getLast?_append]
    rfl
  · exact Or.inl rfl

end Steps

inductive Command where
  | storeValidators (scan : Scan) (snapshot : Snapshot)
  | storeCommissions (scan : Scan) (snapshot : ValidatorsPerformanceSnapshot)
  | closeEpoch (scan : Scan) (snapshot : ValidatorsPerformanceSnapshot)
  /-- Whatever `store_uptime` and `store_cluster_info` make of their tables. -/
  | replaceOthers (uptimes : List UptimeRow) (clusterInfo : List ClusterInfoRow)

/-- The statements of a command that starts in a state of the database. -/
def commandSteps : Command → Database → List Step
  | .storeValidators scan snapshot, db => validatorsSteps scan snapshot db.validators
  | .storeCommissions scan snapshot, _ =>
    [⟨[], fun db => (storeCommissions scan snapshot db.commissions).map fun commissions =>
      { db with commissions := commissions }⟩]
  | .closeEpoch scan snapshot, _ => closeEpochSteps scan snapshot
  | .replaceOthers uptimes clusterInfo, _ =>
    [⟨[], fun db => .ok { db with uptimes := uptimes, clusterInfo := clusterInfo }⟩]

/-- A run of a command; the environment fails the statements that have a fault. -/
structure Run where
  command : Command
  fault : Nat → Option DbError

/-- The database and the result of a run. -/
def Run.execute (run : Run) (db : Database) : Database × Except DbError Unit :=
  autocommit run.fault ((commandSteps run.command db).map Step.statement) db

/-! ## What a step does to `validators` -/

/-- A statement makes `table'` of `table` and writes `writes`. -/
structure StepEffect (writes : List Write) (table table' : List ValidatorsRow) : Prop where
  key : PrimaryKey table'
  persists : ∀ old ∈ table, ∃ row ∈ table', SameKey old row
  written : ∀ row ∈ table', ∀ w ∈ writes, w.At row → w.performance = performance row
  advertised : ∀ row ∈ table', ∀ w ∈ writes, w.At row →
    ∀ a, w.commissionAdvertised = some a → row.commissionAdvertised = a
  kept : ∀ row ∈ table', (∀ w ∈ writes, ¬ w.At row) →
    ∃ old ∈ table, SameKey old row ∧ performance old = performance row
  keptAdvertised : ∀ row ∈ table',
    (∀ w ∈ writes, w.At row → w.commissionAdvertised = none) →
    ∃ old ∈ table, SameKey old row ∧ old.commissionAdvertised = row.commissionAdvertised

section Effects

variable {table table' : List ValidatorsRow}

/-- A statement that leaves `validators` alone. -/
theorem StepEffect.refl (hkey : PrimaryKey table) : StepEffect [] table table where
  key := hkey
  persists row hrow := ⟨row, hrow, rfl, rfl⟩
  written _ _ _ hw := nomatch hw
  advertised _ _ _ hw := nomatch hw
  kept row hrow _ := ⟨row, hrow, ⟨rfl, rfl⟩, rfl⟩
  keptAdvertised row hrow _ := ⟨row, hrow, ⟨rfl, rfl⟩, rfl⟩

/-- A statement that rewrites the rows in place. -/
theorem StepEffect.of_map {writes : List Write} {f : ValidatorsRow → ValidatorsRow}
    (hkey : PrimaryKey table) (hsame : ∀ row, SameKey row (f row))
    (hwritten : ∀ row ∈ table, ∀ w ∈ writes, w.At row → w.performance = performance (f row))
    (hadvertised : ∀ row ∈ table, ∀ w ∈ writes, w.At row →
      ∀ a, w.commissionAdvertised = some a → (f row).commissionAdvertised = a)
    (hkept : ∀ row ∈ table, (∀ w ∈ writes, ¬ w.At row) →
      performance row = performance (f row))
    (hkeptAdvertised : ∀ row ∈ table,
      (∀ w ∈ writes, w.At row → w.commissionAdvertised = none) →
      row.commissionAdvertised = (f row).commissionAdvertised) :
    StepEffect writes table (table.map f) := by
  -- a write is to a row if it is to the rewritten row
  have hat : ∀ (w : Write) row, w.At (f row) ↔ w.At row := by
    intro w row
    unfold Write.At
    rw [(hsame row).1, (hsame row).2]
  refine ⟨?_, fun old hold => ⟨f old, List.mem_map_of_mem hold, hsame old⟩, ?_, ?_, ?_, ?_⟩
  · unfold PrimaryKey
    rw [List.map_map]
    have hcomp : ((fun row : ValidatorsRow => (row.voteAccount, row.epoch)) ∘ f) =
        fun row => (row.voteAccount, row.epoch) :=
      funext fun row => Prod.ext (hsame row).1.symm (hsame row).2.symm
    rw [hcomp]
    exact hkey
  all_goals
    intro row' hrow'
    obtain ⟨row, hrow, rfl⟩ := List.mem_map.mp hrow'
    simp only [hat]
  · exact hwritten row hrow
  · exact hadvertised row hrow
  · exact fun h => ⟨row, hrow, hsame row, hkept row hrow h⟩
  · exact fun h => ⟨row, hrow, hsame row, hkeptAdvertised row hrow h⟩

/-- A statement that appends rows, one for each write. -/
theorem StepEffect.of_append {α : Type} {entries : List α} {row : α → ValidatorsRow}
    {write : α → Write} (hkey : PrimaryKey (table ++ entries.map row))
    (hat : ∀ e ∈ entries, (write e).At (row e))
    (hwritten : ∀ e ∈ entries, (write e).performance = performance (row e))
    (hadvertised : ∀ e ∈ entries,
      (write e).commissionAdvertised = some (row e).commissionAdvertised) :
    StepEffect (entries.map write) table (table ++ entries.map row) := by
  -- the row of a write is the one that was appended with it
  have hrowOf : ∀ row' ∈ table ++ entries.map row, ∀ e ∈ entries, (write e).At row' →
      row' = row e := by
    intro row' hrow' e he h
    refine hkey.eq_of_key hrow' (List.mem_append_right _ (List.mem_map_of_mem he)) ?_ ?_
    · exact h.1.symm.trans (hat e he).1
    · exact h.2.symm.trans (hat e he).2
  refine ⟨hkey, fun old hold => ⟨old, List.mem_append_left _ hold, rfl, rfl⟩, ?_, ?_, ?_, ?_⟩
  · intro row' hrow' w hw h
    obtain ⟨e, he, rfl⟩ := List.mem_map.mp hw
    rw [hrowOf row' hrow' e he h]
    exact hwritten e he
  · intro row' hrow' w hw h a ha
    obtain ⟨e, he, rfl⟩ := List.mem_map.mp hw
    rw [hrowOf row' hrow' e he h]
    exact Option.some.inj ((hadvertised e he).symm.trans ha)
  · intro row' hrow' h
    rcases List.mem_append.mp hrow' with hold | hnew
    · exact ⟨row', hold, ⟨rfl, rfl⟩, rfl⟩
    · obtain ⟨e, he, rfl⟩ := List.mem_map.mp hnew
      exact absurd (hat e he) (h _ (List.mem_map_of_mem he))
  · intro row' hrow' h
    rcases List.mem_append.mp hrow' with hold | hnew
    · exact ⟨row', hold, ⟨rfl, rfl⟩, rfl⟩
    · obtain ⟨e, he, rfl⟩ := List.mem_map.mp hnew
      have hnone := h _ (List.mem_map_of_mem he) (hat e he)
      rw [hadvertised e he] at hnone
      cases hnone

section EditWrites

variable {α : Type} {epoch : Nat} {record : String → Option α}
  {edit : α → ValidatorsRow → ValidatorsRow} {write : α → Write} {chunk : List String}
  (hat : ∀ voteAccount v, record voteAccount = some v →
    (write v).voteAccount = voteAccount ∧ (write v).epoch = epoch)

include hat

/-- A row with a write is the edited row of its record. -/
theorem editRow_of_write {row : ValidatorsRow} {w : Write}
    (hw : w ∈ (chunk.filterMap record).map write) (hrow : w.At row) :
    ∃ v, w = write v ∧ editRow epoch record edit chunk row = edit v row := by
  obtain ⟨v, hv, rfl⟩ := List.mem_map.mp hw
  obtain ⟨voteAccount, hmem, hget⟩ := List.mem_filterMap.mp hv
  obtain ⟨hvote, hepoch⟩ := hat voteAccount v hget
  have hvote' : voteAccount = row.voteAccount := hvote.symm.trans hrow.1
  refine ⟨v, rfl, ?_⟩
  unfold editRow
  rw [if_pos ⟨(hepoch.symm.trans hrow.2).symm, hvote' ▸ hmem⟩, ← hvote', hget]

/-- An edited row has a write. -/
theorem write_of_editRow {row : ValidatorsRow} {v : α}
    (hget : record row.voteAccount = some v) (hmem : row.voteAccount ∈ chunk)
    (hepoch : row.epoch = epoch) :
    write v ∈ (chunk.filterMap record).map write ∧ (write v).At row := by
  obtain ⟨hvote, hepoch'⟩ := hat _ v hget
  exact ⟨List.mem_map_of_mem (List.mem_filterMap.mpr ⟨_, hmem, hget⟩), hvote,
    hepoch'.trans hepoch.symm⟩

end EditWrites

/-- An `UPDATE` from records writes what it writes for each record. -/
theorem StepEffect.of_edits {α : Type} {q : UpdateQuery ValidatorsColumn}
    {params : α → List Param} {epoch : Nat} {record : String → Option α}
    {edit : α → ValidatorsRow → ValidatorsRow} {write : α → Write} {chunk : List String}
    (h : Edits q params epoch record edit) (hkey : PrimaryKey table)
    (hat : ∀ voteAccount v, record voteAccount = some v →
      (write v).voteAccount = voteAccount ∧ (write v).epoch = epoch)
    (hwritten : ∀ v row, (write v).performance = performance (edit v row))
    (hadvertised : ∀ v row a, (write v).commissionAdvertised = some a →
      (edit v row).commissionAdvertised = a)
    (hkept : ∀ v row, (write v).commissionAdvertised = none →
      row.commissionAdvertised = (edit v row).commissionAdvertised) :
    StepEffect ((chunk.filterMap record).map write) table
      (table.map (editRow epoch record edit chunk)) := by
  refine .of_map hkey (fun row => ?_) ?_ ?_ ?_ ?_
  · exact ⟨(h.editRow_key chunk row).1.symm, (h.editRow_key chunk row).2.symm⟩
  · intro row _ w hw hrow
    obtain ⟨v, rfl, hrow'⟩ := editRow_of_write hat hw hrow
    rw [hrow']
    exact hwritten v row
  · intro row _ w hw hrow a ha
    obtain ⟨v, rfl, hrow'⟩ := editRow_of_write hat hw hrow
    rw [hrow']
    exact hadvertised v row a ha
  · intro row _ hnone
    rcases editRow_cases chunk row with hrow' | ⟨v, hget, hmem, hepoch, -⟩
    · rw [hrow']
    · obtain ⟨hv, hrow⟩ := write_of_editRow hat hget hmem hepoch
      exact absurd hrow (hnone _ hv)
  · intro row _ hnone
    rcases editRow_cases chunk row with hrow' | ⟨v, hget, hmem, hepoch, hrow'⟩
    · rw [hrow']
    · obtain ⟨hv, hrow⟩ := write_of_editRow hat hget hmem hepoch
      rw [hrow']
      exact hkept v row (hnone _ hv hrow)

variable {scan : Scan} {db db' : Database} {step : Step}

/-- **A statement of `store_validators`** writes the collected columns of its chunk. -/
theorem validatorsSteps_effect {snapshot : Snapshot} {start : List ValidatorsRow}
    (hstep : step ∈ validatorsSteps scan snapshot start) (hkey : PrimaryKey db.validators)
    (h : step.statement db = .ok db') :
    StepEffect step.writes db.validators db'.validators := by
  rcases mem_validatorsSteps hstep with ⟨chunk, hchunk, rfl⟩ | ⟨chunk, hchunk, rfl⟩
  · obtain ⟨validators, hrun, rfl⟩ := onValidators_eq_ok.mp h
    have hsize : chunk.length * validatorsUpdate.valueTypes.length ≤ maxParams :=
      (Nat.mul_le_mul_right _ (length_of_mem_chunks hchunk)).trans (by decide)
    have hedits := edits_update snapshot
    obtain rfl := Except.ok.inj ((hedits.executeUpdate_eq_ok hkey hsize).symm.trans hrun)
    refine .of_edits hedits hkey (fun _ _ hget => get?_snapshotValidators hget)
      (fun _ _ => rfl) (fun v row a ha => ?_) fun v row hnone => ?_
    · exact Option.some.inj ha
    · cases hnone
  · obtain ⟨validators, hrun, rfl⟩ := onValidators_eq_ok.mp h
    obtain ⟨rfl, hkey'⟩ := insertChunk_append (length_of_mem_chunks hchunk) hkey hrun
    exact .of_append hkey' (fun _ _ => ⟨rfl, rfl⟩) (fun _ _ => rfl) fun _ _ => rfl

/-- A statement that rewrites no column of a write. -/
theorem StepEffect.of_map_nil {f : ValidatorsRow → ValidatorsRow} (hkey : PrimaryKey table)
    (hf : ∀ row, SameKey row (f row) ∧ performance row = performance (f row) ∧
      row.commissionAdvertised = (f row).commissionAdvertised) :
    StepEffect [] table (table.map f) := by
  refine .of_map hkey (fun row => (hf row).1) ?_ ?_ ?_ ?_
  · exact fun _ _ _ hw => (nomatch hw)
  · exact fun _ _ _ hw => (nomatch hw)
  · exact fun row _ _ => (hf row).2.1
  · exact fun row _ _ => (hf row).2.2

/-- **A statement of `close_epoch`** writes the performance columns of its chunk. -/
theorem closeEpochSteps_effect {snapshot : ValidatorsPerformanceSnapshot}
    (hstep : step ∈ closeEpochSteps scan snapshot) (hkey : PrimaryKey db.validators)
    (h : step.statement db = .ok db') :
    StepEffect step.writes db.validators db'.validators := by
  rcases mem_closeEpochSteps hstep with
    ⟨clusterInflation, rfl⟩ | ⟨rewards, chunk, hchunk, rfl⟩ | rfl | rfl
  · obtain ⟨row, -, -, rfl⟩ := createEpochRecord_eq_ok.mp h
    exact .refl hkey
  · obtain ⟨validators, hrun, rfl⟩ := onValidators_eq_ok.mp h
    obtain rfl := Except.ok.inj ((closeChunk_eq_ok hkey hchunk).symm.trans hrun)
    have heffect : StepEffect (((chunk.map ValidatorUpdateRecord.voteAccount).filterMap
          (updateRecord? snapshot rewards)).map ValidatorUpdateRecord.write) db.validators _ :=
      .of_edits (edits_close snapshot rewards) hkey (fun _ _ hget => updateRecord?_key hget)
        (fun _ _ => rfl) (fun _ _ _ ha => (nomatch ha)) fun _ _ _ => rfl
    rwa [filterMap_updateRecord? hchunk] at heffect
  · rcases updateUptimes_eq_ok h with rfl | ⟨vars, -, rfl⟩
    · exact .refl hkey
    · refine .of_map_nil hkey fun row => ?_
      obtain ⟨pct, uptime, downtime, hrow⟩ := timedRow_eq vars db.uptimes row
      rw [hrow]
      exact ⟨⟨rfl, rfl⟩, rfl, rfl⟩
  · obtain rfl := Except.ok.inj h
    refine .of_map_nil hkey fun row => ?_
    unfold observedRow
    split
    · exact ⟨⟨rfl, rfl⟩, rfl, rfl⟩
    · exact ⟨⟨rfl, rfl⟩, rfl, rfl⟩

/-- **A statement of any command** writes what it says and nothing else. -/
theorem step_effect {command : Command} {start : Database}
    (hstep : step ∈ commandSteps command start) (hkey : PrimaryKey db.validators)
    (h : step.statement db = .ok db') :
    StepEffect step.writes db.validators db'.validators := by
  cases command with
  | storeValidators scan snapshot => exact validatorsSteps_effect hstep hkey h
  | storeCommissions scan snapshot =>
    obtain rfl := List.mem_singleton.mp hstep
    obtain ⟨commissions, -, rfl⟩ := map_eq_ok.mp h
    exact .refl hkey
  | closeEpoch scan snapshot => exact closeEpochSteps_effect hstep hkey h
  | replaceOthers uptimes clusterInfo =>
    obtain rfl := List.mem_singleton.mp hstep
    obtain rfl := Except.ok.inj h
    exact .refl hkey

/-- Without a write a row keeps its values. -/
theorem StepEffect.unchanged {writes : List Write} (h : StepEffect writes table table')
    (hkey : PrimaryKey table) {old : ValidatorsRow} (hold : old ∈ table)
    (hno : ∀ w ∈ writes, ¬ w.At old) :
    ∃ row ∈ table', SameKey old row ∧ performance row = performance old ∧
      row.commissionAdvertised = old.commissionAdvertised := by
  obtain ⟨row, hrow, hsame⟩ := h.persists old hold
  have hno' : ∀ w ∈ writes, ¬ w.At row := by
    intro w hw hat
    exact hno w hw ⟨hat.1.trans hsame.1.symm, hat.2.trans hsame.2.symm⟩
  obtain ⟨old₁, hold₁, hsame₁, hperformance⟩ := h.kept row hrow hno'
  obtain ⟨old₂, hold₂, hsame₂, hadvertised⟩ :=
    h.keptAdvertised row hrow fun w hw hat => absurd hat (hno' w hw)
  have heq : ∀ old' ∈ table, SameKey old' row → old' = old := fun old' hold' hsame' =>
    hkey.eq_of_key hold' hold (hsame'.1.trans hsame.1.symm) (hsame'.2.trans hsame.2.symm)
  rw [heq old₁ hold₁ hsame₁] at hperformance
  rw [heq old₂ hold₂ hsame₂] at hadvertised
  exact ⟨row, hrow, hsame, hperformance.symm, hadvertised.symm⟩

/-- `store_validators` writes rows of its snapshot. -/
theorem validatorsSteps_writes {snapshot : Snapshot} {start : List ValidatorsRow}
    (hstep : step ∈ validatorsSteps scan snapshot start) {w : Write} (hw : w ∈ step.writes) :
    w.epoch = snapshot.epoch ∧
      w.voteAccount ∈ snapshot.validators.map ValidatorSnapshot.voteAccount := by
  have hvalidator : ∀ voteAccount v, (snapshotValidators snapshot).get? voteAccount = some v →
      v.epoch = snapshot.epoch ∧
        v.voteAccount ∈ snapshot.validators.map ValidatorSnapshot.voteAccount := by
    intro voteAccount v hget
    obtain ⟨hvote, hepoch⟩ := get?_snapshotValidators hget
    rw [hvote]
    exact ⟨hepoch, mem_keys_snapshotValidators.mp (List.mem_map_of_mem (Dict.mem_of_get? hget))⟩
  rcases mem_validatorsSteps hstep with ⟨chunk, hchunk, rfl⟩ | ⟨chunk, hchunk, rfl⟩
  · obtain ⟨v, hv, rfl⟩ := List.mem_map.mp hw
    obtain ⟨voteAccount, -, hget⟩ := List.mem_filterMap.mp hv
    exact hvalidator voteAccount v hget
  · obtain ⟨e, he, rfl⟩ := List.mem_map.mp hw
    have hmem := mem_of_mem_chunks (by decide) hchunk (List.mem_filter.mp he).1
    exact hvalidator e.1 e.2 (Dict.get?_of_mem (mem_insertedValidators.mp hmem).1)

/-- `close_epoch` writes rows of its epoch. -/
theorem closeEpochSteps_writes {snapshot : ValidatorsPerformanceSnapshot}
    (hstep : step ∈ closeEpochSteps scan snapshot) {w : Write} (hw : w ∈ step.writes) :
    w.epoch = snapshot.epoch := by
  rcases mem_closeEpochSteps hstep with
    ⟨clusterInflation, rfl⟩ | ⟨rewards, chunk, hchunk, rfl⟩ | rfl | rfl
  · cases hw
  · obtain ⟨v, hv, rfl⟩ := List.mem_map.mp hw
    obtain ⟨e, -, rfl⟩ := List.mem_map.mp (mem_of_mem_chunks (by decide) hchunk hv)
    rfl
  · cases hw
  · cases hw

/-- No statement removes the record of an epoch. -/
theorem step_recorded {command : Command} {start : Database} {epoch : Nat}
    (hstep : step ∈ commandSteps command start) (hdb : db.Recorded epoch)
    (h : step.statement db = .ok db') : db'.Recorded epoch := by
  cases command with
  | storeValidators scan snapshot =>
    rcases mem_validatorsSteps hstep with ⟨chunk, -, rfl⟩ | ⟨chunk, -, rfl⟩
    all_goals
      obtain ⟨validators, -, rfl⟩ := onValidators_eq_ok.mp h
      exact hdb
  | storeCommissions scan snapshot =>
    obtain rfl := List.mem_singleton.mp hstep
    obtain ⟨commissions, -, rfl⟩ := map_eq_ok.mp h
    exact hdb
  | closeEpoch scan snapshot =>
    rcases mem_closeEpochSteps hstep with
      ⟨clusterInflation, rfl⟩ | ⟨rewards, chunk, -, rfl⟩ | rfl | rfl
    · obtain ⟨row, -, -, rfl⟩ := createEpochRecord_eq_ok.mp h
      unfold Database.Recorded
      rw [List.map_append]
      exact List.mem_append_left _ hdb
    · obtain ⟨validators, -, rfl⟩ := onValidators_eq_ok.mp h
      exact hdb
    · rcases updateUptimes_eq_ok h with rfl | ⟨vars, -, rfl⟩
      · exact hdb
      · exact hdb
    · obtain rfl := Except.ok.inj h
      exact hdb
  | replaceOthers uptimes clusterInfo =>
    obtain rfl := List.mem_singleton.mp hstep
    obtain rfl := Except.ok.inj h
    exact hdb

end Effects

/-! ## Runs -/

/-- **Run rule**: what every statement of a run keeps, the run keeps. -/
theorem Run.execute_inv {P : Database → Prop} (run : Run) {db : Database}
    (hstep : ∀ step ∈ commandSteps run.command db, ∀ s s', P s →
      step.statement s = .ok s' → P s') (hdb : P db) : P (run.execute db).1 := by
  refine autocommit_inv (fun statement hstatement => ?_) run.fault hdb
  obtain ⟨step, hmem, rfl⟩ := List.mem_map.mp hstatement
  exact hstep step hmem

theorem Run.execute_key (run : Run) {db : Database} (hkey : PrimaryKey db.validators) :
    PrimaryKey (run.execute db).1.validators :=
  run.execute_inv (P := fun db => PrimaryKey db.validators)
    (fun _ hstep _ _ hs h => (step_effect hstep hs h).key) hkey

/-- How many statements of a run commit. -/
def Run.committed (run : Run) (db : Database) : Nat :=
  Lib.committed run.fault ((commandSteps run.command db).map Step.statement) db

/-- They leave the database of the run. -/
theorem Run.commitAll_committed (run : Run) (db : Database) :
    commitAll (((commandSteps run.command db).take (run.committed db)).map Step.statement) db =
      .ok (run.execute db).1 := by
  rw [List.map_take]
  exact Lib.commitAll_committed run.fault _ db

/-- A schedule of runs as a system: every run is enabled and leaves a database. -/
def nextDatabase (db : Database) (run : Run) : Option Database := some (run.execute db).1

/-- The database after all runs. -/
def executeAll (runs : List Run) (db : Database) : Database :=
  runs.foldl (fun db run => (run.execute db).1) db

theorem exec_nextDatabase (db : Database) (runs : List Run) :
    exec nextDatabase db runs = some (executeAll runs db) := by
  induction runs generalizing db with
  | nil => rfl
  | cons run runs ih => exact ih (run.execute db).1

end DelegationStrategy.Store
