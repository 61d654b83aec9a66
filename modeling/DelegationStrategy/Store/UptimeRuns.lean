import DelegationStrategy.Store.EpochIntervals
import Mathlib.Data.List.Sort

/-!
# Runs of `store_uptime` in any order

Nothing orders the snapshots that `store_uptime` reads: a late or a replayed snapshot
passes the grace test of a row that starts after it, and closes this row before its
start. Such a row surfaces in the readers: `load_incidents` converts `downtime_seconds`
to a `u64`, and so does `load_validators` with the sum that `update_uptimes` wrote.

The command may also stop between its statements (`fault`). `runUptime_cases` says what
it leaves in any case; the rows stay in order exactly if no committed `UPDATE` touches a
row that starts after the snapshot (`InTime`).
-/

namespace DelegationStrategy.Store

open DelegationStrategy.Lib DelegationStrategy.Collect

/-! ## The command -/

/-- The statements of `store_uptime`, once its query has read `rows`. -/
def uptimeStatements (scan : Scan) (snapshot : ValidatorsPerformanceSnapshot)
    (rows : List UptimeRow) : List (Statement DbError UptimesTable) :=
  [updateEndAt (recordsExtensions snapshot scan rows),
    insertUptimes snapshot (validatorsWithExtendedStatus snapshot scan rows)]

/-- One execution of the command: what the environment fails, the order in which the
query returns its rows, and the snapshot. -/
structure UptimeRun where
  fault : Nat → Option DbError
  scan : Scan
  snapshot : ValidatorsPerformanceSnapshot

/-- The table a run leaves, and its result. -/
def runUptime (run : UptimeRun) (table : UptimesTable) : UptimesTable × Except DbError Unit :=
  autocommit run.fault (uptimeStatements run.scan run.snapshot table.rows) table

def uptimeStep (table : UptimesTable) (run : UptimeRun) : Option UptimesTable :=
  some (runUptime run table).1

/-- The statements together are `store_uptime`. -/
theorem commitAll_uptimeStatements (scan : Scan) (snapshot : ValidatorsPerformanceSnapshot)
    (table : UptimesTable) :
    commitAll (uptimeStatements scan snapshot table.rows) table =
      storeUptime scan snapshot table := by
  unfold uptimeStatements storeUptime
  cases hupdate : updateEndAt (recordsExtensions snapshot scan table.rows) table with
  | error e => simp only [commitAll, hupdate]; rfl
  | ok updated =>
    simp only [commitAll, hupdate]
    cases hinsert : insertUptimes snapshot
      (validatorsWithExtendedStatus snapshot scan table.rows) updated with
    | error e => exact hinsert.symm
    | ok stored => exact hinsert.symm

/-! ## The readers -/

structure IncidentRecord where
  epoch : Nat
  startAt : Timestamp
  endAt : Timestamp
  downtimeSeconds : Nat
  deriving DecidableEq, Repr

/-- `EXTRACT('epoch' FROM (end_at - start_at))::BIGINT`. -/
def downtimeSeconds (row : UptimeRow) : Int :=
  numericToInteger (seconds (row.endAt - row.startAt))

/-- A row of the query, with `row.get::<_, i64>("downtime_seconds").try_into()?`. -/
def incidentRecord (row : UptimeRow) : Option IncidentRecord :=
  if 0 ≤ downtimeSeconds row then
    some
      { epoch := row.epoch
        startAt := row.startAt
        endAt := row.endAt
        downtimeSeconds := (downtimeSeconds row).toNat }
  else none

/-- The rows of the query of `load_incidents`, in no order yet. -/
def incidentRows (epochs : Nat) (db : Database) : List UptimeRow :=
  match (db.clusterInfo.map ClusterInfoRow.epoch).max? with
  | some lastEpoch => db.uptimes.filter fun row =>
      row.status = .down ∧ (lastEpoch : Int) - epochs < row.epoch
  -- the comparison with `NULL` selects nothing
  | none => []

/-- `load_incidents`; `none` if a conversion fails. -/
def loadIncidents (scan : Scan) (epochs : Nat) (db : Database) :
    Option (Dict String (List IncidentRecord)) :=
  let rows := (scan.order (incidentRows epochs db)).insertionSort fun row row' =>
    row.startAt ≤ row'.startAt
  rows.foldlM (fun records row => (incidentRecord row).map (records.push row.voteAccount))
    Dict.empty

/-- `load_validators` can read the column `downtime`: it panics on a negative value. -/
def ReadableDowntime (row : ValidatorsRow) : Prop :=
  ∀ downtime, row.downtime = some downtime → 0 ≤ downtime

theorem isSome_incidentRecord {row : UptimeRow} (h : row.startAt ≤ row.endAt) :
    (incidentRecord row).isSome := by
  have hnonneg : 0 ≤ downtimeSeconds row :=
    numericToInteger_nonneg (seconds_nonneg (Int.sub_nonneg_of_le h))
  unfold incidentRecord
  rw [if_pos hnonneg]
  rfl

theorem mem_of_mem_incidentRows {epochs : Nat} {db : Database} {row : UptimeRow}
    (h : row ∈ incidentRows epochs db) : row ∈ db.uptimes := by
  unfold incidentRows at h
  cases hmax : (db.clusterInfo.map ClusterInfoRow.epoch).max? with
  | none =>
    rw [hmax] at h
    cases h
  | some lastEpoch =>
    rw [hmax] at h
    exact (List.mem_filter.mp h).1

/-- With all rows in order, `load_incidents` succeeds. -/
theorem isSome_loadIncidents {db : Database}
    (h : ∀ row ∈ db.uptimes, row.startAt ≤ row.endAt) (scan : Scan) (epochs : Nat) :
    (loadIncidents scan epochs db).isSome := by
  unfold loadIncidents
  refine isSome_foldlM (fun row hrow records => ?_) _
  have hmem : row ∈ incidentRows epochs db := by
    simpa using hrow
  obtain ⟨record, hrecord⟩ :=
    Option.isSome_iff_exists.mp (isSome_incidentRecord (h row (mem_of_mem_incidentRows hmem)))
  rw [hrecord]
  rfl

/-- A sum of downtimes that run forwards. -/
theorem downtimeOf_nonneg {uptimes : List UptimeRow} (epoch : Nat) (voteAccount : String)
    (h : ∀ row ∈ uptimes, row.startAt ≤ row.endAt) :
    0 ≤ (downtimeOf uptimes epoch voteAccount).getD 0 := by
  unfold downtimeOf
  cases hrows : uptimes.filter fun row =>
    row.epoch = epoch ∧ row.status = .down ∧ row.voteAccount = voteAccount with
  | nil => exact le_refl 0
  | cons first rest =>
    refine List.sum_nonneg fun x hx => ?_
    obtain ⟨row, hrow, rfl⟩ := List.mem_map.mp hx
    rw [← hrows] at hrow
    exact Int.sub_nonneg_of_le (h row (List.mem_filter.mp hrow).1)

/-- With all rows in order, `update_uptimes` writes downtimes that can be read. -/
theorem updateUptimes_readable {epoch : Nat} {db db' : Database}
    (h : ∀ row ∈ db.uptimes, row.startAt ≤ row.endAt)
    (hread : ∀ row ∈ db.validators, ReadableDowntime row)
    (hupdate : updateUptimes epoch db = .ok db') :
    ∀ row ∈ db'.validators, ReadableDowntime row := by
  rcases updateUptimes_eq_ok hupdate with rfl | ⟨vars, -, rfl⟩
  · exact hread
  · intro row hrow
    obtain ⟨row, hold, rfl⟩ := List.mem_map.mp hrow
    unfold timedRow uptimesRow
    by_cases hepoch : row.epoch = vars.epoch
    · rw [if_pos hepoch]
      dsimp only
      cases uptimePct (vars.endAt - vars.startAt)
        (downtimeOf db.uptimes vars.epoch row.voteAccount) with
      | error e => exact hread row hold
      | ok pct =>
        rintro downtime ⟨⟩
        exact seconds_nonneg (downtimeOf_nonneg _ _ h)
    · rw [if_neg hepoch]
      exact hread row hold

/-! ## What a run leaves -/

section Step

variable {run : UptimeRun} {table : UptimesTable}

/-- The snapshot has the validator of the row, and the row is not too old. -/
def Touches (snapshot : ValidatorsPerformanceSnapshot) (row : UptimeRow) : Prop :=
  row.voteAccount ∈ snapshot.validators.keys ∧
    snapshot.createdAt < row.endAt + statusMaxDelayToExtend

instance (snapshot : ValidatorsPerformanceSnapshot) (row : UptimeRow) :
    Decidable (Touches snapshot row) :=
  inferInstanceAs (Decidable (_ ∧ _))

/-- The `UPDATE` is executed, and has no more parameters than it may. -/
def UpdateCommits (table : UptimesTable) (run : UptimeRun) : Prop :=
  run.fault 0 = none ∧
    2 * ((latestUptimes run.scan table.rows).filter (Touches run.snapshot)).length ≤ maxParams

/-- No row that the `UPDATE` changes starts after the end it gets: the time of the
snapshot, a minute later if status and epoch are the same. -/
def InTime (table : UptimesTable) (run : UptimeRun) : Prop :=
  UpdateCommits table run → ∀ row ∈ latestUptimes run.scan table.rows,
    Touches run.snapshot row → ∀ v, run.snapshot.validators.get? row.voteAccount = some v →
      row.startAt ≤ run.snapshot.createdAt ∨
        (SameStatus run.snapshot row v ∧ row.startAt ≤ defaultStatusEndAt run.snapshot)

/-- The loop records an extension for exactly the rows that the snapshot touches. -/
theorem isSome_recordExtension {snapshot : ValidatorsPerformanceSnapshot} {row : UptimeRow} :
    (recordExtension snapshot row).isSome ↔ Touches snapshot row := by
  unfold recordExtension Touches
  cases hget : snapshot.validators.get? row.voteAccount with
  | none =>
    have hkey := Dict.get?_eq_none_iff.mp hget
    simp [hkey]
  | some v =>
    have hkey : row.voteAccount ∈ snapshot.validators.keys :=
      List.mem_map.mpr ⟨_, Dict.mem_of_get? hget, rfl⟩
    by_cases hnear : snapshot.createdAt < row.endAt + statusMaxDelayToExtend
    · by_cases hsame : SameStatus snapshot row v <;> simp [hkey, hnear, hsame]
    · simp [hnear]

/-- One extension for each latest row that the snapshot touches. -/
theorem length_recordsExtensions (snapshot : ValidatorsPerformanceSnapshot) (scan : Scan)
    {rows : List UptimeRow} (hids : (rows.map UptimeRow.id).Nodup) :
    (recordsExtensions snapshot scan rows).entries.length =
      ((latestUptimes scan rows).filter (Touches snapshot)).length := by
  have hnodup : ((latestUptimes scan rows).map UptimeRow.id).Nodup := by
    refine List.Nodup.map_on (fun row hrow row' hrow' hid => ?_)
      (List.Nodup.of_map _ (nodup_distinctOn (scan.order rows)))
    exact List.inj_on_of_nodup_map hids (mem_of_mem_latestUptimes hrow)
      (mem_of_mem_latestUptimes hrow') hid
  unfold recordsExtensions
  rw [Dict.entries_ofList]
  · rw [List.length_filterMap_eq_countP, List.countP_eq_length_filter]
    congr 1
    refine List.filter_congr fun row _ => ?_
    rw [Option.isSome_map, Bool.eq_iff_iff, decide_eq_true_iff]
    exact isSome_recordExtension
  · exact hnodup.sublist (Dict.keys_filterMap_sublist UptimeRow.id _ _)

/-- **What a run leaves**: the table as it was, if the `UPDATE` does not commit, else the
table after the `UPDATE`, or after both statements. -/
theorem runUptime_cases (run : UptimeRun) (hids : UptimeIds table) :
    (¬ UpdateCommits table run ∧ (runUptime run table).1 = table) ∨
      (UpdateCommits table run ∧
        ((runUptime run table).1 =
            table.extend (recordsExtensions run.snapshot run.scan table.rows) ∨
          (runUptime run table).1 =
            (table.extend (recordsExtensions run.snapshot run.scan table.rows)).openRows
              run.snapshot
              (validatorsWithExtendedStatus run.snapshot run.scan table.rows))) := by
  have hlen := length_recordsExtensions run.snapshot run.scan hids.nodup
  unfold UpdateCommits runUptime uptimeStatements autocommit
  cases hfault : run.fault 0 with
  | some e => exact Or.inl ⟨fun h => Option.some_ne_none e h.1, rfl⟩
  | none =>
    by_cases hparams : 2 * ((latestUptimes run.scan table.rows).filter
        (Touches run.snapshot)).length ≤ maxParams
    · refine Or.inr ⟨⟨rfl, hparams⟩, ?_⟩
      have hupdate : updateEndAt (recordsExtensions run.snapshot run.scan table.rows) table =
          .ok (table.extend (recordsExtensions run.snapshot run.scan table.rows)) :=
        withParams_of_le (by rw [hlen]; exact hparams) _
      rw [hupdate]
      unfold autocommit
      cases run.fault (0 + 1) with
      | some e => exact Or.inl rfl
      | none =>
        dsimp only
        cases hinsert : insertUptimes run.snapshot
          (validatorsWithExtendedStatus run.snapshot run.scan table.rows)
          (table.extend (recordsExtensions run.snapshot run.scan table.rows)) with
        | error e => exact Or.inl rfl
        | ok stored => exact Or.inr (insertUptimes_eq_ok hinsert)
    · refine Or.inl ⟨fun h => hparams h.2, ?_⟩
      have hupdate : updateEndAt (recordsExtensions run.snapshot run.scan table.rows) table =
          .error .tooManyParameters :=
        if_neg (by rw [hlen]; exact hparams)
      rw [hupdate]

theorem uptimeIds_step (run : UptimeRun) (hids : UptimeIds table) :
    UptimeIds (runUptime run table).1 := by
  rcases runUptime_cases run hids with ⟨-, hkeep⟩ | ⟨-, hupdated | hstored⟩
  · rw [hkeep]
    exact hids
  · rw [hupdated]
    exact hids.extend _
  · rw [hstored]
    exact (hids.extend _).openRows _ _

/-- What the `UPDATE` makes of a row of the table. -/
theorem extend_eq_of_mem {snapshot : ValidatorsPerformanceSnapshot} {scan : Scan}
    (hids : UptimeIds table) {row : UptimeRow} (hrow : row ∈ table.rows) :
    row.extend (recordsExtensions snapshot scan table.rows) =
      if row ∈ latestUptimes scan table.rows then
        (recordExtension snapshot row).elim row fun endAt => { row with endAt := endAt }
      else row := by
  unfold UptimeRow.extend
  rw [get?_recordsExtensions hids.nodup hrow]
  by_cases hlatest : row ∈ latestUptimes scan table.rows
  · rw [if_pos hlatest, if_pos hlatest]
    cases recordExtension snapshot row <;> rfl
  · rw [if_neg hlatest, if_neg hlatest]

/-! ## Rows that run forwards -/

/-- The rows run forwards, and the readers can rely on it. -/
structure Forward (table : UptimesTable) : Prop where
  ordered : ∀ row ∈ table.rows, row.startAt ≤ row.endAt
  incidents : ∀ scan epochs db, db.uptimes = table.rows → (loadIncidents scan epochs db).isSome
  downtimes : ∀ epoch db db', db.uptimes = table.rows →
    (∀ row ∈ db.validators, ReadableDowntime row) → updateUptimes epoch db = .ok db' →
      ∀ row ∈ db'.validators, ReadableDowntime row

theorem forward_iff : Forward table ↔ ∀ row ∈ table.rows, row.startAt ≤ row.endAt := by
  refine ⟨Forward.ordered, fun h => ⟨h, ?_, ?_⟩⟩
  · intro scan epochs db hdb
    rw [← hdb] at h
    exact isSome_loadIncidents h scan epochs
  · intro epoch db db' hdb
    rw [← hdb] at h
    exact updateUptimes_readable h

/-- The end that a row gets, compared with its start. -/
theorem startAt_le_extension {snapshot : ValidatorsPerformanceSnapshot} {row : UptimeRow}
    {v : ValidatorPerformance} (hget : snapshot.validators.get? row.voteAccount = some v)
    {endAt : Timestamp} (hext : recordExtension snapshot row = some endAt) :
    row.startAt ≤ endAt ↔ row.startAt ≤ snapshot.createdAt ∨
      (SameStatus snapshot row v ∧ row.startAt ≤ defaultStatusEndAt snapshot) := by
  have hlater : snapshot.createdAt ≤ defaultStatusEndAt snapshot :=
    Int.le_add_of_nonneg_right (by decide)
  have htouch : snapshot.createdAt < row.endAt + statusMaxDelayToExtend :=
    (isSome_recordExtension.mp (Option.isSome_iff_exists.mpr ⟨endAt, hext⟩)).2
  unfold recordExtension at hext
  rw [hget] at hext
  dsimp only at hext
  rw [if_pos htouch] at hext
  by_cases hsame : SameStatus snapshot row v
  · rw [if_pos hsame] at hext
    obtain rfl := Option.some.inj hext
    constructor
    · intro h
      exact Or.inr ⟨hsame, h⟩
    · rintro (h | ⟨-, h⟩)
      · exact h.trans hlater
      · exact h
  · rw [if_neg hsame] at hext
    obtain rfl := Option.some.inj hext
    constructor
    · exact Or.inl
    · rintro (h | ⟨hsame', -⟩)
      · exact h
      · exact absurd hsame' hsame

/-- The `UPDATE` keeps the rows in order exactly if it touches no row too late. -/
theorem ordered_extend_iff (snapshot : ValidatorsPerformanceSnapshot) (scan : Scan)
    (hids : UptimeIds table) (h : ∀ row ∈ table.rows, row.startAt ≤ row.endAt) :
    (∀ row ∈ (table.extend (recordsExtensions snapshot scan table.rows)).rows,
        row.startAt ≤ row.endAt) ↔
      ∀ row ∈ latestUptimes scan table.rows, Touches snapshot row →
        ∀ v, snapshot.validators.get? row.voteAccount = some v →
          row.startAt ≤ snapshot.createdAt ∨
            (SameStatus snapshot row v ∧ row.startAt ≤ defaultStatusEndAt snapshot) := by
  constructor
  · intro hordered row hlatest htouch v hget
    have hrow := mem_of_mem_latestUptimes hlatest
    obtain ⟨endAt, hext⟩ := Option.isSome_iff_exists.mp (isSome_recordExtension.mpr htouch)
    have hle := hordered _ (List.mem_map_of_mem hrow)
    rw [extend_eq_of_mem hids hrow, if_pos hlatest, hext] at hle
    exact (startAt_le_extension hget hext).mp hle
  · intro hintime row hrow
    obtain ⟨row, hold, rfl⟩ := List.mem_map.mp hrow
    rw [extend_eq_of_mem hids hold]
    by_cases hlatest : row ∈ latestUptimes scan table.rows
    · rw [if_pos hlatest]
      cases hext : recordExtension snapshot row with
      | none => exact h row hold
      | some endAt =>
        have htouch := isSome_recordExtension.mp (Option.isSome_iff_exists.mpr ⟨endAt, hext⟩)
        obtain ⟨⟨_, v⟩, hmem, hkey⟩ := List.mem_map.mp htouch.1
        have hget : snapshot.validators.get? row.voteAccount = some v :=
          Dict.get?_of_mem (hkey ▸ hmem)
        exact (startAt_le_extension hget hext).mpr (hintime row hlatest htouch v hget)
    · rw [if_neg hlatest]
      exact h row hold

/-- The rows that the `INSERT` opens are in order. -/
theorem ordered_openRows_iff {snapshot : ValidatorsPerformanceSnapshot}
    {extended : List String} :
    (∀ row ∈ (table.openRows snapshot extended).rows, row.startAt ≤ row.endAt) ↔
      ∀ row ∈ table.rows, row.startAt ≤ row.endAt := by
  constructor
  · intro h row hrow
    exact h row (List.mem_append_left _ hrow)
  · intro h row hrow
    rcases List.mem_append.mp hrow with hold | hopened
    · exact h row hold
    · obtain ⟨e, -, rfl⟩ := List.mem_map.mp hopened
      exact Int.le_add_of_nonneg_right (by decide)

/-- One run keeps the rows in order exactly if it is in time. -/
theorem forward_step_iff (hids : UptimeIds table) (h : Forward table) :
    Forward (runUptime run table).1 ↔ InTime table run := by
  have hupdate := ordered_extend_iff run.snapshot run.scan hids h.ordered
  rcases runUptime_cases run hids with ⟨hno, hkeep⟩ | ⟨hcommits, hupdated | hstored⟩
  · rw [hkeep]
    exact ⟨fun _ hcommits => absurd hcommits hno, fun _ => h⟩
  · rw [hupdated, forward_iff, hupdate]
    exact ⟨fun hintime _ => hintime, fun hintime => hintime hcommits⟩
  · rw [hstored, forward_iff, ordered_openRows_iff, hupdate]
    exact ⟨fun hintime _ => hintime, fun hintime => hintime hcommits⟩

end Step

theorem uptimeIds_empty : UptimeIds UptimesTable.empty where
  nodup := List.nodup_nil
  fresh _ h := nomatch h

/-- **Uptime rows run forwards** throughout a run, whatever the order of its snapshots
and wherever its commands stop, exactly if all commands are in time. -/
theorem uptimes_forward_iff (runs : List UptimeRun) :
    StatesAll uptimeStep Forward UptimesTable.empty runs ↔
      StepsAll uptimeStep InTime UptimesTable.empty runs := by
  have hinv : ∀ table run table', UptimeIds table → uptimeStep table run = some table' →
      UptimeIds table' := by
    rintro table run _ hids ⟨⟩
    exact uptimeIds_step run hids
  refine statesAll_iff_stepsAll hinv ?_ uptimeIds_empty ?_ runs
  · rintro table run _ hids h ⟨⟩
    exact forward_step_iff hids h
  · exact forward_iff.mpr fun row hrow => nomatch hrow

/-- A snapshot of a validator that is down, and an older one of the same validator that
arrives later. -/
def lateSnapshot : List UptimeRun :=
  [⟨fun _ => none, .sequential, singleSnapshot (10 * minute) 5 true⟩,
    ⟨fun _ => none, .sequential, singleSnapshot 0 5 false⟩]

/-- The older snapshot closes the row ten minutes before its start, and the incidents can
no longer be loaded. -/
theorem uptimes_backwards :
    ¬ StatesAll uptimeStep Forward UptimesTable.empty lateSnapshot ∧
      ∃ table, exec uptimeStep UptimesTable.empty lateSnapshot = some table ∧
        table.rows = [⟨1, "vote", .down, 500, 10 * minute, 0⟩,
          ⟨2, "vote", .up, 500, 0, minute⟩] ∧
        loadIncidents .sequential 90
          ⟨[], [], [], table.rows, [⟨500, 10, 10 * minute⟩]⟩ = none := by
  have hrows : ∃ table, exec uptimeStep UptimesTable.empty lateSnapshot = some table ∧
      table.rows = [⟨1, "vote", .down, 500, 10 * minute, 0⟩,
        ⟨2, "vote", .up, 500, 0, minute⟩] := ⟨_, rfl, rfl⟩
  obtain ⟨table, hexec, hrows⟩ := hrows
  refine ⟨fun h => ?_, table, hexec, hrows, ?_⟩
  · have hlast := h.last hexec
    have hle := hlast.ordered ⟨1, "vote", .down, 500, 10 * minute, 0⟩ (by simp [hrows])
    exact absurd hle (by decide)
  · rw [hrows]
    decide +kernel

end DelegationStrategy.Store
