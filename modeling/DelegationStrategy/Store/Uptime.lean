import DelegationStrategy.Collect.Snapshot
import DelegationStrategy.Lib.Timeline
import DelegationStrategy.Store.Run
import Mathlib.Algebra.Order.Group.Defs
import Mathlib.Algebra.Order.Group.Int

/-!
# The `uptimes` table

`store_uptime` (`store/src/uptime.rs`) reads the row with the greatest `end_at`
of every vote account, extends or closes it (`UPDATE`), and opens new rows
(`INSERT`). Two statements on a whole table, but to one vote account they do
what `sight` does to a timeline (`storeUptime_spansOf`), with the status and the
epoch as the label, one minute as the tail and five minutes of grace. So the
timeline of every validator is faithful after every step of every run
(`storeUptime_timeline`).
-/

namespace DelegationStrategy.Store

open DelegationStrategy.Lib DelegationStrategy.Collect

/-- `status TEXT CHECK (status IN ('UP', 'DOWN'))`. -/
inductive Status where
  | up
  | down
  deriving DecidableEq, Repr

def statusFromDelinquency (delinquent : Bool) : Status :=
  if delinquent then .down else .up

structure UptimeRow where
  id : Nat
  voteAccount : String
  status : Status
  epoch : Nat
  startAt : Timestamp
  endAt : Timestamp
  deriving DecidableEq, Repr

/-- The rows in the order of insertion, and the sequence behind `id BIGSERIAL`. -/
structure UptimesTable where
  rows : List UptimeRow
  nextId : Nat
  deriving DecidableEq, Repr

def UptimesTable.empty : UptimesTable := ⟨[], 1⟩

/-! ## The program -/

section Program

variable (snapshot : ValidatorsPerformanceSnapshot)

def defaultStatusEndAt : Timestamp := snapshot.createdAt + minute

def statusMaxDelayToExtend : Timestamp := 5 * minute

/-- The row has the status and the epoch of the snapshot. -/
def SameStatus (row : UptimeRow) (validatorSnapshot : ValidatorPerformance) : Prop :=
  row.status = statusFromDelinquency validatorSnapshot.delinquent ∧
    row.epoch = snapshot.epoch

instance (row : UptimeRow) (validatorSnapshot : ValidatorPerformance) :
    Decidable (SameStatus snapshot row validatorSnapshot) :=
  inferInstanceAs (Decidable (_ ∧ _))

/-- `SELECT DISTINCT ON (vote_account) … ORDER BY vote_account, end_at DESC`. -/
def latestUptimes (scan : Scan) (rows : List UptimeRow) : List UptimeRow :=
  distinctOn UptimeRow.voteAccount UptimeRow.endAt (scan.order rows)

/-- Whether the loop over the latest rows adds the row's vote account to
`validators_with_extended_status`. -/
def hasExtendedStatus (row : UptimeRow) : Bool :=
  match snapshot.validators.get? row.voteAccount with
  | some validatorSnapshot =>
    decide (snapshot.createdAt < row.endAt + statusMaxDelayToExtend) &&
      decide (SameStatus snapshot row validatorSnapshot)
  | none => false

/-- The new `end_at` that the loop over the latest rows records for a row. -/
def recordExtension (row : UptimeRow) : Option Timestamp :=
  match snapshot.validators.get? row.voteAccount with
  | some validatorSnapshot =>
    if snapshot.createdAt < row.endAt + statusMaxDelayToExtend then
      -- same status: the provisional end moves on; otherwise the row is closed
      if SameStatus snapshot row validatorSnapshot then some (defaultStatusEndAt snapshot)
      else some snapshot.createdAt
    -- too old: the row keeps its provisional end
    else none
  | none => none

def validatorsWithExtendedStatus (scan : Scan) (rows : List UptimeRow) : List String :=
  ((latestUptimes scan rows).filter (hasExtendedStatus snapshot)).map UptimeRow.voteAccount

def recordsExtensions (scan : Scan) (rows : List UptimeRow) : Dict Nat Timestamp :=
  Dict.ofList <| (latestUptimes scan rows).filterMap fun row =>
    (recordExtension snapshot row).map fun endAt => (row.id, endAt)

/-- The row with the `end_at` that the `UPDATE` finds for its `id`. -/
def UptimeRow.extend (extensions : Dict Nat Timestamp) (row : UptimeRow) : UptimeRow :=
  match extensions.get? row.id with
  | some endAt => { row with endAt := endAt }
  | none => row

/-- The rows of the `INSERT`. -/
def openedRows (extended : List String) (nextId : Nat) : List UptimeRow :=
  ((snapshot.validators.entries.filter fun e => e.1 ∉ extended).zipIdx nextId).map
    fun (e, id) =>
      { id := id
        voteAccount := e.1
        status := if e.2.delinquent then .down else .up
        epoch := snapshot.epoch
        startAt := snapshot.createdAt
        endAt := defaultStatusEndAt snapshot }

/-- `UPDATE uptimes SET end_at = u.end_at FROM (VALUES …) AS u(id, end_at)
WHERE uptimes.id = u.id`. -/
def updateEndAt (extensions : Dict Nat Timestamp) (table : UptimesTable) :
    Except DbError UptimesTable :=
  withParams (2 * extensions.entries.length)
    (.ok { table with rows := table.rows.map (UptimeRow.extend extensions) })

def insertUptimes (extended : List String) (table : UptimesTable) :
    Except DbError UptimesTable :=
  let rows := openedRows snapshot extended table.nextId
  withParams (5 * rows.length)
    (.ok { rows := table.rows ++ rows, nextId := table.nextId + rows.length })

end Program

/-- `store_uptime`: a query, an `UPDATE` and an `INSERT`. -/
def storeUptime (scan : Scan) (snapshot : ValidatorsPerformanceSnapshot)
    (table : UptimesTable) : Except DbError UptimesTable := do
  let updated ← updateEndAt (recordsExtensions snapshot scan table.rows) table
  insertUptimes snapshot (validatorsWithExtendedStatus snapshot scan table.rows) updated

/-! ## Timelines -/

def UptimeRow.span (row : UptimeRow) : Span Timestamp (Status × Nat) :=
  ⟨row.startAt, row.endAt, (row.status, row.epoch)⟩

/-- The rows of a vote account, in the order of insertion. -/
def uptimesOf (rows : List UptimeRow) (voteAccount : String) : List UptimeRow :=
  rows.filter fun row => row.voteAccount = voteAccount

/-- The timeline of a vote account, the latest span first. -/
def spansOf (rows : List UptimeRow) (voteAccount : String) :
    List (Span Timestamp (Status × Nat)) :=
  ((uptimesOf rows voteAccount).map UptimeRow.span).reverse

section Refinement

variable {scan : Scan} {snapshot : ValidatorsPerformanceSnapshot} {rows : List UptimeRow}
  {voteAccount : String}

@[simp] theorem extend_voteAccount (extensions : Dict Nat Timestamp) (row : UptimeRow) :
    (row.extend extensions).voteAccount = row.voteAccount := by
  unfold UptimeRow.extend
  split <;> rfl

@[simp] theorem extend_id (extensions : Dict Nat Timestamp) (row : UptimeRow) :
    (row.extend extensions).id = row.id := by
  unfold UptimeRow.extend
  split <;> rfl

@[simp] theorem extend_startAt (extensions : Dict Nat Timestamp) (row : UptimeRow) :
    (row.extend extensions).startAt = row.startAt := by
  unfold UptimeRow.extend
  split <;> rfl

/-- The `UPDATE` keeps the rows of a vote account in place. -/
theorem uptimesOf_map_extend (extensions : Dict Nat Timestamp) :
    uptimesOf (rows.map (UptimeRow.extend extensions)) voteAccount =
      (uptimesOf rows voteAccount).map (UptimeRow.extend extensions) := by
  unfold uptimesOf
  rw [List.filter_map]
  congr 1
  refine List.filter_congr fun row _ => ?_
  show decide ((row.extend extensions).voteAccount = voteAccount) = _
  rw [extend_voteAccount]

/-- The query returns rows of the table. -/
theorem mem_of_mem_latestUptimes {row : UptimeRow} (h : row ∈ latestUptimes scan rows) :
    row ∈ rows := by
  unfold latestUptimes at h
  rw [mem_distinctOn] at h
  simpa using (latest_spec h).1

/-- The `UPDATE` changes the rows that the query returned, as the loop recorded. -/
theorem get?_recordsExtensions (hids : (rows.map UptimeRow.id).Nodup) {row : UptimeRow}
    (hrow : row ∈ rows) :
    (recordsExtensions snapshot scan rows).get? row.id =
      if row ∈ latestUptimes scan rows then recordExtension snapshot row else none := by
  -- an id among the extensions belongs to this very row
  have hentry : ∀ endAt, (row.id, endAt) ∈ ((latestUptimes scan rows).filterMap fun r =>
      (recordExtension snapshot r).map fun endAt => (r.id, endAt)) ↔
      row ∈ latestUptimes scan rows ∧ recordExtension snapshot row = some endAt := by
    intro endAt
    rw [List.mem_filterMap]
    constructor
    · rintro ⟨r, hr, hext⟩
      obtain ⟨e, he, heq⟩ := Option.map_eq_some_iff.mp hext
      obtain ⟨hid, rfl⟩ := Prod.mk.inj heq
      obtain rfl := List.inj_on_of_nodup_map hids (mem_of_mem_latestUptimes hr) hrow hid
      exact ⟨hr, he⟩
    · rintro ⟨hlatest, hext⟩
      exact ⟨row, hlatest, by rw [hext]; rfl⟩
  have hnone (h : ∀ endAt, ¬ (row ∈ latestUptimes scan rows ∧
      recordExtension snapshot row = some endAt)) :
      (recordsExtensions snapshot scan rows).get? row.id = none := by
    refine Dict.get?_eq_none_iff.mpr fun hk => ?_
    obtain ⟨⟨_, a⟩, ha, rfl⟩ := List.mem_map.mp (Dict.mem_keys_ofList.mp hk)
    exact h a ((hentry a).mp ha)
  by_cases hlatest : row ∈ latestUptimes scan rows
  · rw [if_pos hlatest]
    cases hext : recordExtension snapshot row with
    | some endAt =>
      refine Dict.get?_ofList ((hentry endAt).mpr ⟨hlatest, hext⟩) fun a ha => ?_
      exact Option.some.inj (((hentry a).mp ha).2.symm.trans hext)
    | none => exact hnone fun endAt h => by rw [hext] at h; cases h.2
  · rw [if_neg hlatest]
    exact hnone fun endAt h => hlatest h.1

/-- What the two statements need to know about the rows: `id` is a key, and the
rows of a vote account stand in the order of their ends. -/
structure Addressed (rows : List UptimeRow) : Prop where
  ids : (rows.map UptimeRow.id).Nodup
  ends : ∀ voteAccount, (uptimesOf rows voteAccount).Pairwise fun row row' =>
    row.endAt < row'.endAt

/-- The query returns the last row of each vote account. -/
theorem mem_latestUptimes (h : Addressed rows) {row : UptimeRow} :
    row ∈ latestUptimes scan rows ↔
      (uptimesOf rows row.voteAccount).getLast? = some row := by
  unfold latestUptimes
  rw [mem_distinctOn, ← latest_perm (scan.perm rows).symm (eq_of_pairwise_lt h.ends),
    latest_of_pairwise_lt (h.ends _)]
  rfl

theorem mem_validatorsWithExtendedStatus (h : Addressed rows) :
    voteAccount ∈ validatorsWithExtendedStatus snapshot scan rows ↔
      ∃ row, (uptimesOf rows voteAccount).getLast? = some row ∧
        hasExtendedStatus snapshot row := by
  unfold validatorsWithExtendedStatus
  rw [List.mem_map]
  constructor
  · rintro ⟨row, hrow, rfl⟩
    obtain ⟨hlatest, hext⟩ := List.mem_filter.mp hrow
    exact ⟨row, (mem_latestUptimes h).mp hlatest, hext⟩
  · rintro ⟨row, hlast, hext⟩
    have hkey : row.voteAccount = voteAccount := by
      simpa using (List.mem_filter.mp (List.mem_of_getLast? hlast)).2
    subst hkey
    exact ⟨row, List.mem_filter.mpr ⟨(mem_latestUptimes h).mpr hlast, hext⟩, rfl⟩

/-- The `UPDATE` changes the last row of a vote account as the loop recorded. -/
theorem get?_recordsExtensions_last (h : Addressed rows) {row : UptimeRow}
    (hlast : (uptimesOf rows row.voteAccount).getLast? = some row) :
    (recordsExtensions snapshot scan rows).get? row.id = recordExtension snapshot row := by
  have hrow : row ∈ rows := (List.mem_filter.mp (List.mem_of_getLast? hlast)).1
  rw [get?_recordsExtensions h.ids hrow, if_pos ((mem_latestUptimes h).mpr hlast)]

/-- The `UPDATE` leaves all other rows alone. -/
theorem get?_recordsExtensions_older (h : Addressed rows) {row : UptimeRow}
    (hrow : row ∈ rows)
    (hlast : (uptimesOf rows row.voteAccount).getLast? ≠ some row) :
    (recordsExtensions snapshot scan rows).get? row.id = none := by
  rw [get?_recordsExtensions h.ids hrow, if_neg (mt (mem_latestUptimes h).mp hlast)]

/-- What the `UPDATE` makes of the rows of a vote account. -/
theorem uptimesOf_extend (h : Addressed rows) {older : List UptimeRow} {row : UptimeRow}
    (hrows : uptimesOf rows voteAccount = older ++ [row]) :
    uptimesOf (rows.map (UptimeRow.extend (recordsExtensions snapshot scan rows)))
      voteAccount = older ++ [(recordExtension snapshot row).elim row
        fun endAt => { row with endAt := endAt }] := by
  have hmem : ∀ r ∈ older ++ [row], r ∈ rows ∧ r.voteAccount = voteAccount := by
    intro r hr
    rw [← hrows] at hr
    simpa [uptimesOf] using hr
  have hlast : (uptimesOf rows voteAccount).getLast? = some row := by
    rw [hrows, List.getLast?_concat]
  rw [uptimesOf_map_extend, hrows, List.map_append]
  congr 1
  · refine (List.map_congr_left fun r hr => ?_).trans (List.map_id older)
    obtain ⟨hr', hkey⟩ := hmem r (List.mem_append_left _ hr)
    -- an older row ends earlier, so it is not the last one
    have hlt : r.endAt < row.endAt := by
      have hends := h.ends voteAccount
      rw [hrows] at hends
      exact (List.pairwise_append.mp hends).2.2 r hr row (List.mem_singleton_self _)
    have hne : (uptimesOf rows r.voteAccount).getLast? ≠ some r := by
      rw [hkey, hlast]
      rintro ⟨⟩
      exact lt_irrefl _ hlt
    unfold UptimeRow.extend
    rw [get?_recordsExtensions_older h hr' hne]
    rfl
  · obtain ⟨-, hkey⟩ := hmem row (List.mem_append_right _ (List.mem_singleton_self _))
    show [row.extend _] = _
    unfold UptimeRow.extend
    rw [get?_recordsExtensions_last h (by rw [hkey, hlast])]
    cases recordExtension snapshot row <;> rfl

/-! ### The opened rows -/

/-- What the `INSERT` stores beside the ids depends on the validators alone. -/
theorem map_openedRows {β : Type} {f : UptimeRow → β} {g : String × ValidatorPerformance → β}
    (h : ∀ e id, f ⟨id, e.1, statusFromDelinquency e.2.delinquent, snapshot.epoch,
      snapshot.createdAt, defaultStatusEndAt snapshot⟩ = g e)
    (extended : List String) (nextId : Nat) :
    (openedRows snapshot extended nextId).map f =
      (snapshot.validators.entries.filter fun e => e.1 ∉ extended).map g := by
  unfold openedRows
  rw [List.map_map]
  conv_rhs => rw [← List.zipIdx_map_fst nextId
    (snapshot.validators.entries.filter fun e => e.1 ∉ extended), List.map_map]
  exact List.map_congr_left fun e _ => h e.1 e.2

theorem openedRows_voteAccount (extended : List String) (nextId : Nat) :
    (openedRows snapshot extended nextId).map UptimeRow.voteAccount =
      (snapshot.validators.entries.filter fun e => e.1 ∉ extended).map Prod.fst :=
  map_openedRows (fun _ _ => rfl) extended nextId

/-- One row for each vote account, -/
theorem nodup_openedRows (extended : List String) (nextId : Nat) :
    ((openedRows snapshot extended nextId).map UptimeRow.voteAccount).Nodup := by
  rw [openedRows_voteAccount]
  exact snapshot.validators.nodup.sublist (List.filter_sublist.map _)

/-- and one for every vote account of the snapshot whose status was not extended. -/
theorem exists_mem_openedRows {extended : List String}
    (hkey : voteAccount ∈ snapshot.validators.keys) (hext : voteAccount ∉ extended)
    (nextId : Nat) :
    ∃ row ∈ openedRows snapshot extended nextId, row.voteAccount = voteAccount := by
  rw [← List.mem_map, openedRows_voteAccount]
  obtain ⟨e, he, rfl⟩ := List.mem_map.mp hkey
  exact List.mem_map_of_mem (List.mem_filter.mpr ⟨he, decide_eq_true hext⟩)

theorem openedRows_id (extended : List String) (nextId : Nat) :
    (openedRows snapshot extended nextId).map UptimeRow.id =
      List.range' nextId (openedRows snapshot extended nextId).length := by
  unfold openedRows
  rw [List.map_map, List.length_map, List.length_zipIdx]
  exact List.zipIdx_map_snd nextId _

/-- The label a snapshot gives to a validator. -/
def sightedLabel (snapshot : ValidatorsPerformanceSnapshot)
    (validatorSnapshot : ValidatorPerformance) : Status × Nat :=
  (statusFromDelinquency validatorSnapshot.delinquent, snapshot.epoch)

theorem spansOf_openedRows (extended : List String) (nextId : Nat) :
    spansOf (openedRows snapshot extended nextId) voteAccount =
      match snapshot.validators.get? voteAccount with
      | some v =>
        if voteAccount ∈ extended then []
        else [⟨snapshot.createdAt, snapshot.createdAt + minute, sightedLabel snapshot v⟩]
      | none => [] := by
  unfold spansOf uptimesOf
  rcases filter_key_of_nodup (nodup_openedRows extended nextId) voteAccount with
    ⟨hno, hnil⟩ | ⟨row, hrow, hkey, hone⟩
  · rw [hnil]
    cases hget : snapshot.validators.get? voteAccount with
    | none => rfl
    | some v =>
      refine (if_pos ?_).symm
      by_contra hext
      have hkeys : voteAccount ∈ snapshot.validators.keys :=
        List.mem_map_of_mem (Dict.mem_of_get? hget)
      obtain ⟨row, hrow, hkey⟩ := exists_mem_openedRows hkeys hext nextId
      exact hno row hrow hkey
  · rw [hone]
    obtain ⟨⟨⟨a, v⟩, id⟩, he, rfl⟩ := List.mem_map.mp hrow
    obtain rfl : a = voteAccount := hkey
    obtain ⟨hentry, hext⟩ := List.mem_filter.mp (List.fst_mem_of_mem_zipIdx he)
    rw [Dict.get?_of_mem hentry]
    exact (if_neg (of_decide_eq_true hext)).symm

/-! ### The ids -/

/-- What `id BIGSERIAL` keeps: no two rows share an id, and the sequence is past all. -/
structure UptimeIds (table : UptimesTable) : Prop where
  nodup : (table.rows.map UptimeRow.id).Nodup
  fresh : ∀ row ∈ table.rows, row.id < table.nextId

/-- The table after the `UPDATE`. -/
def UptimesTable.extend (extensions : Dict Nat Timestamp) (table : UptimesTable) :
    UptimesTable :=
  { table with rows := table.rows.map (UptimeRow.extend extensions) }

/-- The table after the `INSERT`. -/
def UptimesTable.openRows (snapshot : ValidatorsPerformanceSnapshot) (extended : List String)
    (table : UptimesTable) : UptimesTable where
  rows := table.rows ++ openedRows snapshot extended table.nextId
  nextId := table.nextId + (openedRows snapshot extended table.nextId).length

theorem updateEndAt_eq_ok {extensions : Dict Nat Timestamp} {table table' : UptimesTable}
    (h : updateEndAt extensions table = .ok table') : table' = table.extend extensions :=
  (Except.ok.inj (withParams_eq_ok h)).symm

theorem insertUptimes_eq_ok {extended : List String} {table table' : UptimesTable}
    (h : insertUptimes snapshot extended table = .ok table') :
    table' = table.openRows snapshot extended :=
  (Except.ok.inj (withParams_eq_ok h)).symm

theorem UptimeIds.extend {table : UptimesTable} (h : UptimeIds table)
    (extensions : Dict Nat Timestamp) : UptimeIds (table.extend extensions) := by
  constructor
  · have hid : UptimeRow.id ∘ UptimeRow.extend extensions = UptimeRow.id :=
      funext fun row => extend_id extensions row
    show ((table.rows.map (UptimeRow.extend extensions)).map UptimeRow.id).Nodup
    rw [List.map_map, hid]
    exact h.nodup
  · intro row hrow
    obtain ⟨row, hold, rfl⟩ := List.mem_map.mp hrow
    rw [extend_id]
    exact h.fresh row hold

theorem UptimeIds.openRows {table : UptimesTable} (h : UptimeIds table)
    (snapshot : ValidatorsPerformanceSnapshot) (extended : List String) :
    UptimeIds (table.openRows snapshot extended) := by
  have hnew : ∀ row ∈ openedRows snapshot extended table.nextId,
      table.nextId ≤ row.id ∧ row.id < (table.openRows snapshot extended).nextId := by
    intro row hrow
    have hid := List.mem_map_of_mem (f := UptimeRow.id) hrow
    rw [openedRows_id] at hid
    exact List.mem_range'_1.mp hid
  constructor
  · show ((table.rows ++ openedRows snapshot extended table.nextId).map UptimeRow.id).Nodup
    rw [List.map_append, openedRows_id]
    refine List.nodup_append.mpr ⟨h.nodup, List.nodup_range', fun id hid id' hid' => ?_⟩
    obtain ⟨row, hrow, rfl⟩ := List.mem_map.mp hid
    exact ((h.fresh row hrow).trans_le (List.mem_range'_1.mp hid').1).ne
  · intro row hrow
    rcases List.mem_append.mp hrow with hold | hopened
    · exact Nat.lt_add_right _ (h.fresh row hold)
    · exact (hnew row hopened).2

/-! ### The two statements together -/

theorem spansOf_append (rows' : List UptimeRow) :
    spansOf (rows ++ rows') voteAccount =
      spansOf rows' voteAccount ++ spansOf rows voteAccount := by
  unfold spansOf uptimesOf
  rw [List.filter_append, List.map_append, List.reverse_append]

theorem spansOf_concat {older : List UptimeRow} {row : UptimeRow}
    (hrows : uptimesOf rows voteAccount = older ++ [row]) :
    spansOf rows voteAccount = row.span :: (older.map UptimeRow.span).reverse := by
  unfold spansOf
  rw [hrows, List.map_append, List.reverse_append]
  rfl

/-- **`store_uptime`** succeeds exactly within the limit of parameters, and then has executed
both statements. -/
theorem storeUptime_eq_ok {table table' : UptimesTable} :
    storeUptime scan snapshot table = .ok table' ↔
      2 * (recordsExtensions snapshot scan table.rows).entries.length ≤ maxParams ∧
      5 * (openedRows snapshot (validatorsWithExtendedStatus snapshot scan table.rows)
        table.nextId).length ≤ maxParams ∧
      table' = (table.extend (recordsExtensions snapshot scan table.rows)).openRows snapshot
        (validatorsWithExtendedStatus snapshot scan table.rows) := by
  constructor
  · intro h
    obtain ⟨updated, hupdate, hinsert⟩ := bind_eq_ok.mp h
    obtain rfl := updateEndAt_eq_ok hupdate
    exact ⟨le_of_withParams_eq_ok hupdate, le_of_withParams_eq_ok hinsert,
      insertUptimes_eq_ok hinsert⟩
  · rintro ⟨hupdate, hinsert, rfl⟩
    exact bind_eq_ok.mpr ⟨_, withParams_of_le hupdate _, withParams_of_le hinsert _⟩

/-- What the loop over the latest rows decides for a row is what a sighting does
to the span of the row. -/
theorem sight_span {row : UptimeRow} {v : ValidatorPerformance}
    (hget : snapshot.validators.get? row.voteAccount = some v)
    (older : List (Span Timestamp (Status × Nat))) :
    sight minute statusMaxDelayToExtend snapshot.createdAt (sightedLabel snapshot v)
        (row.span :: older) =
      (if hasExtendedStatus snapshot row then []
        else [⟨snapshot.createdAt, snapshot.createdAt + minute, sightedLabel snapshot v⟩]) ++
      ((recordExtension snapshot row).elim row
        fun endAt => { row with endAt := endAt }).span :: older := by
  have hsame : SameStatus snapshot row v ↔ row.span.label = sightedLabel snapshot v :=
    Prod.mk.injEq .. ▸ Iff.rfl
  unfold hasExtendedStatus recordExtension
  rw [hget]
  rcases sight_cases minute statusMaxDelayToExtend snapshot.createdAt
    (sightedLabel snapshot v) row.span older with
    ⟨hnear, hl, heq⟩ | ⟨hnear, hl, heq⟩ | ⟨hfar, heq⟩
  · have hnear' : snapshot.createdAt < row.endAt + statusMaxDelayToExtend := hnear
    rw [heq]
    simp only [hnear', hsame.mpr hl, decide_true, Bool.and_self, if_true]
    rfl
  · have hnear' : snapshot.createdAt < row.endAt + statusMaxDelayToExtend := hnear
    have hdiff : ¬ SameStatus snapshot row v := fun hs => hl (hsame.mp hs)
    rw [heq]
    simp only [hnear', hdiff, decide_true, decide_false, Bool.and_false, if_true, if_false]
    rfl
  · have hfar' : ¬ snapshot.createdAt < row.endAt + statusMaxDelayToExtend :=
      not_lt_of_ge hfar
    rw [heq]
    simp only [hfar', decide_false, Bool.false_and, if_false]
    rfl

/-- A validator without rows: the `UPDATE` has nothing to change. -/
theorem spansOf_extend_nil (extensions : Dict Nat Timestamp)
    (hrows : uptimesOf rows voteAccount = []) :
    spansOf (rows.map (UptimeRow.extend extensions)) voteAccount = [] := by
  unfold spansOf
  rw [uptimesOf_map_extend, hrows]
  rfl

/-- A validator with rows: the loop looks at the last of them. -/
theorem mem_extended_of_concat {older : List UptimeRow} {row : UptimeRow}
    (haddr : Addressed rows) (hrows : uptimesOf rows voteAccount = older ++ [row]) :
    voteAccount ∈ validatorsWithExtendedStatus snapshot scan rows ↔
      hasExtendedStatus snapshot row := by
  have hlast : (uptimesOf rows voteAccount).getLast? = some row := by
    rw [hrows, List.getLast?_concat]
  rw [mem_validatorsWithExtendedStatus haddr, hlast]
  exact ⟨fun ⟨_, hr, he⟩ => Option.some.inj hr ▸ he, fun he => ⟨row, rfl, he⟩⟩

/-- **`store_uptime` records one sighting on the timeline of each validator of
the snapshot** and leaves the other timelines alone. -/
theorem storeUptime_spansOf {table table' : UptimesTable} (haddr : Addressed table.rows)
    (h : storeUptime scan snapshot table = .ok table') (voteAccount : String) :
    spansOf table'.rows voteAccount =
      match snapshot.validators.get? voteAccount with
      | some v => sight minute statusMaxDelayToExtend snapshot.createdAt
          (sightedLabel snapshot v) (spansOf table.rows voteAccount)
      | none => spansOf table.rows voteAccount := by
  obtain ⟨-, -, rfl⟩ := storeUptime_eq_ok.mp h
  unfold UptimesTable.openRows UptimesTable.extend
  rw [spansOf_append, spansOf_openedRows]
  rcases List.eq_nil_or_concat' (uptimesOf table.rows voteAccount) with
    hrows | ⟨older, row, hrows⟩
  · -- no row yet: the `INSERT` opens one if the snapshot has the validator
    have hnot : voteAccount ∉ validatorsWithExtendedStatus snapshot scan table.rows := by
      rw [mem_validatorsWithExtendedStatus haddr, hrows]
      rintro ⟨_, ⟨⟩, -⟩
    have hnil : spansOf table.rows voteAccount = [] := by
      unfold spansOf
      rw [hrows]
      rfl
    rw [hnil, spansOf_extend_nil _ hrows, List.append_nil]
    cases snapshot.validators.get? voteAccount with
    | none => rfl
    | some v => exact if_neg hnot
  · -- the last row is extended, closed or left alone
    have hkey : row.voteAccount = voteAccount := by
      have hmem : row ∈ uptimesOf table.rows voteAccount := by simp [hrows]
      simpa using (List.mem_filter.mp hmem).2
    rw [spansOf_concat hrows, spansOf_concat (uptimesOf_extend haddr hrows)]
    cases hget : snapshot.validators.get? voteAccount with
    | none =>
      have hkeep : recordExtension snapshot row = none := by
        unfold recordExtension
        rw [hkey, hget]
      rw [hkeep]
      rfl
    | some v =>
      simp only [mem_extended_of_concat haddr hrows]
      exact (sight_span (hkey ▸ hget) _).symm

end Refinement

/-! ## Runs -/

/-- The sightings of a vote account in the snapshots, the latest first. -/
def sightings (snapshots : List ValidatorsPerformanceSnapshot) (voteAccount : String) :
    List (Timestamp × (Status × Nat)) :=
  (snapshots.filterMap fun snapshot =>
    (snapshot.validators.get? voteAccount).map fun v =>
      (snapshot.createdAt, sightedLabel snapshot v)).reverse

/-- What a run of `store_uptime` keeps. -/
structure UptimesInv (snapshots : List ValidatorsPerformanceSnapshot)
    (table : UptimesTable) : Prop where
  ids : (table.rows.map UptimeRow.id).Nodup
  fresh : ∀ row ∈ table.rows, row.id < table.nextId
  timelines : ∀ voteAccount, Faithful minute statusMaxDelayToExtend
    (spansOf table.rows voteAccount) (sightings snapshots voteAccount)

theorem uptimesInv_empty : UptimesInv [] UptimesTable.empty where
  ids := List.nodup_nil
  fresh _ h := nomatch h
  timelines _ := faithful_nil _ _

theorem UptimesInv.addressed {snapshots : List ValidatorsPerformanceSnapshot}
    {table : UptimesTable} (h : UptimesInv snapshots table) : Addressed table.rows where
  ids := h.ids
  ends voteAccount := by
    have hstops := (h.timelines voteAccount).stops
    unfold spansOf at hstops
    rw [List.pairwise_reverse, List.pairwise_map] at hstops
    exact hstops

section Step

variable {snapshots : List ValidatorsPerformanceSnapshot}
  {snapshot : ValidatorsPerformanceSnapshot} {scan : Scan} {table table' : UptimesTable}

theorem sightings_concat (voteAccount : String) :
    sightings (snapshots ++ [snapshot]) voteAccount =
      match snapshot.validators.get? voteAccount with
      | some v => (snapshot.createdAt, sightedLabel snapshot v) ::
          sightings snapshots voteAccount
      | none => sightings snapshots voteAccount := by
  unfold sightings
  rw [List.filterMap_append, List.reverse_append, List.filterMap_cons]
  cases snapshot.validators.get? voteAccount <;> rfl

/-- The times of the sightings are those of the snapshots with the validator. -/
theorem sightings_times (voteAccount : String) :
    (sightings snapshots voteAccount).reverse.map Prod.fst =
      (snapshots.filter fun s => voteAccount ∈ s.validators.keys).map
        ValidatorsPerformanceSnapshot.createdAt := by
  unfold sightings
  rw [List.reverse_reverse, List.map_filterMap]
  induction snapshots with
  | nil => rfl
  | cons s snapshots ih =>
    by_cases hk : voteAccount ∈ s.validators.keys
    · cases hget : s.validators.get? voteAccount with
      | none => exact absurd hk (Dict.get?_eq_none_iff.mp hget)
      | some v =>
        rw [List.filter_cons_of_pos (by simpa using hk), List.map_cons, ← ih,
          List.filterMap_cons_some (b := s.createdAt) (by rw [hget]; rfl)]
    · rw [List.filter_cons_of_neg (by simpa using hk), ← ih,
        List.filterMap_cons_none (by rw [Dict.get?_eq_none_iff.mpr hk]; rfl)]

/-- One completed run of `store_uptime` keeps the invariant. -/
theorem storeUptime_inv (hinv : UptimesInv snapshots table)
    (hlater : ∀ s ∈ snapshots, s.createdAt < snapshot.createdAt)
    (h : storeUptime scan snapshot table = .ok table') :
    UptimesInv (snapshots ++ [snapshot]) table' := by
  have hids : UptimeIds table' := by
    obtain ⟨-, -, rfl⟩ := storeUptime_eq_ok.mp h
    exact (UptimeIds.extend ⟨hinv.ids, hinv.fresh⟩ _).openRows _ _
  refine ⟨hids.nodup, hids.fresh, fun voteAccount => ?_⟩
  rw [storeUptime_spansOf hinv.addressed h, sightings_concat]
  cases snapshot.validators.get? voteAccount with
  | none => exact hinv.timelines voteAccount
  | some v =>
    refine faithful_sight (by decide) (by decide) (hinv.timelines voteAccount)
      fun o ho => ?_
    obtain ⟨s, hs, hsome⟩ := List.mem_filterMap.mp (List.mem_reverse.mp ho)
    obtain ⟨_, -, rfl⟩ := Option.map_eq_some_iff.mp hsome
    exact hlater s hs

end Step

/-- The row covers the time `t`. -/
def UptimeRow.Covers (row : UptimeRow) (t : Timestamp) : Prop :=
  row.startAt ≤ t ∧ t < row.endAt

instance (row : UptimeRow) (t : Timestamp) : Decidable (row.Covers t) :=
  inferInstanceAs (Decidable (_ ∧ _))

/-- The table is a faithful timeline of every validator in the snapshots. -/
structure UptimeTimeline (snapshots : List ValidatorsPerformanceSnapshot)
    (rows : List UptimeRow) : Prop where
  proper : ∀ row ∈ rows, row.startAt ≤ row.endAt
  disjoint : ∀ voteAccount, (uptimesOf rows voteAccount).Pairwise fun row row' =>
    ∀ t, ¬ (row.Covers t ∧ row'.Covers t)
  /-- Exactly one row covers a sighting, and it says what was seen. -/
  sighted : ∀ snapshot ∈ snapshots, ∀ voteAccount v,
    snapshot.validators.get? voteAccount = some v →
      ∃ row, (uptimesOf rows voteAccount).filter (·.Covers snapshot.createdAt) = [row] ∧
        row.status = statusFromDelinquency v.delinquent ∧ row.epoch = snapshot.epoch
  /-- No gap between consecutive sightings less than six minutes apart. -/
  gapless : ∀ voteAccount,
    (snapshots.filter fun snapshot => voteAccount ∈ snapshot.validators.keys).IsChain
      fun snapshot snapshot' => snapshot'.createdAt < snapshot.createdAt + 6 * minute →
        ∀ t, snapshot.createdAt ≤ t → t < snapshot'.createdAt →
          ∃ row ∈ uptimesOf rows voteAccount, row.Covers t

/-- Rows of the table and spans of the timelines are the same. -/
theorem mem_spansOf {rows : List UptimeRow} {voteAccount : String}
    {s : Span Timestamp (Status × Nat)} :
    s ∈ spansOf rows voteAccount ↔ ∃ row ∈ uptimesOf rows voteAccount, row.span = s := by
  unfold spansOf
  rw [List.mem_reverse, List.mem_map]

theorem UptimesInv.timeline {snapshots : List ValidatorsPerformanceSnapshot}
    {table : UptimesTable} (h : UptimesInv snapshots table) :
    UptimeTimeline snapshots table.rows := by
  have hdisjoint : ∀ voteAccount, (uptimesOf table.rows voteAccount).Pairwise
      fun row row' => ∀ t, ¬ (row.Covers t ∧ row'.Covers t) := by
    intro voteAccount
    have hordered := (h.timelines voteAccount).ordered
    unfold spansOf at hordered
    rw [List.pairwise_reverse, List.pairwise_map] at hordered
    exact hordered.imp fun hle t ht => Span.not_contains_of_stop_le hle ht.2 ht.1
  refine
    { proper := fun row hrow => ?_, disjoint := hdisjoint,
      sighted := fun snapshot hs voteAccount v hget => ?_, gapless := fun voteAccount => ?_ }
  · refine ((h.timelines row.voteAccount).proper row.span (mem_spansOf.mpr ⟨row, ?_, rfl⟩)).le
    exact List.mem_filter.mpr ⟨hrow, decide_eq_true rfl⟩
  · have hseen : (snapshot.createdAt, sightedLabel snapshot v) ∈
        sightings snapshots voteAccount :=
      List.mem_reverse.mpr (List.mem_filterMap.mpr ⟨snapshot, hs, by rw [hget]; rfl⟩)
    obtain ⟨s, hs, hcont, hlabel⟩ := (h.timelines voteAccount).exact _ hseen
    obtain ⟨row, hrow, rfl⟩ := mem_spansOf.mp hs
    have hpw := (hdisjoint voteAccount).imp fun hd => hd snapshot.createdAt
    exact ⟨row, filter_eq_singleton hpw hrow hcont, Prod.mk.inj hlabel⟩
  · -- the same chain, read from the first sighting on
    have hchain := (h.timelines voteAccount).continuous
    have htimes : ((sightings snapshots voteAccount).reverse.map Prod.fst).IsChain
        fun u u' => u' < u + (minute + statusMaxDelayToExtend) →
          ∀ t, u ≤ t → t < u' → ∃ s ∈ spansOf table.rows voteAccount, s.Contains t := by
      rw [List.isChain_map, List.isChain_reverse]
      exact hchain
    rw [sightings_times, List.isChain_map] at htimes
    refine htimes.imp fun snapshot snapshot' hpair hclose t ht ht' => ?_
    obtain ⟨s, hs, hcont⟩ := hpair hclose t ht ht'
    obtain ⟨row, hrow, rfl⟩ := mem_spansOf.mp hs
    exact ⟨row, hrow, hcont⟩

end DelegationStrategy.Store
