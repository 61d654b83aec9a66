import DelegationStrategy.Store.Database
import DelegationStrategy.Store.Validators
import Mathlib.Data.Rat.Cast.Order

/-!
# `close_epoch`

`close_epoch` (`store/src/close_epoch.rs`) is a sequence of statements that commit one
by one: the `INSERT` of the epoch record, an `UPDATE` for every 500 validators of the
snapshot, `update_uptimes` and `update_observed_commission`.

- `commitAll_closeEpoch`: what a run computes, whatever the order of the snapshot's
  hash map;
- `closeEpoch_restartable_iff`: a run that stops on the way can be repeated exactly
  if it stopped before its first statement. The record it leaves takes the epoch off
  the list of open epochs and makes the next run fail on the primary key of `epochs`.
-/

namespace DelegationStrategy.Store

open DelegationStrategy.Lib DelegationStrategy.Collect

/-! ## `create_epoch_record` -/

/-- The row of the `SELECT`; `none` if a `NOT NULL` column is `NULL`. -/
def epochRecord (epoch : Nat) (clusterInflation : ClusterInflation) (db : Database) :
    Option EpochsRow := do
  let epochClusterInfo := db.clusterInfo.filter fun row => row.epoch = epoch
  let previousEpoch := db.epochs.filter fun row => row.epoch + 1 = epoch
  -- the epoch starts where the record of the previous one ends, if there is one
  let startAt ← (previousEpoch.map EpochsRow.endAt).max?.or
    (epochClusterInfo.map ClusterInfoRow.createdAt).min?
  let endAt ← (epochClusterInfo.map ClusterInfoRow.createdAt).max?
  let maxCount ← (epochClusterInfo.map ClusterInfoRow.transactionCount).max?
  let minCount ← (epochClusterInfo.map ClusterInfoRow.transactionCount).min?
  some
    { epoch := epoch
      startAt := startAt
      endAt := endAt
      transactionCount := maxCount - minCount
      supply := clusterInflation.solTotalSupply
      inflation := clusterInflation.inflation
      inflationTaper := clusterInflation.inflationTaper }

/-- `create_epoch_record`; there is no `ON CONFLICT`. -/
def createEpochRecord (epoch : Nat) (clusterInflation : ClusterInflation) :
    Statement DbError Database := fun db =>
  match epochRecord epoch clusterInflation db with
  | some row =>
    -- the primary key of `epochs`
    if db.Recorded epoch then .error .uniqueViolation
    else .ok { db with epochs := db.epochs ++ [row] }
  | none => .error .notNullViolation

/-! ## The `UPDATE` of a chunk -/

structure ValidatorUpdateRecord where
  voteAccount : String
  epoch : Nat
  commissionEffective : Option Int
  credits : Nat
  leaderSlots : Nat
  blocksProduced : Nat
  skipRate : Rat
  updatedAt : Timestamp
  deriving DecidableEq, Repr

def validatorUpdateRecord (snapshot : ValidatorsPerformanceSnapshot)
    (rewards : Dict String ValidatorRewards) (voteAccount : String)
    (v : ValidatorPerformance) : ValidatorUpdateRecord where
  voteAccount := voteAccount
  epoch := snapshot.epoch
  commissionEffective := do
    let r ← rewards.get? voteAccount
    let c ← r.commissionEffective
    some c.toNat
  credits := v.credits
  leaderSlots := v.leaderSlots
  blocksProduced := v.blocksProduced
  skipRate := v.skipRate
  updatedAt := snapshot.createdAt

def closeUpdate : UpdateQuery ValidatorsColumn where
  updates :=
    [(.commissionEffective, .value .commissionEffective), (.credits, .value .credits),
     (.leaderSlots, .value .leaderSlots), (.blocksProduced, .value .blocksProduced),
     (.skipRate, .value .skipRate), (.updatedAt, .value .updatedAt)]
  valuesNames :=
    [.voteAccount, .epoch, .commissionEffective, .credits, .leaderSlots, .blocksProduced,
     .skipRate, .updatedAt]
  whereCondition := [.voteAccount, .epoch]
  types :=
    [(1, .numeric), (2, .integer), (3, .numeric), (4, .numeric), (5, .numeric),
     (6, .doublePrecision), (7, .timestamp)]

def closeParams (v : ValidatorUpdateRecord) : List Param :=
  [param .text v.voteAccount, param .numeric v.epoch, param .integer v.commissionEffective,
   param .numeric v.credits, param .numeric v.leaderSlots, param .numeric v.blocksProduced,
   param .doublePrecision v.skipRate, param .timestamp v.updatedAt]

/-- A row of the validator after the `UPDATE`. -/
def ValidatorUpdateRecord.finalize (v : ValidatorUpdateRecord) (row : ValidatorsRow) :
    ValidatorsRow :=
  { row with
    commissionEffective := v.commissionEffective
    credits := v.credits
    leaderSlots := v.leaderSlots
    blocksProduced := v.blocksProduced
    skipRate := v.skipRate
    updatedAt := v.updatedAt }

/-- The `UPDATE` for a chunk of records. -/
def closeChunk (chunk : List ValidatorUpdateRecord) :
    Statement DbError (List ValidatorsRow) :=
  executeUpdate closeUpdate (chunk.map closeParams)

/-! ## `update_uptimes` -/

/-- `downtimes`: the sum of the downtimes of a vote account in the epoch. -/
def downtimeOf (uptimes : List UptimeRow) (epoch : Nat) (voteAccount : String) :
    Option Timestamp :=
  match uptimes.filter fun row =>
    row.epoch = epoch ∧ row.status = .down ∧ row.voteAccount = voteAccount with
  | [] => none
  | rows => some (rows.map fun row => row.endAt - row.startAt).sum

/-- `EXTRACT('epoch' FROM …)` of an interval. -/
def seconds (t : Timestamp) : Rat := t / 1000000

/-- The column `uptime_pct`. A quotient with `NULL` is `NULL`, also by zero. -/
def uptimePct (epochDuration : Timestamp) (downtime : Option Timestamp) :
    Except DbError Rat := do
  let share ← match downtime with
    | some downtime =>
      if epochDuration = 0 then .error .divisionByZero
      else .ok (some (1 - seconds downtime / seconds epochDuration))
    | none => .ok none
  .ok (min (max (share.getD 1) 0) 1)

/-- A row after `update_uptimes`. -/
def uptimesRow (vars : EpochsRow) (uptimes : List UptimeRow) (row : ValidatorsRow) :
    Except DbError ValidatorsRow :=
  if row.epoch = vars.epoch then do
    let epochDuration := vars.endAt - vars.startAt
    let downtime := downtimeOf uptimes vars.epoch row.voteAccount
    let pct ← uptimePct epochDuration downtime
    .ok
      { row with
        uptimePct := some pct
        uptime := some (seconds (max ((downtime.map (epochDuration - ·)).getD epochDuration) 0))
        downtime := some (seconds (downtime.getD 0)) }
  else .ok row

def updateUptimes (epoch : Nat) : Statement DbError Database := fun db =>
  match db.epochs.find? fun row => row.epoch = epoch with
  | some vars => do
    let validators ← db.validators.mapM (uptimesRow vars db.uptimes)
    .ok { db with validators := validators }
  | none => .ok db

/-! ## `update_observed_commission` -/

/-- `GREATEST` ignores `NULL`. -/
def greatest (values : List (Option Int)) : Option Int := (values.filterMap id).max?

/-- `LEAST` ignores `NULL`. -/
def least (values : List (Option Int)) : Option Int := (values.filterMap id).min?

/-- A row after `update_observed_commission`. -/
def observedRow (epoch : Nat) (commissions : List CommissionRow) (row : ValidatorsRow) :
    ValidatorsRow :=
  if row.epoch = epoch then
    let values := (commissions.filter fun c =>
      c.epoch = epoch ∧ c.voteAccount = row.voteAccount).map ChangeRow.value
    { row with
      commissionMaxObserved :=
        greatest [values.max?, row.commissionAdvertised, row.commissionEffective]
      commissionMinObserved :=
        least [values.min?, row.commissionAdvertised, row.commissionEffective] }
  else row

def updateObservedCommission (epoch : Nat) : Statement DbError Database := fun db =>
  .ok { db with validators := db.validators.map (observedRow epoch db.commissions) }

/-! ## The program -/

section Program

variable (scan : Scan) (snapshot : ValidatorsPerformanceSnapshot)

/-- The records, in the order of an iteration over the hash map. -/
def validatorUpdateRecords (rewards : Dict String ValidatorRewards) :
    List ValidatorUpdateRecord :=
  (scan.order snapshot.validators.entries).map fun e =>
    validatorUpdateRecord snapshot rewards e.1 e.2

/-- The `UPDATE`s of a run. -/
def closeUpdates (rewards : Dict String ValidatorRewards) :
    List (Statement DbError Database) :=
  ((chunks defaultChunkSize (validatorUpdateRecords scan snapshot rewards)).map closeChunk).map
    onValidators

/-- The statements of `close_epoch`. A snapshot without rewards or without inflation
makes `unwrap` panic before the first of them. -/
def closeEpochStatements : Option (List (Statement DbError Database)) := do
  let rewards ← snapshot.rewards
  let clusterInflation ← snapshot.clusterInflation
  some (createEpochRecord snapshot.epoch clusterInflation ::
    (closeUpdates scan snapshot rewards ++
      [updateUptimes snapshot.epoch, updateObservedCommission snapshot.epoch]))

end Program

/-! ## What the updates do -/

section Updates

variable {scan : Scan} {snapshot : ValidatorsPerformanceSnapshot}
  {rewards : Dict String ValidatorRewards} {table : List ValidatorsRow}

/-- The record of a vote account. -/
def updateRecord? (snapshot : ValidatorsPerformanceSnapshot)
    (rewards : Dict String ValidatorRewards) (voteAccount : String) :
    Option ValidatorUpdateRecord :=
  (snapshot.validators.get? voteAccount).map (validatorUpdateRecord snapshot rewards voteAccount)

theorem updateRecord?_key {voteAccount : String} {v : ValidatorUpdateRecord}
    (h : updateRecord? snapshot rewards voteAccount = some v) :
    v.voteAccount = voteAccount ∧ v.epoch = snapshot.epoch := by
  obtain ⟨_, -, rfl⟩ := Option.map_eq_some_iff.mp h
  exact ⟨rfl, rfl⟩

/-- **The `UPDATE`** finalizes the rows of the snapshot's validators. -/
theorem edits_close (snapshot : ValidatorsPerformanceSnapshot)
    (rewards : Dict String ValidatorRewards) :
    Edits closeUpdate closeParams snapshot.epoch (updateRecord? snapshot rewards)
      ValidatorUpdateRecord.finalize where
  assignable := by decide
  types _ := rfl
  selects voteAccount v row hget := by
    obtain ⟨hvote, hepoch⟩ := updateRecord?_key hget
    rw [← hvote, ← hepoch]
    exact selects_iff rfl rfl rfl
  assigned _ _ c := by cases c <;> rfl
  key _ _ _ _ := ⟨rfl, rfl⟩
  idempotent _ _ := rfl

/-- The rows after all updates. -/
def finalizedRow (snapshot : ValidatorsPerformanceSnapshot)
    (rewards : Dict String ValidatorRewards) : ValidatorsRow → ValidatorsRow :=
  editRow snapshot.epoch (updateRecord? snapshot rewards) ValidatorUpdateRecord.finalize
    snapshot.validators.keys

def finalized (snapshot : ValidatorsPerformanceSnapshot)
    (rewards : Dict String ValidatorRewards) (db : Database) : Database :=
  { db with validators := db.validators.map (finalizedRow snapshot rewards) }

theorem updateRecord?_of_mem {v : ValidatorUpdateRecord}
    (h : v ∈ validatorUpdateRecords scan snapshot rewards) :
    updateRecord? snapshot rewards v.voteAccount = some v := by
  obtain ⟨e, he, rfl⟩ := List.mem_map.mp h
  unfold updateRecord?
  show (snapshot.validators.get? e.1).map _ = _
  rw [Dict.get?_of_mem (scan.mem_order.mp he)]
  rfl

/-- The records have the vote accounts of the snapshot. -/
theorem mem_recordAccounts {voteAccount : String} :
    voteAccount ∈ (validatorUpdateRecords scan snapshot rewards).map
        ValidatorUpdateRecord.voteAccount ↔
      voteAccount ∈ snapshot.validators.keys := by
  unfold validatorUpdateRecords
  rw [List.map_map]
  exact ((scan.perm _).map Prod.fst).mem_iff

/-- A chunk of records is a chunk of vote accounts. -/
theorem filterMap_updateRecord? {chunk : List ValidatorUpdateRecord}
    (h : chunk ∈ chunks defaultChunkSize (validatorUpdateRecords scan snapshot rewards)) :
    (chunk.map ValidatorUpdateRecord.voteAccount).filterMap (updateRecord? snapshot rewards) =
      chunk := by
  rw [List.filterMap_map]
  refine (List.filterMap_congr fun v hv => ?_).trans List.filterMap_some
  exact updateRecord?_of_mem (mem_of_mem_chunks (by decide) h hv)

theorem closeChunk_eq {chunk : List ValidatorUpdateRecord}
    (h : chunk ∈ chunks defaultChunkSize (validatorUpdateRecords scan snapshot rewards)) :
    closeChunk chunk = executeUpdate closeUpdate
      (((chunk.map ValidatorUpdateRecord.voteAccount).filterMap
        (updateRecord? snapshot rewards)).map closeParams) := by
  rw [filterMap_updateRecord? h]
  rfl

/-- A chunk has few enough parameters. -/
theorem closeChunk_size {chunk : List ValidatorUpdateRecord}
    (h : chunk ∈ chunks defaultChunkSize (validatorUpdateRecords scan snapshot rewards)) :
    (chunk.map ValidatorUpdateRecord.voteAccount).length * closeUpdate.valueTypes.length ≤
      maxParams := by
  rw [List.length_map]
  exact (Nat.mul_le_mul_right _ (length_of_mem_chunks h)).trans (by decide)

/-- **The `UPDATE` of a chunk** finalizes the rows of the chunk. -/
theorem closeChunk_eq_ok {chunk : List ValidatorUpdateRecord} (hkey : PrimaryKey table)
    (h : chunk ∈ chunks defaultChunkSize (validatorUpdateRecords scan snapshot rewards)) :
    closeChunk chunk table =
      .ok (table.map (editRow snapshot.epoch (updateRecord? snapshot rewards)
        ValidatorUpdateRecord.finalize (chunk.map ValidatorUpdateRecord.voteAccount))) := by
  rw [closeChunk_eq h]
  exact (edits_close snapshot rewards).executeUpdate_eq_ok hkey (closeChunk_size h)

/-- **The updates of a run** finalize the rows of the snapshot's validators, in
whatever order the hash map is iterated. -/
theorem commitAll_closeUpdates {db : Database} (hkey : PrimaryKey db.validators) :
    commitAll (closeUpdates scan snapshot rewards) db = .ok (finalized snapshot rewards db) := by
  have hrun := (edits_close snapshot rewards).commitAll_eq_ok
    ((chunks defaultChunkSize (validatorUpdateRecords scan snapshot rewards)).map
      (List.map ValidatorUpdateRecord.voteAccount)) hkey (by
        intro accounts haccounts
        obtain ⟨chunk, hchunk, rfl⟩ := List.mem_map.mp haccounts
        exact closeChunk_size hchunk)
  rw [List.map_map, ← List.map_flatten, chunks_flatten (by decide)] at hrun
  have hedit : editRow snapshot.epoch (updateRecord? snapshot rewards)
      ValidatorUpdateRecord.finalize
      ((validatorUpdateRecords scan snapshot rewards).map ValidatorUpdateRecord.voteAccount) =
      finalizedRow snapshot rewards := editRow_congr fun _ => mem_recordAccounts
  rw [hedit] at hrun
  unfold closeUpdates
  rw [commitAll_onValidators, List.map_congr_left fun chunk hchunk => closeChunk_eq hchunk]
  exact congrArg (Except.map _) hrun

end Updates

/-! ## What a run does -/

section Run

variable {scan : Scan} {snapshot : ValidatorsPerformanceSnapshot}
  {statements : List (Statement DbError Database)} {db db' : Database}

theorem closeEpochStatements_eq_some
    (h : closeEpochStatements scan snapshot = some statements) :
    ∃ rewards clusterInflation, snapshot.rewards = some rewards ∧
      snapshot.clusterInflation = some clusterInflation ∧
      statements = createEpochRecord snapshot.epoch clusterInflation ::
        (closeUpdates scan snapshot rewards ++
          [updateUptimes snapshot.epoch, updateObservedCommission snapshot.epoch]) := by
  obtain ⟨rewards, hrewards, h⟩ := Option.bind_eq_some_iff.mp h
  obtain ⟨clusterInflation, hinflation, h⟩ := Option.bind_eq_some_iff.mp h
  exact ⟨rewards, clusterInflation, hrewards, hinflation, (Option.some.inj h).symm⟩

/-- The epoch record is the only change of the first statement. -/
theorem createEpochRecord_eq_ok {epoch : Nat} {clusterInflation : ClusterInflation} :
    createEpochRecord epoch clusterInflation db = .ok db' ↔
      ∃ row, epochRecord epoch clusterInflation db = some row ∧ ¬ db.Recorded epoch ∧
        db' = { db with epochs := db.epochs ++ [row] } := by
  unfold createEpochRecord
  cases epochRecord epoch clusterInflation db with
  | none => exact ⟨nofun, nofun⟩
  | some row =>
    by_cases hrecorded : db.Recorded epoch
    · simp [hrecorded]
    · simp [hrecorded, eq_comm]

theorem epochRecord_epoch {epoch : Nat} {clusterInflation : ClusterInflation}
    {row : EpochsRow} (h : epochRecord epoch clusterInflation db = some row) :
    row.epoch = epoch := by
  unfold epochRecord at h
  simp only [Option.bind_eq_bind, Option.bind_eq_some_iff, Option.some.injEq] at h
  obtain ⟨_, -, _, -, _, -, _, -, rfl⟩ := h
  rfl

/-- The result of a run. -/
def closeResult (snapshot : ValidatorsPerformanceSnapshot)
    (rewards : Dict String ValidatorRewards) (clusterInflation : ClusterInflation)
    (db : Database) : Except DbError Database := do
  let recorded ← createEpochRecord snapshot.epoch clusterInflation db
  let timed ← updateUptimes snapshot.epoch (finalized snapshot rewards recorded)
  updateObservedCommission snapshot.epoch timed

/-- **A run of `close_epoch`** computes the same in every order of the snapshot's hash
map. -/
theorem commitAll_closeEpoch {rewards : Dict String ValidatorRewards}
    {clusterInflation : ClusterInflation} (hkey : PrimaryKey db.validators) :
    commitAll (createEpochRecord snapshot.epoch clusterInflation ::
      (closeUpdates scan snapshot rewards ++
        [updateUptimes snapshot.epoch, updateObservedCommission snapshot.epoch])) db =
      closeResult snapshot rewards clusterInflation db := by
  unfold closeResult commitAll
  cases hcreate : createEpochRecord snapshot.epoch clusterInflation db with
  | error e => rfl
  | ok recorded =>
    have hkey' : PrimaryKey recorded.validators := by
      obtain ⟨row, -, -, rfl⟩ := createEpochRecord_eq_ok.mp hcreate
      exact hkey
    show commitAll (closeUpdates scan snapshot rewards ++ _) recorded = _
    rw [commitAll_append_bind, commitAll_closeUpdates hkey']
    show commitAll [_, _] (finalized snapshot rewards recorded) = (updateUptimes _ _ >>= _)
    unfold commitAll
    cases updateUptimes snapshot.epoch (finalized snapshot rewards recorded) with
    | error e => rfl
    | ok timed => rfl

/-! ### The epoch record -/

/-- A run on a recorded epoch fails at its first statement. -/
theorem createEpochRecord_recorded {epoch : Nat} (clusterInflation : ClusterInflation)
    (h : db.Recorded epoch) :
    ∃ e, createEpochRecord epoch clusterInflation db = .error e := by
  unfold createEpochRecord
  cases epochRecord epoch clusterInflation db with
  | none => exact ⟨_, rfl⟩
  | some row => exact ⟨_, if_pos h⟩

/-- A row after `update_uptimes`, if the statement succeeds. -/
def timedRow (vars : EpochsRow) (uptimes : List UptimeRow) (row : ValidatorsRow) :
    ValidatorsRow :=
  (uptimesRow vars uptimes row).toOption.getD row

/-- It differs in the three columns, and only in the epoch. -/
theorem timedRow_eq (vars : EpochsRow) (uptimes : List UptimeRow) (row : ValidatorsRow) :
    ∃ pct uptime downtime, timedRow vars uptimes row =
      { row with uptimePct := pct, uptime := uptime, downtime := downtime } := by
  unfold timedRow uptimesRow
  split
  · dsimp only
    cases uptimePct (vars.endAt - vars.startAt)
      (downtimeOf uptimes vars.epoch row.voteAccount) with
    | error e => exact ⟨row.uptimePct, row.uptime, row.downtime, rfl⟩
    | ok pct => exact ⟨_, _, _, rfl⟩
  · exact ⟨row.uptimePct, row.uptime, row.downtime, rfl⟩

/-- **`update_uptimes`** rewrites the rows in place. -/
theorem updateUptimes_eq_ok {epoch : Nat} (h : updateUptimes epoch db = .ok db') :
    db' = db ∨ ∃ vars : EpochsRow, vars.epoch = epoch ∧
      db' = { db with validators := db.validators.map (timedRow vars db.uptimes) } := by
  unfold updateUptimes at h
  cases hvars : db.epochs.find? fun row => row.epoch = epoch with
  | none =>
    rw [hvars] at h
    exact Or.inl (Except.ok.inj h).symm
  | some vars =>
    rw [hvars] at h
    obtain ⟨validators, hrows, h⟩ := bind_eq_ok.mp h
    obtain rfl := Except.ok.inj h
    refine Or.inr ⟨vars, by simpa using List.find?_some hvars, ?_⟩
    rw [eq_map_of_mapM (fun row row' hrow => ?_) hrows]
    unfold timedRow
    rw [hrow]
    rfl

/-- The statements after the first change `validators` only. -/
theorem closeUpdates_tail {rewards : Dict String ValidatorRewards} {epoch : Nat}
    {statement : Statement DbError Database}
    (hmem : statement ∈ closeUpdates scan snapshot rewards ++
      [updateUptimes epoch, updateObservedCommission epoch])
    (h : statement db = .ok db') : ∃ validators, db' = { db with validators := validators } := by
  rcases List.mem_append.mp hmem with hupdate | hlast
  · obtain ⟨update, -, rfl⟩ := List.mem_map.mp hupdate
    obtain ⟨validators, -, rfl⟩ := onValidators_eq_ok.mp h
    exact ⟨validators, rfl⟩
  · rcases List.mem_cons.mp hlast with rfl | hlast
    · rcases updateUptimes_eq_ok h with rfl | ⟨vars, -, rfl⟩
      · exact ⟨_, rfl⟩
      · exact ⟨_, rfl⟩
    · obtain rfl := List.mem_singleton.mp hlast
      exact ⟨_, (Except.ok.inj h).symm⟩

/-- **The first statement decides**: a run that got past it has recorded the epoch. -/
theorem recorded_of_commitAll_take (hstatements : closeEpochStatements scan snapshot =
      some statements) {k : Nat} (hk : 0 < k)
    (h : commitAll (statements.take k) db = .ok db') : db'.Recorded snapshot.epoch := by
  obtain ⟨rewards, clusterInflation, -, -, rfl⟩ := closeEpochStatements_eq_some hstatements
  obtain ⟨k, rfl⟩ := Nat.exists_eq_add_of_lt hk
  rw [Nat.zero_add, List.take_succ_cons] at h
  obtain ⟨recorded, hcreate, hrest⟩ := commitAll_cons.mp h
  have hrecorded : recorded.Recorded snapshot.epoch := by
    obtain ⟨row, hrow, -, rfl⟩ := createEpochRecord_eq_ok.mp hcreate
    exact List.mem_map.mpr
      ⟨row, List.mem_append_right _ (List.mem_singleton_self row), epochRecord_epoch hrow⟩
  refine commitAll_inv (P := fun db => db.Recorded snapshot.epoch)
    (fun statement hmem db db' hdb hs => ?_) hrecorded hrest
  obtain ⟨validators, rfl⟩ := closeUpdates_tail (List.mem_of_mem_take hmem) hs
  exact hdb

end Run

/-! ## Restarting a run -/

/-- After a run that stopped and left `left`, the epoch is still open, and another run
with the snapshot succeeds with the `validators` and `epochs` of `complete`. -/
structure Restartable (snapshot : ValidatorsPerformanceSnapshot) (complete left : Database) :
    Prop where
  again : ∀ scan statements, closeEpochStatements scan snapshot = some statements →
    ∃ db', commitAll statements left = .ok db' ∧ db'.validators = complete.validators ∧
      db'.epochs = complete.epochs
  isOpen : snapshot.epoch ∈ listOpenEpochs left

/-- What a run leaves that stops before statement `k`. -/
def stoppedAt (k : Nat) (e : DbError) (statements : List (Statement DbError Database))
    (db : Database) : Database :=
  (autocommit (stopAt k e) statements db).1

section Restart

variable {scan : Scan} {snapshot : ValidatorsPerformanceSnapshot}
  {statements : List (Statement DbError Database)} {db db' complete : Database}

/-- A recorded epoch is not open, and no run on it succeeds. -/
theorem not_restartable_of_recorded (hstatements : closeEpochStatements scan snapshot =
      some statements) (h : db.Recorded snapshot.epoch) :
    snapshot.epoch ∉ listOpenEpochs db ∧ ∀ db', commitAll statements db ≠ .ok db' := by
  refine ⟨fun hopen => (mem_listOpenEpochs.mp hopen).2 h, fun db' hrun => ?_⟩
  obtain ⟨rewards, clusterInflation, -, -, rfl⟩ := closeEpochStatements_eq_some hstatements
  obtain ⟨recorded, hcreate, -⟩ := commitAll_cons.mp hrun
  obtain ⟨e, herror⟩ := createEpochRecord_recorded clusterInflation h
  rw [herror] at hcreate
  cases hcreate

/-- Once the first statement is committed, a run cannot be repeated. -/
theorem not_restartable_of_pos (hstatements : closeEpochStatements scan snapshot =
      some statements) (hrun : commitAll statements db = .ok db') {k : Nat} (hpos : 0 < k)
    (hk : k < statements.length) (e : DbError) :
    ¬ Restartable snapshot complete (stoppedAt k e statements db) := by
  obtain ⟨left, hleft⟩ := commitAll_take hrun k
  have hstopped : stoppedAt k e statements db = left := by
    unfold stoppedAt
    rw [autocommit_stopAt hk hleft e]
  have hrecorded := recorded_of_commitAll_take hstatements hpos hleft
  rw [hstopped]
  exact fun h => (not_restartable_of_recorded hstatements hrecorded).1 h.isOpen

/-- Before that, it can. -/
theorem restartable_zero (hkey : PrimaryKey db.validators)
    (hopen : snapshot.epoch ∈ listOpenEpochs db)
    (hstatements : closeEpochStatements scan snapshot = some statements)
    (hrun : commitAll statements db = .ok db') (e : DbError) :
    Restartable snapshot db' (stoppedAt 0 e statements db) := by
  obtain ⟨rewards, clusterInflation, hrewards, hinflation, rfl⟩ :=
    closeEpochStatements_eq_some hstatements
  have hstopped : stoppedAt 0 e (createEpochRecord snapshot.epoch clusterInflation ::
      (closeUpdates scan snapshot rewards ++
        [updateUptimes snapshot.epoch, updateObservedCommission snapshot.epoch])) db = db := rfl
  rw [hstopped]
  refine ⟨fun scan' statements' hstatements' => ⟨db', ?_, rfl, rfl⟩, hopen⟩
  obtain ⟨rewards', clusterInflation', hrewards', hinflation', rfl⟩ :=
    closeEpochStatements_eq_some hstatements'
  obtain rfl := Option.some.inj (hrewards'.symm.trans hrewards)
  obtain rfl := Option.some.inj (hinflation'.symm.trans hinflation)
  rw [commitAll_closeEpoch hkey] at hrun ⊢
  exact hrun

end Restart

/-- **When `close_epoch` can be restarted**: exactly when the run stopped before the
epoch record was committed. -/
theorem closeEpoch_restartable_iff (scan : Scan) (snapshot : ValidatorsPerformanceSnapshot)
    (statements : List (Statement DbError Database)) (db db' : Database)
    (hkey : PrimaryKey db.validators) (hopen : snapshot.epoch ∈ listOpenEpochs db)
    (hstatements : closeEpochStatements scan snapshot = some statements)
    (hrun : commitAll statements db = .ok db') (k : Nat) (hk : k < statements.length)
    (e : DbError) : Restartable snapshot db' (stoppedAt k e statements db) ↔ k = 0 := by
  constructor
  · intro h
    by_contra hne
    exact not_restartable_of_pos hstatements hrun (Nat.pos_of_ne_zero hne) hk e h
  · rintro rfl
    exact restartable_zero hkey hopen hstatements hrun e

/-! ### A run that loses its connection -/

/-- The database after the validators of epoch 500 were stored once. -/
def openDatabase : Database where
  validators := upserted .sequential (singleValidators 0 10) []
  epochs := []
  commissions := []
  uptimes := []
  clusterInfo := [⟨500, 1000, 0⟩, ⟨500, 3000, 5 * minute⟩]

/-- The performance snapshot to close the epoch with. -/
def closingSnapshot : ValidatorsPerformanceSnapshot :=
  { singleSnapshot (6 * minute) 5 false with
    clusterInflation := some ⟨500000000, 5, 15⟩
    rewards := some (Dict.ofList [("vote", ⟨some 7⟩)]) }

theorem openDatabase_key : PrimaryKey openDatabase.validators :=
  primaryKey_upserted List.nodup_nil

theorem openDatabase_open : closingSnapshot.epoch ∈ listOpenEpochs openDatabase := by decide

/-- An uninterrupted run succeeds. -/
theorem closingSnapshot_run : ∃ statements,
    closeEpochStatements .sequential closingSnapshot = some statements ∧
      statements.length = 4 ∧ ∃ db', commitAll statements openDatabase = .ok db' := by
  refine ⟨_, rfl, rfl, ?_⟩
  rw [commitAll_closeEpoch openDatabase_key]
  exact ⟨_, rfl⟩

/-- The run can be repeated if it stopped before its first statement, and not if it
stopped after it. -/
theorem closeEpoch_restartable_iff_single : ∃ statements db',
    commitAll statements openDatabase = .ok db' ∧
      (Restartable closingSnapshot db' (stoppedAt 0 .connection statements openDatabase) ↔
        0 = 0) ∧
      (Restartable closingSnapshot db' (stoppedAt 1 .connection statements openDatabase) ↔
        1 = 0) := by
  obtain ⟨statements, hstatements, hlen, db', hrun⟩ := closingSnapshot_run
  have hiff := closeEpoch_restartable_iff .sequential closingSnapshot statements openDatabase
    db' openDatabase_key openDatabase_open hstatements hrun
  exact ⟨statements, db', hrun, hiff 0 (by omega) .connection, hiff 1 (by omega) .connection⟩

/-- The connection is lost after the epoch record was committed. -/
theorem closeEpoch_not_restartable :
    ¬ ∀ (scan : Scan) (snapshot : ValidatorsPerformanceSnapshot)
      (statements : List (Statement DbError Database)) (db db' : Database),
      PrimaryKey db.validators → snapshot.epoch ∈ listOpenEpochs db →
      closeEpochStatements scan snapshot = some statements →
      commitAll statements db = .ok db' →
      ∀ k < statements.length, ∀ e, Restartable snapshot db' (stoppedAt k e statements db) := by
  intro h
  obtain ⟨statements, hstatements, hlen, db', hrun⟩ := closingSnapshot_run
  have hrestartable := h .sequential closingSnapshot statements openDatabase db'
    openDatabase_key openDatabase_open hstatements hrun 1 (by omega) .connection
  exact not_restartable_of_pos hstatements hrun Nat.one_pos (by omega) .connection hrestartable

end DelegationStrategy.Store
