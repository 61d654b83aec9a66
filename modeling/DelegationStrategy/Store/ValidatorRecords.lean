import DelegationStrategy.Lib.Binary64
import DelegationStrategy.Store.System
import DelegationStrategy.Store.UptimeRuns

/-!
# The records of the validators

`load_validators` (`store/src/utils.rs`) asks for the last epoch of `validators`, then for
the rows of the latest epochs, and makes one `ValidatorRecord` of the rows of a vote
account. Scores, averages and incidents are added later. `aggregate_validators` sums the
records up by epoch.

- A record has the flag `has_last_epoch_stats` exactly if it has stats for the last epoch
  that was read *first*; the rows may already go beyond it (`OfEpoch`).
- The epochs of the aggregates are the epochs of the records, the latest first
  (`epochs_aggregateValidators`, `pairwise_aggregateValidators`).
-/

namespace DelegationStrategy.Store

open DelegationStrategy.Lib DelegationStrategy.Collect

/-- `to_fixed`: the product is a double before it is rounded, and `as u64` saturates. -/
def toFixed (a : Rat) (decimals : Nat) : Nat :=
  min (roundHalfAway (roundBinary64 (a * 10 ^ decimals))).toNat (2 ^ 64 - 1)

/-- `to_fixed_for_sort`. -/
def toFixedForSort (a : Rat) : Nat := toFixed a 4

theorem toFixed_of_nonpos {a : Rat} (ha : a ≤ 0) (decimals : Nat) : toFixed a decimals = 0 := by
  have hproduct : roundBinary64 (a * 10 ^ decimals) ≤ ((0 : Int) : Rat) := by
    rw [Int.cast_zero]
    exact roundBinary64_nonpos (mul_nonpos_of_nonpos_of_nonneg ha (by positivity))
  unfold toFixed
  rw [Int.toNat_of_nonpos (isRounding_roundHalfAway.round_le hproduct), Nat.zero_min]

/-- A greater number has no smaller key. -/
theorem toFixed_mono (decimals : Nat) : Monotone fun a => toFixed a decimals := by
  intro a b hab
  show toFixed a decimals ≤ toFixed b decimals
  rcases le_total a 0 with ha | ha
  · rw [toFixed_of_nonpos ha]
    exact Nat.zero_le _
  · have hscaled : a * 10 ^ decimals ≤ b * 10 ^ decimals := by gcongr
    have hproduct := roundBinary64_mono (mul_nonneg ha (by positivity)) hscaled
    exact min_le_min_right _ (Int.toNat_le_toNat (isRounding_roundHalfAway.monotone hproduct))

theorem toFixedForSort_mono : Monotone toFixedForSort := toFixed_mono 4

/-- The product of a double below 0.91235 is the midpoint, so it has the key of 0.9124. -/
example : (toFixedForSort (roundBinary64 (91235 / 100000)),
    roundHalfAway (roundBinary64 (91235 / 100000) * 10 ^ 4),
    toFixedForSort (roundBinary64 (9124 / 10000))) = (9124, 9123, 9124) := by
  decide +kernel

/-! ## Loading -/

/-- `DEFAULT_CACHE_EPOCHS`. -/
def defaultCacheEpochs : Nat := 80

/-- `DEFAULT_COMPUTING_EPOCHS`. -/
def defaultComputingEpochs : Nat := 20

/-- `DEFAULT_INCIDENTS_WINDOW_EPOCHS`. -/
def defaultIncidentsWindowEpochs : Nat := 90

structure ValidatorEpochStats where
  epoch : Nat
  epochStartAt : Option Timestamp
  activatedStake : Nat
  marinadeStake : Nat
  credits : Nat
  uptimePct : Option Rat
  apy : Option Rat
  score : Option Rat
  rankActivatedStake : Option Nat := none
  rankScore : Option Nat := none
  rankApy : Option Nat := none
  deriving DecidableEq, Repr

structure ValidatorRecord where
  identity : String
  voteAccount : String
  infoName : Option String
  dcCountry : Option String
  dcCity : Option String
  dcFullCity : Option String
  commissionMaxObserved : Option Int
  activatedStake : Nat
  marinadeStake : Nat
  foundationStake : Nat
  superminority : Bool
  credits : Nat
  score : Option Rat
  epochStats : List ValidatorEpochStats
  hasLastEpochStats : Bool
  avgUptimePct : Option Rat
  avgApy : Option Rat
  incidents : List IncidentRecord
  deriving DecidableEq, Repr

/-- `get_last_epoch`: `SELECT COALESCE(MAX(epoch), 0) AS last_epoch FROM validators`. -/
def getLastEpoch (db : Database) : Option Nat :=
  some ((db.validators.map ValidatorsRow.epoch).max?.getD 0)

/-- What `load_validators` gets from elsewhere while it reads the rows. -/
structure LoadInputs where
  scan : Scan
  /-- `Utc::now()` at the row of a validator in an epoch. -/
  now : String → Nat → Timestamp
  /-- `apy_calculators`: `estimate_yields` computes powers in floating point. -/
  apyCalculators : Nat → Option (Nat → Int → Rat)

/-- `WHERE validators.epoch > cluster.last_epoch - $1 ORDER BY epoch DESC`. -/
def validatorsRows (scan : Scan) (displayEpochs : Nat) (db : Database) : List ValidatorsRow :=
  match (db.clusterInfo.map ClusterInfoRow.epoch).max? with
  | some lastEpoch =>
    ((scan.order db.validators).filter fun row =>
      (lastEpoch : Int) - displayEpochs < row.epoch).insertionSort
        fun row row' => row'.epoch ≤ row.epoch
  -- the comparison with `NULL` selects nothing
  | none => []

/-- The `ValidatorEpochStats` of a row, joined with `epochs`. -/
def epochStats (inputs : LoadInputs) (db : Database) (row : ValidatorsRow) :
    ValidatorEpochStats where
  epoch := row.epoch
  epochStartAt := some <|
    ((db.epochs.find? fun epochsRow => epochsRow.epoch = row.epoch).map EpochsRow.startAt).getD
      (inputs.now row.voteAccount row.epoch)
  activatedStake := row.activatedStake
  marinadeStake := row.marinadeStake
  credits := row.credits
  uptimePct := row.uptimePct
  apy := (inputs.apyCalculators row.epoch).map fun estimate =>
    estimate row.credits (row.commissionEffective.getD 100)
  score := none

/-- The record of a vote account that has none yet. -/
def newRecord (row : ValidatorsRow) : ValidatorRecord where
  identity := row.identity
  voteAccount := row.voteAccount
  infoName := row.infoName
  dcCountry := row.dcCountry
  dcCity := row.dcCity
  -- `CONCAT` ignores `NULL`
  dcFullCity := some (row.dcContinent.getD "" ++ "/" ++ row.dcCountry.getD "" ++ "/" ++
    row.dcCity.getD "")
  commissionMaxObserved := row.commissionMaxObserved
  activatedStake := row.activatedStake
  marinadeStake := row.marinadeStake
  foundationStake := row.foundationStake
  superminority := row.superminority
  credits := row.credits
  score := none
  epochStats := []
  hasLastEpochStats := false
  avgUptimePct := none
  avgApy := none
  incidents := []

/-- What the row of an epoch adds to the record of its vote account. -/
def ValidatorRecord.addStats (lastEpoch : Nat) (stats : ValidatorEpochStats)
    (record : ValidatorRecord) : ValidatorRecord :=
  { record with
    hasLastEpochStats := if lastEpoch = stats.epoch then true else record.hasLastEpochStats
    epochStats := record.epochStats ++ [stats] }

def addRow (inputs : LoadInputs) (db : Database) (lastEpoch : Nat)
    (records : Dict String ValidatorRecord) (row : ValidatorsRow) :
    Dict String ValidatorRecord :=
  records.insert row.voteAccount
    (((records.get? row.voteAccount).getD (newRecord row)).addStats lastEpoch
      (epochStats inputs db row))

/-- The records of the rows: `last_epoch` was read before them. -/
def aggregateRecords (inputs : LoadInputs) (db : Database) (lastEpoch : Nat) :
    Dict String ValidatorRecord :=
  (validatorsRows inputs.scan defaultCacheEpochs db).foldl (addRow inputs db lastEpoch)
    Dict.empty

/-! ## Updates -/

/-- `average`. -/
def average (numbers : List Rat) : Option Rat :=
  if numbers = [] then none else some (numbers.sum / numbers.length)

theorem average_eq {numbers : List Rat} (h : numbers ≠ []) :
    average numbers = some (numbers.sum / numbers.length) := by
  simp [average, h]

/-- `update_validators_with_scores`, with what `load_scores_in_epochs` returned. -/
def updateValidatorsWithScores (scoresPerEpoch : Dict Nat (Dict String Rat))
    (validators : Dict String ValidatorRecord) : Dict String ValidatorRecord :=
  match scoresPerEpoch.keys.max? with
  | none => validators
  | some latestEpochWithScore =>
    validators.mapVal fun validator =>
      { validator with
        epochStats := validator.epochStats.map fun stats =>
          match scoresPerEpoch.get? stats.epoch with
          | some scores => { stats with score := scores.get? validator.voteAccount }
          | none => stats
        score := (scoresPerEpoch.get? latestEpochWithScore).bind fun latestScores =>
          latestScores.get? validator.voteAccount }

/-- `update_validators_with_avgs`. -/
def updateValidatorsWithAvgs (firstEpoch lastEpoch : Nat)
    (validators : Dict String ValidatorRecord) : Dict String ValidatorRecord :=
  validators.mapVal fun record =>
    let stats := record.epochStats.filter fun stats =>
      firstEpoch ≤ stats.epoch ∧ stats.epoch ≤ lastEpoch
    { record with
      avgApy := average (stats.filterMap ValidatorEpochStats.apy)
      avgUptimePct := average (stats.filterMap ValidatorEpochStats.uptimePct) }

/-- The scores and the averages; `get_last_epoch` is called once more. -/
def updateRecords (scoresPerEpoch : Dict Nat (Dict String Rat)) (db : Database)
    (records : Dict String ValidatorRecord) : Dict String ValidatorRecord :=
  let lastEpoch := (getLastEpoch db).getD 0
  updateValidatorsWithAvgs (lastEpoch - min defaultComputingEpochs lastEpoch + 1) lastEpoch
    (updateValidatorsWithScores scoresPerEpoch records)

/-- The incidents; `None` if a conversion fails. -/
def updateIncidents (scan : Scan) (db : Database) (records : Dict String ValidatorRecord) :
    Option (Dict String ValidatorRecord) :=
  (loadIncidents scan defaultIncidentsWindowEpochs db).map fun incidents =>
    -- a record is stored under its vote account
    records.mapVal fun record =>
      { record with incidents := (incidents.get? record.voteAccount).getD [] }

/-! ## Aggregates -/

structure ValidatorsAggregated where
  epoch : Nat
  epochStartDate : Option Timestamp
  avgMarinadeScore : Option Rat
  avgApy : Option Rat
  deriving DecidableEq, Repr

/-- The stats of all records. -/
def allEpochStats (validators : Dict String ValidatorRecord) : List ValidatorEpochStats :=
  validators.entries.flatMap fun e => e.2.epochStats

/-- `epochs_start_dates`: the date seen last. -/
def epochsStartDates (now : String → Nat → Timestamp) (validators : Dict String ValidatorRecord) :
    Dict Nat Timestamp :=
  Dict.ofList <| validators.entries.flatMap fun e => e.2.epochStats.map fun stats =>
    (stats.epoch, stats.epochStartAt.getD (now e.1 stats.epoch))

def epochAggregate (now : String → Nat → Timestamp) (validators : Dict String ValidatorRecord)
    (epoch : Nat) : ValidatorsAggregated :=
  let stats := (allEpochStats validators).filter fun stats => stats.epoch = epoch
  { epoch := epoch
    epochStartDate := (epochsStartDates now validators).get? epoch
    avgMarinadeScore := average (stats.filterMap ValidatorEpochStats.score)
    avgApy := average (stats.filterMap ValidatorEpochStats.apy) }

/-- `aggregate_validators`. -/
def aggregateValidators (now : String → Nat → Timestamp)
    (validators : Dict String ValidatorRecord) : List ValidatorsAggregated :=
  (((allEpochStats validators).map ValidatorEpochStats.epoch).dedup.map
    (epochAggregate now validators)).insertionSort fun a b => b.epoch ≤ a.epoch

/-! ## Stakes -/

/-- The column `marinade_stake` has the `u64`s of snapshots. -/
def StakesFit (table : List ValidatorsRow) : Prop :=
  ∀ row ∈ table, row.marinadeStake < 2 ^ 64

/-- A snapshot has `u64`s; the other commands write no stakes. -/
def CommandFits : Command → Prop
  | .storeValidators _ snapshot => ∀ v ∈ snapshot.validators, v.marinadeStake < 2 ^ 64
  | _ => True

section Stakes

variable {table : List ValidatorsRow}

theorem stakesFit_map {f : ValidatorsRow → ValidatorsRow}
    (hf : ∀ row ∈ table, (f row).marinadeStake < 2 ^ 64) : StakesFit (table.map f) := by
  intro row hrow
  obtain ⟨old, hold, rfl⟩ := List.mem_map.mp hrow
  exact hf old hold

theorem StakesFit.edit {α : Type} {epoch : Nat} {record : String → Option α}
    {edit : α → ValidatorsRow → ValidatorsRow} (h : StakesFit table) (chunk : List String)
    (hedit : ∀ row ∈ table, ∀ v, record row.voteAccount = some v →
      (edit v row).marinadeStake < 2 ^ 64) :
    StakesFit (table.map (editRow epoch record edit chunk)) := by
  refine stakesFit_map fun row hrow => ?_
  rcases editRow_cases chunk row with hsame | ⟨v, hget, -, -, hedited⟩
  · rw [hsame]
    exact h row hrow
  · rw [hedited]
    exact hedit row hrow v hget

/-- `store_validators` writes stakes of its snapshot. -/
theorem snapshotValidators_fit {scan : Scan} {snapshot : Snapshot}
    (hfits : CommandFits (.storeValidators scan snapshot)) {e : String × Validator}
    (he : e ∈ (snapshotValidators snapshot).entries) : e.2.marinadeStake < 2 ^ 64 := by
  obtain ⟨v, hv, rfl⟩ := mem_snapshotValidators he
  exact hfits v hv

theorem validatorsSteps_stakes {scan : Scan} {snapshot : Snapshot} {start : List ValidatorsRow}
    {step : Step} {db db' : Database} (hfits : CommandFits (.storeValidators scan snapshot))
    (hstep : step ∈ validatorsSteps scan snapshot start) (hkey : PrimaryKey db.validators)
    (hdb : StakesFit db.validators) (h : step.statement db = .ok db') :
    StakesFit db'.validators := by
  rcases mem_validatorsSteps hstep with ⟨chunk, hchunk, rfl⟩ | ⟨chunk, hchunk, rfl⟩
  · obtain ⟨validators, hrun, rfl⟩ := onValidators_eq_ok.mp h
    have hsize : chunk.length * validatorsUpdate.valueTypes.length ≤ maxParams :=
      (Nat.mul_le_mul_right _ (length_of_mem_chunks hchunk)).trans (by decide)
    obtain rfl := Except.ok.inj
      (((edits_update snapshot).executeUpdate_eq_ok hkey hsize).symm.trans hrun)
    exact hdb.edit chunk fun row _ v hget =>
      snapshotValidators_fit hfits (Dict.mem_of_get? hget)
  · obtain ⟨validators, hrun, rfl⟩ := onValidators_eq_ok.mp h
    obtain ⟨rfl, -⟩ := insertChunk_append (length_of_mem_chunks hchunk) hkey hrun
    intro row hrow
    rcases List.mem_append.mp hrow with hold | hnew
    · exact hdb row hold
    · obtain ⟨e, he, rfl⟩ := List.mem_map.mp hnew
      have hmem := mem_of_mem_chunks (by decide) hchunk (List.mem_filter.mp he).1
      exact snapshotValidators_fit hfits (mem_insertedValidators.mp hmem).1

theorem closeEpochSteps_stakes {scan : Scan} {snapshot : ValidatorsPerformanceSnapshot}
    {step : Step} {db db' : Database} (hstep : step ∈ closeEpochSteps scan snapshot)
    (hkey : PrimaryKey db.validators) (hdb : StakesFit db.validators)
    (h : step.statement db = .ok db') : StakesFit db'.validators := by
  rcases mem_closeEpochSteps hstep with
    ⟨clusterInflation, rfl⟩ | ⟨rewards, chunk, hchunk, rfl⟩ | rfl | rfl
  · obtain ⟨row, -, -, rfl⟩ := createEpochRecord_eq_ok.mp h
    exact hdb
  · obtain ⟨validators, hrun, rfl⟩ := onValidators_eq_ok.mp h
    obtain rfl := Except.ok.inj ((closeChunk_eq_ok hkey hchunk).symm.trans hrun)
    exact hdb.edit _ fun row hrow _ _ => hdb row hrow
  · rcases updateUptimes_eq_ok h with rfl | ⟨vars, -, rfl⟩
    · exact hdb
    · refine stakesFit_map fun row hrow => ?_
      obtain ⟨pct, uptime, downtime, heq⟩ := timedRow_eq vars db.uptimes row
      rw [heq]
      exact hdb row hrow
  · obtain rfl := Except.ok.inj h
    refine stakesFit_map fun row hrow => ?_
    unfold observedRow
    split
    · exact hdb row hrow
    · exact hdb row hrow

/-- **A statement of a command** keeps the column one of `u64`s. -/
theorem stakesFit_step {command : Command} {start db db' : Database} {step : Step}
    (hfits : CommandFits command) (hstep : step ∈ commandSteps command start)
    (hkey : PrimaryKey db.validators) (hdb : StakesFit db.validators)
    (h : step.statement db = .ok db') : StakesFit db'.validators := by
  cases command with
  | storeValidators scan snapshot => exact validatorsSteps_stakes hfits hstep hkey hdb h
  | storeCommissions scan snapshot =>
    obtain rfl := List.mem_singleton.mp hstep
    obtain ⟨commissions, -, rfl⟩ := map_eq_ok.mp h
    exact hdb
  | closeEpoch scan snapshot => exact closeEpochSteps_stakes hstep hkey hdb h
  | replaceOthers uptimes clusterInfo =>
    obtain rfl := List.mem_singleton.mp hstep
    obtain rfl := Except.ok.inj h
    exact hdb

end Stakes

/-! ## What a load returns -/

/-- A record of a vote account in a load that has read `lastEpoch` before the rows. -/
structure OfEpoch (lastEpoch : Nat) (voteAccount : String) (record : ValidatorRecord) :
    Prop where
  voteAccount : record.voteAccount = voteAccount
  flag : record.hasLastEpochStats = true ↔
    lastEpoch ∈ record.epochStats.map ValidatorEpochStats.epoch
  stakes : ∀ stats ∈ record.epochStats, stats.marinadeStake < 2 ^ 64

def RecordsOf (lastEpoch : Nat) (records : Dict String ValidatorRecord) : Prop :=
  ∀ e ∈ records.entries, OfEpoch lastEpoch e.1 e.2

section Load

variable {lastEpoch : Nat} {records : Dict String ValidatorRecord}

theorem ofEpoch_newRecord (lastEpoch : Nat) (row : ValidatorsRow) :
    OfEpoch lastEpoch row.voteAccount (newRecord row) where
  voteAccount := rfl
  flag := by simp [newRecord]
  stakes _ hstats := nomatch hstats

/-- A row of the last epoch sets the flag, and every row adds its stats. -/
theorem OfEpoch.addStats {voteAccount : String} {record : ValidatorRecord}
    (h : OfEpoch lastEpoch voteAccount record) {stats : ValidatorEpochStats}
    (hfit : stats.marinadeStake < 2 ^ 64) :
    OfEpoch lastEpoch voteAccount (record.addStats lastEpoch stats) where
  voteAccount := h.voteAccount
  flag := by
    unfold ValidatorRecord.addStats
    by_cases heq : lastEpoch = stats.epoch
    · simp [heq]
    · simpa [heq] using h.flag
  stakes s hs := by
    rcases List.mem_append.mp hs with hold | hnew
    · exact h.stakes s hold
    · obtain rfl := List.mem_singleton.mp hnew
      exact hfit

theorem RecordsOf.addRow {inputs : LoadInputs} {db : Database} (h : RecordsOf lastEpoch records)
    {row : ValidatorsRow} (hfit : row.marinadeStake < 2 ^ 64) :
    RecordsOf lastEpoch (addRow inputs db lastEpoch records row) := by
  rintro ⟨voteAccount, record⟩ he
  rcases Dict.mem_insert.mp he with ⟨rfl, rfl⟩ | ⟨-, hold⟩
  · refine OfEpoch.addStats ?_ hfit
    cases hget : records.get? row.voteAccount with
    | none => exact ofEpoch_newRecord lastEpoch row
    | some old => exact h _ (Dict.mem_of_get? hget)
  · exact h _ hold

theorem mem_of_mem_validatorsRows {scan : Scan} {displayEpochs : Nat} {db : Database}
    {row : ValidatorsRow} (h : row ∈ validatorsRows scan displayEpochs db) :
    row ∈ db.validators := by
  unfold validatorsRows at h
  split at h
  · have hmem := List.mem_filter.mp ((List.mem_insertionSort _).mp h)
    exact scan.mem_order.mp hmem.1
  · cases h

/-- **The records of a load** have the flag if they have stats for the last epoch. -/
theorem recordsOf_aggregateRecords {db : Database} (hfit : StakesFit db.validators)
    (inputs : LoadInputs) (lastEpoch : Nat) :
    RecordsOf lastEpoch (aggregateRecords inputs db lastEpoch) := by
  unfold aggregateRecords
  refine List.foldlRecOn (motive := RecordsOf lastEpoch) _ _ (fun _ he => nomatch he) ?_
  intro records hrecords row hrow
  exact hrecords.addRow (hfit row (mem_of_mem_validatorsRows hrow))

/-- An update of records that keeps their epochs. -/
theorem RecordsOf.mapVal (h : RecordsOf lastEpoch records)
    {update : ValidatorRecord → ValidatorRecord}
    (hvote : ∀ record, (update record).voteAccount = record.voteAccount)
    (hflag : ∀ record, (update record).hasLastEpochStats = record.hasLastEpochStats)
    (hstats : ∀ record, (update record).epochStats.map (fun s => (s.epoch, s.marinadeStake)) =
      record.epochStats.map fun s => (s.epoch, s.marinadeStake)) :
    RecordsOf lastEpoch (records.mapVal update) := by
  intro e he
  obtain ⟨⟨voteAccount, record⟩, hold, rfl⟩ := List.mem_map.mp he
  obtain ⟨hkey, hiff, hfit⟩ := h _ hold
  have hepochs : (update record).epochStats.map ValidatorEpochStats.epoch =
      record.epochStats.map ValidatorEpochStats.epoch := by
    simpa [List.map_map, Function.comp_def] using congrArg (List.map Prod.fst) (hstats record)
  refine ⟨(hvote record).trans hkey, ?_, fun s hs => ?_⟩
  · rw [hflag, hepochs]
    exact hiff
  · -- the stats have the stakes of stats that were there
    have hmem : (s.epoch, s.marinadeStake) ∈
        record.epochStats.map fun s => (s.epoch, s.marinadeStake) := by
      rw [← hstats record]
      exact List.mem_map_of_mem hs
    obtain ⟨s', hs', heq⟩ := List.mem_map.mp hmem
    rw [← (Prod.mk.inj heq).2]
    exact hfit s' hs'

theorem RecordsOf.updateRecords (h : RecordsOf lastEpoch records)
    (scoresPerEpoch : Dict Nat (Dict String Rat)) (db : Database) :
    RecordsOf lastEpoch (updateRecords scoresPerEpoch db records) := by
  have hscores : RecordsOf lastEpoch (updateValidatorsWithScores scoresPerEpoch records) := by
    unfold updateValidatorsWithScores
    split
    · exact h
    · refine h.mapVal (fun _ => rfl) (fun _ => rfl) fun record => ?_
      rw [List.map_map]
      refine List.map_congr_left fun s _ => ?_
      rw [Function.comp_apply]
      split <;> rfl
  exact hscores.mapVal (fun _ => rfl) (fun _ => rfl) fun _ => rfl

theorem RecordsOf.updateIncidents (h : RecordsOf lastEpoch records) {scan : Scan}
    {db : Database} {records' : Dict String ValidatorRecord}
    (hupdate : updateIncidents scan db records = some records') :
    RecordsOf lastEpoch records' := by
  obtain ⟨incidents, -, rfl⟩ := Option.map_eq_some_iff.mp hupdate
  exact h.mapVal (fun _ => rfl) (fun _ => rfl) fun _ => rfl

end Load

/-! ## The epochs of the aggregates -/

section Aggregates

variable {now : String → Nat → Timestamp} {validators : Dict String ValidatorRecord}

theorem mem_allEpochStats {stats : ValidatorEpochStats} :
    stats ∈ allEpochStats validators ↔ ∃ e ∈ validators.entries, stats ∈ e.2.epochStats :=
  List.mem_flatMap

/-- **The aggregates** are those of the epochs of the records, the latest first. -/
theorem epochs_aggregateValidators :
    (aggregateValidators now validators).map ValidatorsAggregated.epoch =
      ((allEpochStats validators).map ValidatorEpochStats.epoch).dedup.insertionSort (· ≥ ·) := by
  unfold aggregateValidators
  rw [List.map_insertionSort _ (· ≥ ·) ValidatorsAggregated.epoch _ fun _ _ _ _ => Iff.rfl,
    List.map_map]
  congr 1
  exact List.map_id _

theorem mem_aggregateValidators {epoch : Nat} :
    epoch ∈ (aggregateValidators now validators).map ValidatorsAggregated.epoch ↔
      ∃ stats ∈ allEpochStats validators, stats.epoch = epoch := by
  rw [epochs_aggregateValidators, List.mem_insertionSort, List.mem_dedup, List.mem_map]

theorem pairwise_aggregateValidators :
    ((aggregateValidators now validators).map ValidatorsAggregated.epoch).Pairwise (· > ·) := by
  rw [epochs_aggregateValidators]
  have hnodup : (((allEpochStats validators).map ValidatorEpochStats.epoch).dedup.insertionSort
      (· ≥ ·)).Nodup := (List.perm_insertionSort _ _).nodup_iff.mpr (List.nodup_dedup _)
  exact ((List.pairwise_insertionSort _ _).and hnodup).imp fun ⟨hge, hne⟩ =>
    lt_of_le_of_ne hge hne.symm

end Aggregates

end DelegationStrategy.Store
