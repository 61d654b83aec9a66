import DelegationStrategy.Lib.Entries
import DelegationStrategy.Store.ClusterStats
import DelegationStrategy.Store.UnstakeHints
import DelegationStrategy.Store.ValidatorRanks
import DelegationStrategy.Store.ValidatorsQuery

/-!
# `load_validators`

The loop of `load_validators` (`store/src/utils.rs`) over the rows of its query, and the
updates after it, with all fields of the records. `ValidatorRecords` has the same loop for
the fields that the API's filters and aggregates read (`mapVal_loadRows`).

The record of a vote account is made of its first row, and every row adds its stats. As
the rows come in descending order of their epochs, the first row is the newest one
(`madeOf_loadRows`). The updates add to a record, and change none of the fields that come from
the rows (`loads_updateLoadedRecords`).

- `loadValidators_spec`: when `load_validators` succeeds, each validator with a row in the
  displayed epochs has one record, with one entry for each of these rows.
-/

namespace DelegationStrategy.Store

open DelegationStrategy.Lib DelegationStrategy.Collect

/-! ## Records -/

/-- The fields of an entry of `epoch_stats` that come from the row of `validators`. -/
structure RowStats where
  epoch : Nat
  commissionMaxObserved : Option UInt8
  commissionMinObserved : Option UInt8
  commissionAdvertised : Option UInt8
  commissionEffective : Option UInt8
  version : Option String
  dcAsn : Option Int
  dcAso : Option String
  dcCity : Option String
  dcCountry : Option String
  activatedStake : Nat
  marinadeStake : Nat
  foundationStake : Nat
  marinadeNativeStake : Nat
  institutionalStake : Nat
  selfStake : Nat
  superminority : Bool
  stakeToBecomeSuperminority : Nat
  credits : Nat
  leaderSlots : Nat
  blocksProduced : Nat
  skipRate : Rat
  uptimePct : Option Rat
  uptime : Option Nat
  downtime : Option Nat
  deriving DecidableEq, Repr

/-- The fields of an entry of `epoch_stats` that come from a row of the query. -/
structure QueryStats extends RowStats where
  epochStartAt : Option Timestamp
  epochEndAt : Option Timestamp
  mevCommissionBps : Option Int
  priorityCommissionBps : Option Int
  deriving DecidableEq, Repr

/-- `ValidatorEpochStats`, with all fields. -/
structure LoadedEpochStats extends QueryStats where
  apr : Option Rat
  apy : Option Rat
  score : Option Rat := none
  rankScore : Option Nat := none
  rankActivatedStake : Option Nat := none
  rankApy : Option Nat := none
  deriving DecidableEq, Repr

/-- The fields of a record that come from one row of `validators`, and from the
concentrations of stake where the row is; an inner `none` is a quotient that is not a
number. -/
structure RecordColumns where
  identity : String
  infoName : Option String
  infoUrl : Option String
  infoKeybase : Option String
  infoIconUrl : Option String
  nodeIp : Option String
  dcCoordinatesLat : Option Rat
  dcCoordinatesLon : Option Rat
  dcContinent : Option String
  dcCountryIso : Option String
  dcCountry : Option String
  dcCity : Option String
  dcFullCity : Option String
  dcAsn : Option Int
  dcAso : Option String
  dccFullCity : Option (Option Rat)
  dccAsn : Option (Option Rat)
  dccAso : Option (Option Rat)
  dccCountry : Option (Option Rat)
  commissionMaxObserved : Option Int
  commissionMinObserved : Option Int
  commissionAdvertised : Option Int
  commissionEffective : Option Int
  version : Option String
  activatedStake : Nat
  marinadeStake : Nat
  foundationStake : Nat
  marinadeNativeStake : Nat
  institutionalStake : Nat
  selfStake : Nat
  superminority : Bool
  credits : Nat
  deriving DecidableEq, Repr

structure RugInfo where
  epoch : Nat
  after : Nat
  before : Nat
  deriving DecidableEq, Repr

inductive ValidatorWarning where
  | highCommission
  | superminority
  | lowUptime
  deriving DecidableEq, Repr

/-- `ValidatorRecord`, with all fields. -/
structure LoadedRecord extends RecordColumns where
  voteAccount : String
  startEpoch : Nat
  startDate : Option Timestamp
  epochsCount : Nat
  commissionAggregated : Option Int := none
  ruggedCommissionOccurrences : Nat := 0
  ruggedCommission : Bool := false
  ruggedCommissionInfo : List RugInfo := []
  score : Option Rat := none
  warnings : List ValidatorWarning := []
  epochStats : List LoadedEpochStats := []
  hasLastEpochStats : Bool := false
  avgUptimePct : Option Rat := none
  avgApy : Option Rat := none
  uniqueDelegators : Option Nat := none
  avgTakeRate : Option Rat := none
  incidents : List IncidentRecord := []
  deriving DecidableEq, Repr

/-! ## The loop over the rows -/

/-- What `load_validators` does not read from the database. -/
structure LoadSources where
  scan : Scan
  /-- `Utc::now()` in `load_ruggers`. -/
  now : Timestamp
  /-- `Utc::now()` at the row of a validator in an epoch. -/
  nowAt : String → Nat → Timestamp
  /-- `get_apy_calculators`: `estimate_yields` computes powers in floating point. -/
  apyCalculators : Option (Nat → Option (Nat → UInt8 → Rat × Rat))
  /-- `load_scores_in_epochs` for a range of epochs. -/
  loadScoresInEpochs : Nat → Nat → Option (Dict Nat (Dict String Rat))
  uniqueDelegators : Dict String Nat
  takeRates : Dict String Rat

/-- The conversions of a row; `none` is a panic. -/
def rowStats (row : ValidatorsRow) : Option RowStats := do
  let commissionMaxObserved ← row.commissionMaxObserved.mapM tryIntoU8
  let commissionMinObserved ← row.commissionMinObserved.mapM tryIntoU8
  let commissionAdvertised ← row.commissionAdvertised.mapM tryIntoU8
  let commissionEffective ← row.commissionEffective.mapM tryIntoU8
  let epoch ← decimalToU64 row.epoch
  let credits ← decimalToU64 row.credits
  let leaderSlots ← decimalToU64 row.leaderSlots
  let blocksProduced ← decimalToU64 row.blocksProduced
  let uptime ← row.uptime.mapM decimalToU64
  let downtime ← row.downtime.mapM decimalToU64
  some {
    epoch := epoch
    commissionMaxObserved := commissionMaxObserved
    commissionMinObserved := commissionMinObserved
    commissionAdvertised := commissionAdvertised
    commissionEffective := commissionEffective
    version := row.version
    dcAsn := row.dcAsn
    dcAso := row.dcAso
    dcCity := row.dcCity
    dcCountry := row.dcCountry
    activatedStake := row.activatedStake
    marinadeStake := row.marinadeStake
    foundationStake := row.foundationStake
    marinadeNativeStake := row.marinadeNativeStake
    institutionalStake := row.institutionalStake
    selfStake := row.selfStake
    superminority := row.superminority
    stakeToBecomeSuperminority := row.stakeToBecomeSuperminority
    credits := credits
    leaderSlots := leaderSlots
    blocksProduced := blocksProduced
    skipRate := row.skipRate
    uptimePct := row.uptimePct
    uptime := uptime
    downtime := downtime }

/-- `apr` and `apy`. -/
def estimatedYields (apyCalculators : Nat → Option (Nat → UInt8 → Rat × Rat))
    (row : ValidatorsRow) : Option (Option Rat × Option Rat) :=
  match apyCalculators row.epoch with
  | some estimateYields => do
    let credits ← decimalToU64 row.credits
    let commission ← row.commissionEffective.mapM tryIntoU8
    let (apr, apy) := estimateYields credits (commission.getD 100)
    some (some apr, some apy)
  | none => some (none, none)

/-- The entry of a row. -/
def loadedEpochStats (nowAt : String → Nat → Timestamp)
    (apyCalculators : Nat → Option (Nat → UInt8 → Rat × Rat)) (row : LoadedRow) :
    Option LoadedEpochStats := do
  let stats ← rowStats row.validator
  let (apr, apy) ← estimatedYields apyCalculators row.validator
  some {
    toRowStats := stats
    epochStartAt := some <|
      row.epochStart.getD (nowAt row.validator.voteAccount row.validator.epoch)
    epochEndAt := row.epochEnd
    mevCommissionBps := row.mevCommissionBps
    priorityCommissionBps := row.priorityCommissionBps
    apr := apr
    apy := apy }

/-- `CONCAT(dc_continent, '/', dc_country, '/', dc_city)`, which ignores `NULL`. -/
def fullCity (row : ValidatorsRow) : Option String :=
  some (row.dcContinent.getD "" ++ "/" ++ row.dcCountry.getD "" ++ "/" ++ row.dcCity.getD "")

/-- The fields that the record takes from the row. -/
def recordColumns (concentrations : Option DCConcentrationStats) (row : ValidatorsRow) :
    Option RecordColumns := do
  let credits ← decimalToU64 row.credits
  some {
    identity := row.identity
    infoName := row.infoName
    infoUrl := row.infoUrl
    infoKeybase := row.infoKeybase
    infoIconUrl := row.infoIconUrl
    nodeIp := row.nodeIp
    dcCoordinatesLat := row.dcCoordinatesLat
    dcCoordinatesLon := row.dcCoordinatesLon
    dcContinent := row.dcContinent
    dcCountryIso := row.dcCountryIso
    dcCountry := row.dcCountry
    dcCity := row.dcCity
    dcFullCity := fullCity row
    dcAsn := row.dcAsn
    dcAso := row.dcAso
    dccFullCity := concentrations.bind fun c =>
      c.dcConcentrationByCity.get? ((fullCity row).getD "Unknown")
    dccAsn := concentrations.bind fun c =>
      c.dcConcentrationByAsn.get? (row.dcAsn.elim "Unknown" toString)
    dccAso := concentrations.bind fun c =>
      c.dcConcentrationByAso.get? (row.dcAso.getD "Unknown")
    dccCountry := concentrations.bind fun c =>
      c.dcConcentrationByCountry.get? (row.dcCountry.getD "Unknown")
    commissionMaxObserved := row.commissionMaxObserved
    commissionMinObserved := row.commissionMinObserved
    commissionAdvertised := row.commissionAdvertised
    commissionEffective := row.commissionEffective
    version := row.version
    activatedStake := row.activatedStake
    marinadeStake := row.marinadeStake
    foundationStake := row.foundationStake
    marinadeNativeStake := row.marinadeNativeStake
    institutionalStake := row.institutionalStake
    selfStake := row.selfStake
    superminority := row.superminority
    credits := credits }

/-- The record of a vote account that has none yet. -/
def newLoadedRecord (concentrations : Option DCConcentrationStats) (row : LoadedRow)
    (startingEpoch firstEpoch : Nat) : Option LoadedRecord := do
  let columns ← recordColumns concentrations row.validator
  some {
    toRecordColumns := columns
    voteAccount := row.validator.voteAccount
    startEpoch := startingEpoch
    startDate := row.startingEpochDate
    epochsCount := row.validator.epoch - firstEpoch + 1 }

/-- The infos of a rugger, by the index of the epoch; `none` is an index out of bounds. -/
def rugInfos (rugger : RuggerRecord) : Option (List RugInfo) :=
  rugger.epochs.zipIdx.mapM fun (epoch, index) => do
    let after ← rugger.observedCommissions[index]?
    let before ← rugger.minCommissions[index]?
    some ⟨epoch, after, before⟩

/-- The record with the commissions that were rugged, if there are any. -/
def LoadedRecord.withRugger (record : LoadedRecord) : Option RuggerRecord → Option LoadedRecord
  | some rugger => do
    let infos ← rugInfos rugger
    some { record with
      ruggedCommission := true
      ruggedCommissionOccurrences := rugger.occurrences
      ruggedCommissionInfo := infos }
  | none => some record

/-- What a row adds to the record. -/
def LoadedRecord.addStats (lastEpoch : Nat) (stats : LoadedEpochStats) (record : LoadedRecord) :
    LoadedRecord :=
  { record with
    hasLastEpochStats := if lastEpoch = stats.epoch then true else record.hasLastEpochStats
    epochStats := record.epochStats ++ [stats] }

/-- What the loop has read before. -/
structure LoopInputs where
  nowAt : String → Nat → Timestamp
  lastEpoch : Nat
  ruggers : Dict String RuggerRecord
  apyCalculators : Nat → Option (Nat → UInt8 → Rat × Rat)
  concentrations : Option DCConcentrationStats

/-- `entry(vote_account).or_insert_with(…)`. -/
def orNewRecord (inputs : LoopInputs) (row : LoadedRow) (startingEpoch firstEpoch : Nat) :
    Option LoadedRecord → Option LoadedRecord
  | some record => some record
  | none => newLoadedRecord inputs.concentrations row startingEpoch firstEpoch

/-- The body of the loop for the entry of the vote account of a row. -/
def loadRow (inputs : LoopInputs) (record : Option LoadedRecord) (row : LoadedRow) :
    Option LoadedRecord := do
  let firstEpoch ← row.firstEpoch.bind fun firstEpoch => decimalToU64 firstEpoch
  let startingEpoch ← decimalToU64 row.startingEpoch
  let stats ← loadedEpochStats inputs.nowAt inputs.apyCalculators row
  let record ← orNewRecord inputs row startingEpoch firstEpoch record
  let record ← record.withRugger (inputs.ruggers.get? row.validator.voteAccount)
  some (record.addStats inputs.lastEpoch stats)

/-- The loop. -/
def loadRows (inputs : LoopInputs) (rows : List LoadedRow) : Option (Dict String LoadedRecord) :=
  rows.foldlM (stepEntry (fun row => row.validator.voteAccount) (loadRow inputs)) Dict.empty

/-! ## The updates -/

/-- `update_validators_with_scores`, with what `load_scores_in_epochs` returned. -/
def withScores (scoresPerEpoch : Dict Nat (Dict String Rat)) (records : Dict String LoadedRecord) :
    Dict String LoadedRecord :=
  match scoresPerEpoch.keys.max? with
  | none => records
  | some latestEpochWithScore =>
    records.mapVal fun record =>
      { record with
        epochStats := record.epochStats.map fun stats =>
          match scoresPerEpoch.get? stats.epoch with
          | some scores => { stats with score := scores.get? record.voteAccount }
          | none => stats
        score := (scoresPerEpoch.get? latestEpochWithScore).bind fun latestScores =>
          latestScores.get? record.voteAccount }

/-- The entries of the epochs from `first_epoch` to `last_epoch`. -/
def LoadedRecord.statsInRange (firstEpoch lastEpoch : Nat) (record : LoadedRecord) :
    List LoadedEpochStats :=
  record.epochStats.filter fun stats => firstEpoch ≤ stats.epoch ∧ stats.epoch ≤ lastEpoch

/-- `update_validators_with_avgs`. -/
def withAvgs (firstEpoch lastEpoch : Nat) (records : Dict String LoadedRecord) :
    Dict String LoadedRecord :=
  records.mapVal fun record =>
    let stats := record.statsInRange firstEpoch lastEpoch
    { record with
      avgApy := average (stats.filterMap LoadedEpochStats.apy)
      avgUptimePct := average (stats.filterMap fun stats => stats.uptimePct) }

/-- `rank_updater`. -/
def RankField.set : RankField → LoadedEpochStats → Nat → LoadedEpochStats
  | .activatedStake, a, rank => { a with rankActivatedStake := some rank }
  | .score, a, rank => { a with rankScore := some rank }
  | .apy, a, rank => { a with rankApy := some rank }

/-- `stats_by_epoch`. -/
def loadedByEpoch (fieldExtractor : LoadedEpochStats → Nat) (records : Dict String LoadedRecord) :
    Dict Nat (List (String × Nat)) :=
  Dict.groups <| records.entries.flatMap fun (voteAccount, record) =>
    record.epochStats.map fun stats => (stats.epoch, (voteAccount, fieldExtractor stats))

/-- A rank is written to the stats of a vote account and an epoch; both are unwrapped. -/
def setLoadedRank (field : RankField) (epoch : Nat) (records : Dict String LoadedRecord)
    (ranked : (String × Nat) × Nat) : Option (Dict String LoadedRecord) := do
  let ((voteAccount, _), rank) := ranked
  let record ← records.get? voteAccount
  let epochStats ← updateFirst (fun a => a.epoch = epoch) (fun a => field.set a rank)
    record.epochStats
  some (records.replace voteAccount { record with epochStats := epochStats })

/-- The ranks of an epoch. -/
def rankLoadedEpoch (field : RankField) (records : Dict String LoadedRecord)
    (group : Nat × List (String × Nat)) : Option (Dict String LoadedRecord) :=
  let (epoch, stats) := group
  let stats := stats.insertionSort fun a b => a.2 ≤ b.2
  (rankFrom Prod.snd stats.length 0 none 0 stats).foldlM (setLoadedRank field epoch) records

/-- `update_validators_ranks`. -/
def withLoadedRanks (scan : Scan) (fieldExtractor : LoadedEpochStats → Nat) (field : RankField)
    (records : Dict String LoadedRecord) : Option (Dict String LoadedRecord) :=
  (scan.order (loadedByEpoch fieldExtractor records).entries).foldlM (rankLoadedEpoch field)
    records

/-- `update_with_warnings`. -/
def withWarnings (firstEpoch lastEpoch : Nat) (records : Dict String LoadedRecord) :
    Dict String LoadedRecord :=
  records.mapVal fun record =>
    let maxEffectiveCommission := (record.statsInRange firstEpoch lastEpoch).foldl
      (fun maxCommission stats => max (stats.commissionEffective.getD 0) maxCommission)
      (0 : UInt8)
    { record with
      warnings := record.warnings ++
        (if record.superminority then [.superminority] else []) ++
        (if record.avgUptimePct.getD 0 < 9 / 10 then [.lowUptime] else []) ++
        (if 10 < maxEffectiveCommission then [.highCommission] else []) }

def withUniqueDelegators (uniqueDelegators : Dict String Nat) (records : Dict String LoadedRecord) :
    Dict String LoadedRecord :=
  records.mapKeyed fun voteAccount record =>
    { record with uniqueDelegators := uniqueDelegators.get? voteAccount }

def withIncidents (incidents : Dict String (List IncidentRecord))
    (records : Dict String LoadedRecord) : Dict String LoadedRecord :=
  records.mapKeyed fun voteAccount record =>
    { record with incidents := (incidents.get? voteAccount).getD [] }

def withTakeRates (takeRates : Dict String Rat) (records : Dict String LoadedRecord) :
    Dict String LoadedRecord :=
  records.mapKeyed fun voteAccount record =>
    { record with avgTakeRate := takeRates.get? voteAccount }

/-! ## The program -/

/-- What the loop reads before the rows; `none` if a query or a conversion fails. -/
def loopInputs (sources : LoadSources) (db : LoadDatabase) (lastEpoch : Nat) :
    Option LoopInputs := do
  let ruggers ← loadRuggers sources.scan sources.now db.validators
  let apyCalculators ← sources.apyCalculators
  let concentrations ← loadDcConcentrationStats sources.scan 1 db.toDatabase
  some {
    nowAt := sources.nowAt
    lastEpoch := lastEpoch
    ruggers := ruggers
    apyCalculators := apyCalculators
    concentrations := concentrations.head? }

/-- Scores, averages, ranks, warnings and what comes from elsewhere. -/
def updateLoadedRecords (sources : LoadSources) (displayEpochs computingEpochs : Nat)
    (db : LoadDatabase) (records : Dict String LoadedRecord) :
    Option (Dict String LoadedRecord) := do
  let lastEpoch := (getLastEpoch db.toDatabase).getD 0
  let scores ← sources.loadScoresInEpochs (firstEpoch lastEpoch displayEpochs) lastEpoch
  let first := firstEpoch lastEpoch computingEpochs
  let records := withAvgs first lastEpoch (withScores scores records)
  let records ← withLoadedRanks sources.scan (fun a => a.activatedStake) .activatedStake records
  let records ← withLoadedRanks sources.scan (fun a => toFixedForSort (a.score.getD 0)) .score
    records
  let records ← withLoadedRanks sources.scan (fun a => toFixedForSort (a.apy.getD 0)) .apy records
  let records := withUniqueDelegators sources.uniqueDelegators
    (withWarnings first lastEpoch records)
  let incidents ← loadIncidents sources.scan defaultIncidentsWindowEpochs db.toDatabase
  some (withTakeRates sources.takeRates (withIncidents incidents records))

/-- `load_validators`; `none` if it does not return `Ok`. -/
def loadValidators (sources : LoadSources) (displayEpochs computingEpochs : Nat)
    (db : LoadDatabase) : Option (Dict String LoadedRecord) :=
  match getLastEpoch db.toDatabase with
  | none => some Dict.empty
  | some lastEpoch => do
    let inputs ← loopInputs sources db lastEpoch
    let records ← loadRows inputs (validatorsQuery sources.scan displayEpochs db)
    updateLoadedRecords sources displayEpochs computingEpochs db records

/-! ## What comes from the rows -/

/-- The fields that come from the rows of the query. -/
def LoadedRecord.loaded (record : LoadedRecord) :
    String × RecordColumns × Bool × List QueryStats :=
  (record.voteAccount, record.toRecordColumns, record.hasLastEpochStats,
    record.epochStats.map LoadedEpochStats.toQueryStats)

/-- The same for all records. -/
def loads (records : Dict String LoadedRecord) :
    List (String × String × RecordColumns × Bool × List QueryStats) :=
  records.entries.map fun e => (e.1, e.2.loaded)

section Updates

variable {records records' : Dict String LoadedRecord}

theorem loads_mapKeyed {f : String → LoadedRecord → LoadedRecord}
    (h : ∀ e ∈ records.entries, (f e.1 e.2).loaded = e.2.loaded) :
    loads (records.mapKeyed f) = loads records := by
  unfold loads Dict.mapKeyed
  rw [List.map_map]
  refine List.map_congr_left fun e he => ?_
  show (e.1, (f e.1 e.2).loaded) = _
  rw [h e he]

theorem loads_mapVal {f : LoadedRecord → LoadedRecord}
    (h : ∀ record, (f record).loaded = record.loaded) :
    loads (records.mapVal f) = loads records :=
  loads_mapKeyed (f := fun _ => f) fun e _ => h e.2

theorem loads_withScores (scoresPerEpoch : Dict Nat (Dict String Rat)) :
    loads (withScores scoresPerEpoch records) = loads records := by
  unfold withScores
  split
  · rfl
  · refine loads_mapVal fun record => ?_
    simp only [LoadedRecord.loaded, List.map_map, Prod.mk.injEq, true_and]
    refine List.map_congr_left fun stats _ => ?_
    rw [Function.comp_apply]
    split <;> rfl

theorem RankField.toQueryStats_set (field : RankField) (a : LoadedEpochStats) (rank : Nat) :
    (field.set a rank).toQueryStats = a.toQueryStats := by
  cases field <;> rfl

/-- A rank is no field that comes from a row. -/
theorem loads_setLoadedRank {field : RankField} {epoch : Nat} {ranked : (String × Nat) × Nat}
    (h : setLoadedRank field epoch records ranked = some records') :
    loads records' = loads records := by
  obtain ⟨⟨voteAccount, value⟩, rank⟩ := ranked
  obtain ⟨record, hrecord, h⟩ := Option.bind_eq_some_iff.mp h
  obtain ⟨epochStats, hstats, h⟩ := Option.bind_eq_some_iff.mp h
  obtain rfl := Option.some.inj h
  refine loads_mapKeyed fun e he => ?_
  split
  · rename_i hkey
    obtain rfl : e = (voteAccount, record) := Dict.eq_of_mem he (Dict.mem_of_get? hrecord) hkey
    have hview : ∀ a, (field.set a rank).toQueryStats = a.toQueryStats :=
      fun a => field.toQueryStats_set a rank
    simp [LoadedRecord.loaded, map_of_updateFirst hview hstats]
  · rfl

theorem loads_withLoadedRanks {scan : Scan} {fieldExtractor : LoadedEpochStats → Nat}
    {field : RankField} (h : withLoadedRanks scan fieldExtractor field records = some records') :
    loads records' = loads records := by
  refine foldlM_keeps (fun _ _ _ hepoch => ?_) h
  exact foldlM_keeps (fun _ _ _ hrank => loads_setLoadedRank hrank) hepoch

/-- **The updates** keep all that comes from the rows. -/
theorem loads_updateLoadedRecords {sources : LoadSources} {displayEpochs computingEpochs : Nat}
    {db : LoadDatabase}
    (h : updateLoadedRecords sources displayEpochs computingEpochs db records = some records') :
    loads records' = loads records := by
  obtain ⟨scores, -, h⟩ := Option.bind_eq_some_iff.mp h
  obtain ⟨stakeRanks, hstake, h⟩ := Option.bind_eq_some_iff.mp h
  obtain ⟨scoreRanks, hscore, h⟩ := Option.bind_eq_some_iff.mp h
  obtain ⟨apyRanks, hapy, h⟩ := Option.bind_eq_some_iff.mp h
  obtain ⟨incidents, -, h⟩ := Option.bind_eq_some_iff.mp h
  obtain rfl := Option.some.inj h
  calc loads (withTakeRates _ (withIncidents _
        (withUniqueDelegators _ (withWarnings _ _ apyRanks))))
      = loads (withIncidents _ (withUniqueDelegators _ (withWarnings _ _ apyRanks))) :=
        loads_mapKeyed fun _ _ => rfl
    _ = loads (withUniqueDelegators _ (withWarnings _ _ apyRanks)) := loads_mapKeyed fun _ _ => rfl
    _ = loads (withWarnings _ _ apyRanks) := loads_mapKeyed fun _ _ => rfl
    _ = loads apyRanks := loads_mapVal fun _ => rfl
    _ = loads scoreRanks := loads_withLoadedRanks hapy
    _ = loads stakeRanks := loads_withLoadedRanks hscore
    _ = loads (withAvgs _ _ (withScores scores records)) := loads_withLoadedRanks hstake
    _ = loads (withScores scores records) := loads_mapVal fun _ => rfl
    _ = loads records := loads_withScores scores

end Updates

/-! ## What the loop makes of the rows -/

/-- The entry that a row adds. -/
structure StatsOf (row : LoadedRow) (stats : QueryStats) : Prop where
  fields : rowStats row.validator = some stats.toRowStats
  mev : stats.mevCommissionBps = row.mevCommissionBps
  priorityFee : stats.priorityCommissionBps = row.priorityCommissionBps

/-- A record made of the rows of its vote account: the first row gives it its fields, every
row an entry, and a row of the last epoch the flag. -/
structure MadeOf (inputs : LoopInputs) (rows : List LoadedRow) (record : LoadedRecord) :
    Prop where
  first : ∃ row rest, rows = row :: rest ∧ record.voteAccount = row.validator.voteAccount ∧
    recordColumns inputs.concentrations row.validator = some record.toRecordColumns
  entries : List.Forall₂ StatsOf rows (record.epochStats.map LoadedEpochStats.toQueryStats)
  flag : record.hasLastEpochStats = true ↔
    ∃ row ∈ rows, row.validator.epoch = inputs.lastEpoch

section Loop

variable {inputs : LoopInputs} {rows : List LoadedRow} {row : LoadedRow}
variable {record record' : LoadedRecord}

/-- The numbers that a conversion can only keep, and the columns that are not converted. -/
theorem columns_of_rowStats {row : ValidatorsRow} {stats : RowStats}
    (h : rowStats row = some stats) :
    stats.epoch = row.epoch ∧ stats.credits = row.credits ∧
      stats.activatedStake = row.activatedStake ∧ stats.marinadeStake = row.marinadeStake ∧
      stats.uptimePct = row.uptimePct := by
  -- the four commissions, before the numbers of the row
  obtain ⟨_, -, h⟩ := Option.bind_eq_some_iff.mp h
  obtain ⟨_, -, h⟩ := Option.bind_eq_some_iff.mp h
  obtain ⟨_, -, h⟩ := Option.bind_eq_some_iff.mp h
  obtain ⟨_, -, h⟩ := Option.bind_eq_some_iff.mp h
  obtain ⟨epoch, hepoch, h⟩ := Option.bind_eq_some_iff.mp h
  obtain ⟨credits, hcredits, h⟩ := Option.bind_eq_some_iff.mp h
  -- slots, blocks, uptime and downtime
  obtain ⟨_, -, h⟩ := Option.bind_eq_some_iff.mp h
  obtain ⟨_, -, h⟩ := Option.bind_eq_some_iff.mp h
  obtain ⟨_, -, h⟩ := Option.bind_eq_some_iff.mp h
  obtain ⟨_, -, h⟩ := Option.bind_eq_some_iff.mp h
  obtain rfl := Option.some.inj h
  exact ⟨(decimalToU64_eq_some_iff.mp hepoch).2, (decimalToU64_eq_some_iff.mp hcredits).2,
    rfl, rfl, rfl⟩

theorem statsOf_loadedEpochStats {nowAt : String → Nat → Timestamp}
    {apyCalculators : Nat → Option (Nat → UInt8 → Rat × Rat)} {stats : LoadedEpochStats}
    (h : loadedEpochStats nowAt apyCalculators row = some stats) :
    StatsOf row stats.toQueryStats := by
  obtain ⟨fields, hfields, h⟩ := Option.bind_eq_some_iff.mp h
  obtain ⟨⟨apr, apy⟩, -, h⟩ := Option.bind_eq_some_iff.mp h
  obtain rfl := Option.some.inj h
  exact ⟨hfields, rfl, rfl⟩

/-- A rugger sets the fields about rugs and no others. -/
theorem withRugger_cases {record record' : LoadedRecord} {rugger : Option RuggerRecord}
    (h : record.withRugger rugger = some record') :
    ∃ rugged occurrences infos, record' =
      { record with
        ruggedCommission := rugged
        ruggedCommissionOccurrences := occurrences
        ruggedCommissionInfo := infos } := by
  cases rugger with
  | none =>
    obtain rfl := Option.some.inj h
    exact ⟨_, _, _, rfl⟩
  | some rugger =>
    obtain ⟨infos, -, h⟩ := Option.bind_eq_some_iff.mp h
    obtain rfl := Option.some.inj h
    exact ⟨_, _, _, rfl⟩

/-- They do not come from the rows. -/
theorem loaded_withRugger {rugger : Option RuggerRecord}
    (h : record.withRugger rugger = some record') : record'.loaded = record.loaded := by
  obtain ⟨_, _, _, rfl⟩ := withRugger_cases h
  rfl

/-- Records with the same fields from the rows are made of the same rows. -/
theorem MadeOf.congr (h : MadeOf inputs rows record) (hloaded : record'.loaded = record.loaded) :
    MadeOf inputs rows record' := by
  simp only [LoadedRecord.loaded, Prod.mk.injEq] at hloaded
  obtain ⟨hvote, hcolumns, hflag, hstats⟩ := hloaded
  refine ⟨?_, ?_, ?_⟩
  · rw [hvote, hcolumns]
    exact h.first
  · rw [hstats]
    exact h.entries
  · rw [hflag]
    exact h.flag

/-- The flag after one more row. -/
theorem flag_addStats {stats : LoadedEpochStats} (hstats : StatsOf row stats.toQueryStats)
    (hflag : record.hasLastEpochStats = true ↔
      ∃ row' ∈ rows, row'.validator.epoch = inputs.lastEpoch) :
    (record.addStats inputs.lastEpoch stats).hasLastEpochStats = true ↔
      ∃ row' ∈ rows ++ [row], row'.validator.epoch = inputs.lastEpoch := by
  have hepoch : stats.epoch = row.validator.epoch := (columns_of_rowStats hstats.fields).1
  by_cases heq : row.validator.epoch = inputs.lastEpoch
  · have hset : inputs.lastEpoch = stats.epoch := (hepoch.trans heq).symm
    simp [LoadedRecord.addStats, hset, hepoch]
  · have hkeep : inputs.lastEpoch ≠ stats.epoch := fun h => heq (hepoch.symm.trans h.symm)
    simp [LoadedRecord.addStats, hkeep, hflag, heq, or_and_right, exists_or]

/-- The entries after one more row. -/
theorem entries_addStats {stats : LoadedEpochStats} (lastEpoch : Nat)
    (hstats : StatsOf row stats.toQueryStats)
    (hentries : List.Forall₂ StatsOf rows (record.epochStats.map LoadedEpochStats.toQueryStats)) :
    List.Forall₂ StatsOf (rows ++ [row])
      ((record.addStats lastEpoch stats).epochStats.map LoadedEpochStats.toQueryStats) := by
  show List.Forall₂ StatsOf _ ((record.epochStats ++ [stats]).map _)
  rw [List.map_append]
  exact List.rel_append hentries (List.Forall₂.cons hstats List.Forall₂.nil)

/-- The body of the loop. -/
theorem loadRow_eq_some {entry : Option LoadedRecord}
    (h : loadRow inputs entry row = some record') :
    ∃ (startingEpoch firstEpoch : Nat) (stats : LoadedEpochStats) (old record : LoadedRecord),
      loadedEpochStats inputs.nowAt inputs.apyCalculators row = some stats ∧
      orNewRecord inputs row startingEpoch firstEpoch entry = some old ∧
      old.withRugger (inputs.ruggers.get? row.validator.voteAccount) = some record ∧
      record' = record.addStats inputs.lastEpoch stats := by
  obtain ⟨firstEpoch, -, h⟩ := Option.bind_eq_some_iff.mp h
  obtain ⟨startingEpoch, -, h⟩ := Option.bind_eq_some_iff.mp h
  obtain ⟨stats, hstats, h⟩ := Option.bind_eq_some_iff.mp h
  obtain ⟨old, hold, h⟩ := Option.bind_eq_some_iff.mp h
  obtain ⟨record, hrecord, h⟩ := Option.bind_eq_some_iff.mp h
  exact ⟨startingEpoch, firstEpoch, stats, old, record, hstats, hold, hrecord,
    (Option.some.inj h).symm⟩

/-- **The first row** of a vote account makes its record. -/
theorem madeOf_first (h : loadRow inputs none row = some record') :
    MadeOf inputs [row] record' := by
  obtain ⟨_, _, stats, old, record, hstats, hnew, hrecord, rfl⟩ := loadRow_eq_some h
  have hstats := statsOf_loadedEpochStats hstats
  have hloaded := loaded_withRugger hrecord
  obtain ⟨columns, hcolumns, hnew⟩ := Option.bind_eq_some_iff.mp hnew
  obtain rfl := Option.some.inj hnew
  simp only [LoadedRecord.loaded, Prod.mk.injEq] at hloaded
  obtain ⟨hvote, hcolumns', hflag, hempty⟩ := hloaded
  refine ⟨⟨row, [], rfl, hvote, ?_⟩, ?_, ?_⟩
  · show _ = some record.toRecordColumns
    rw [hcolumns']
    exact hcolumns
  · have hnone : List.Forall₂ StatsOf []
        (record.epochStats.map LoadedEpochStats.toQueryStats) := by
      rw [hempty]
      exact List.Forall₂.nil
    exact entries_addStats inputs.lastEpoch hstats hnone
  · have hunset : record.hasLastEpochStats = true ↔
        ∃ row' ∈ ([] : List LoadedRow), row'.validator.epoch = inputs.lastEpoch := by
      simp [hflag]
    exact flag_addStats hstats hunset

/-- **Every later row** adds to it. -/
theorem madeOf_next {old : LoadedRecord} (hmade : MadeOf inputs rows old)
    (h : loadRow inputs (some old) row = some record') :
    MadeOf inputs (rows ++ [row]) record' := by
  obtain ⟨_, _, stats, old', record, hstats, hold, hrecord, rfl⟩ := loadRow_eq_some h
  obtain rfl := Option.some.inj hold
  have hstats := statsOf_loadedEpochStats hstats
  have hrecord := hmade.congr (loaded_withRugger hrecord)
  obtain ⟨first, rest, rfl, hvote, hcolumns⟩ := hrecord.first
  exact ⟨⟨first, rest ++ [row], rfl, hvote, hcolumns⟩,
    entries_addStats inputs.lastEpoch hstats hrecord.entries, flag_addStats hstats hrecord.flag⟩

/-- **The loop** makes a record of the rows of each vote account. -/
theorem madeOf_loadRows {records : Dict String LoadedRecord}
    (h : loadRows inputs rows = some records) (voteAccount : String) :
    (records.get? voteAccount = none ∧
        (rows.filter fun row => row.validator.voteAccount = voteAccount) = []) ∨
      ∃ record, records.get? voteAccount = some record ∧
        MadeOf inputs (rows.filter fun row => row.validator.voteAccount = voteAccount) record :=
  entry_rule (fun _ _ hfirst => madeOf_first hfirst)
    (fun _ _ _ _ hmade hnext => madeOf_next hmade hnext) h voteAccount

end Loop

/-! ## The records of the cache

`aggregateRecords` is the same loop for the fields that the API reads. -/

def LoadedEpochStats.toStats (stats : LoadedEpochStats) : ValidatorEpochStats where
  epoch := stats.epoch
  epochStartAt := stats.epochStartAt
  activatedStake := stats.activatedStake
  marinadeStake := stats.marinadeStake
  credits := stats.credits
  uptimePct := stats.uptimePct
  apy := stats.apy
  score := stats.score
  rankActivatedStake := stats.rankActivatedStake
  rankScore := stats.rankScore
  rankApy := stats.rankApy

def LoadedRecord.toRecord (record : LoadedRecord) : ValidatorRecord where
  identity := record.identity
  voteAccount := record.voteAccount
  infoName := record.infoName
  dcCountry := record.dcCountry
  dcCity := record.dcCity
  dcFullCity := record.dcFullCity
  commissionMaxObserved := record.commissionMaxObserved
  activatedStake := record.activatedStake
  marinadeStake := record.marinadeStake
  foundationStake := record.foundationStake
  superminority := record.superminority
  credits := record.credits
  score := record.score
  epochStats := record.epochStats.map LoadedEpochStats.toStats
  hasLastEpochStats := record.hasLastEpochStats
  avgUptimePct := record.avgUptimePct
  avgApy := record.avgApy
  incidents := record.incidents

/-- The inputs of `aggregateRecords`: a commission that is no `u8` does not get this far. -/
def LoopInputs.toLoadInputs (inputs : LoopInputs) (scan : Scan) : LoadInputs where
  scan := scan
  now := inputs.nowAt
  apyCalculators epoch := (inputs.apyCalculators epoch).map fun estimateYields credits commission =>
    (estimateYields credits (UInt8.ofNat commission.toNat)).2

section Cache

variable {inputs : LoopInputs} {scan : Scan} {db : LoadDatabase} {row : ValidatorsRow}

theorem tryIntoU8_eq {commission : Int} {c : UInt8} (h : tryIntoU8 commission = some c) :
    c = UInt8.ofNat commission.toNat := by
  unfold tryIntoU8 at h
  split at h
  · exact (Option.some.inj h).symm
  · cases h

/-- The APY of a row. -/
theorem apy_of_estimatedYields (scan : Scan) {yields : Option Rat × Option Rat}
    (h : estimatedYields inputs.apyCalculators row = some yields) :
    yields.2 = ((inputs.toLoadInputs scan).apyCalculators row.epoch).map fun estimate =>
      estimate row.credits (row.commissionEffective.getD 100) := by
  unfold estimatedYields at h
  show _ = ((inputs.apyCalculators row.epoch).map _).map _
  cases hcalculator : inputs.apyCalculators row.epoch with
  | none =>
    rw [hcalculator] at h
    obtain rfl := Option.some.inj h
    rfl
  | some estimateYields =>
    rw [hcalculator] at h
    obtain ⟨credits, hcredits, h⟩ := Option.bind_eq_some_iff.mp h
    obtain ⟨commission, hcommission, h⟩ := Option.bind_eq_some_iff.mp h
    obtain rfl := Option.some.inj h
    obtain ⟨-, rfl⟩ := decimalToU64_eq_some_iff.mp hcredits
    cases heffective : row.commissionEffective with
    | none =>
      rw [heffective] at hcommission
      obtain rfl := Option.some.inj hcommission
      rfl
    | some effective =>
      rw [heffective] at hcommission
      obtain ⟨c, hc, rfl⟩ := Option.map_eq_some_iff.mp hcommission
      rw [tryIntoU8_eq hc]
      rfl

theorem toStats_loadedEpochStats {stats : LoadedEpochStats}
    (h : loadedEpochStats inputs.nowAt inputs.apyCalculators (loadedRow scan db row) = some stats) :
    stats.toStats = epochStats (inputs.toLoadInputs scan) db.toDatabase row := by
  obtain ⟨fields, hfields, h⟩ := Option.bind_eq_some_iff.mp h
  obtain ⟨⟨apr, apy⟩, hyields, h⟩ := Option.bind_eq_some_iff.mp h
  obtain rfl := Option.some.inj h
  have hapy : apy = _ := apy_of_estimatedYields scan hyields
  obtain ⟨hepoch, hcredits, hactivated, hmarinade, huptime⟩ := columns_of_rowStats hfields
  simp only [LoadedEpochStats.toStats, epochStats, hapy, hepoch, hcredits, hactivated, hmarinade,
    huptime]
  rfl

theorem toRecord_addStats (lastEpoch : Nat) (stats : LoadedEpochStats) (record : LoadedRecord) :
    (record.addStats lastEpoch stats).toRecord =
      record.toRecord.addStats lastEpoch stats.toStats := by
  simp only [LoadedRecord.toRecord, LoadedRecord.addStats, ValidatorRecord.addStats,
    List.map_append, List.map_cons, List.map_nil]
  rfl

/-- The fields about rugs are not read by the API's filters and aggregates. -/
theorem toRecord_withRugger {record record' : LoadedRecord} {rugger : Option RuggerRecord}
    (h : record.withRugger rugger = some record') : record'.toRecord = record.toRecord := by
  obtain ⟨_, _, _, rfl⟩ := withRugger_cases h
  rfl

/-- The record of a vote account that has none yet. -/
theorem toRecord_orNewRecord {entry : Option LoadedRecord} {startingEpoch firstEpoch : Nat}
    {record : LoadedRecord}
    (h : orNewRecord inputs (loadedRow scan db row) startingEpoch firstEpoch entry =
      some record) :
    record.toRecord = (entry.map LoadedRecord.toRecord).getD (newRecord row) := by
  cases entry with
  | some old =>
    obtain rfl := Option.some.inj h
    rfl
  | none =>
    obtain ⟨columns, hcolumns, h⟩ := Option.bind_eq_some_iff.mp h
    obtain rfl := Option.some.inj h
    obtain ⟨credits, hcredits, hcolumns⟩ := Option.bind_eq_some_iff.mp hcolumns
    obtain rfl := Option.some.inj hcolumns
    obtain ⟨-, rfl⟩ := decimalToU64_eq_some_iff.mp hcredits
    rfl

/-- One row. -/
theorem toRecord_loadRow {entry : Option LoadedRecord} {record' : LoadedRecord}
    (h : loadRow inputs entry (loadedRow scan db row) = some record') :
    record'.toRecord = ((entry.map LoadedRecord.toRecord).getD (newRecord row)).addStats
      inputs.lastEpoch (epochStats (inputs.toLoadInputs scan) db.toDatabase row) := by
  obtain ⟨_, _, stats, old, record, hstats, hold, hrecord, rfl⟩ := loadRow_eq_some h
  rw [← toRecord_orNewRecord hold, ← toRecord_withRugger hrecord,
    ← toStats_loadedEpochStats hstats]
  exact toRecord_addStats inputs.lastEpoch stats record

/-- The rest of the loop, from records that are there. -/
theorem mapVal_foldlM_loadRow {rows : List ValidatorsRow} {start records : Dict String LoadedRecord}
    (h : (rows.map (loadedRow scan db)).foldlM
      (stepEntry (fun row => row.validator.voteAccount) (loadRow inputs)) start = some records) :
    records.mapVal LoadedRecord.toRecord =
      rows.foldl (addRow (inputs.toLoadInputs scan) db.toDatabase inputs.lastEpoch)
        (start.mapVal LoadedRecord.toRecord) := by
  induction rows generalizing start with
  | nil =>
    obtain rfl := Option.some.inj h
    rfl
  | cons row rows ih =>
    rw [List.map_cons, List.foldlM_cons] at h
    obtain ⟨next, hstep, hrest⟩ := Option.bind_eq_some_iff.mp h
    obtain ⟨record, hrecord, rfl⟩ := Option.map_eq_some_iff.mp hstep
    rw [List.foldl_cons, ih hrest, Dict.mapVal_insert, toRecord_loadRow hrecord]
    unfold addRow
    rw [Dict.get?_mapVal]
    rfl

/-- **The loop refines** that of `aggregateRecords`. -/
theorem mapVal_loadRows {records : Dict String LoadedRecord}
    (h : loadRows inputs (validatorsQuery scan defaultCacheEpochs db) = some records) :
    records.mapVal LoadedRecord.toRecord =
      aggregateRecords (inputs.toLoadInputs scan) db.toDatabase inputs.lastEpoch := by
  rw [validatorsQuery_eq] at h
  exact mapVal_foldlM_loadRow h

end Cache

/-! ## What `load_validators` returns -/

/-- An entry for a row of `validators`. -/
structure EntryOf (db : LoadDatabase) (row : ValidatorsRow) (stats : QueryStats) : Prop where
  epoch : stats.epoch = row.epoch
  fields : rowStats row = some stats.toRowStats
  mev : NewestCommission db.mev MevColumns.mevCommission (row.voteAccount, row.epoch)
    stats.mevCommissionBps
  priorityFee : NewestCommission db.jitoPriorityFee PriorityFeeColumns.validatorCommission
    (row.voteAccount, row.epoch) stats.priorityCommissionBps

/-- The record of a vote account has one entry for each of its displayed rows, the newest
first, and takes its own fields from the newest. -/
structure LoadsRows (db : LoadDatabase) (displayEpochs : Nat)
    (concentrations : Option DCConcentrationStats) (voteAccount : String)
    (record : LoadedRecord) : Prop where
  account : record.voteAccount = voteAccount
  rows : ∃ newest rest,
    (∀ row, row ∈ newest :: rest ↔ row ∈ db.validators ∧ row.voteAccount = voteAccount ∧
      Displayed db.toDatabase displayEpochs row) ∧
    (newest :: rest).Pairwise (fun row row' => row'.epoch < row.epoch) ∧
    List.Forall₂ (EntryOf db) (newest :: rest)
      (record.epochStats.map LoadedEpochStats.toQueryStats) ∧
    recordColumns concentrations newest = some record.toRecordColumns
  descending : (record.epochStats.map fun stats => stats.epoch).Pairwise (· > ·)
  /-- The vote account has a row of the last epoch of `validators`. -/
  flag : record.hasLastEpochStats = true ↔ ∃ row ∈ db.validators,
    row.voteAccount = voteAccount ∧ ∀ row' ∈ db.validators, row'.epoch ≤ row.epoch

section Load

variable {sources : LoadSources} {displayEpochs computingEpochs : Nat} {db : LoadDatabase}
variable {inputs : LoopInputs} {voteAccount : String} {record : LoadedRecord}

/-- The displayed rows of a vote account, the newest first. -/
def ownRows (scan : Scan) (displayEpochs : Nat) (db : LoadDatabase) (voteAccount : String) :
    List ValidatorsRow :=
  (validatorsRows scan displayEpochs db.toDatabase).filter fun row =>
    row.voteAccount = voteAccount

theorem mem_ownRows {scan : Scan} {row : ValidatorsRow} :
    row ∈ ownRows scan displayEpochs db voteAccount ↔
      row ∈ db.validators ∧ row.voteAccount = voteAccount ∧
        Displayed db.toDatabase displayEpochs row := by
  simp only [ownRows, List.mem_filter, mem_validatorsRows, decide_eq_true_eq, and_assoc]
  rw [and_comm (a := Displayed _ _ _)]

theorem filter_validatorsQuery (scan : Scan) (displayEpochs : Nat) (db : LoadDatabase)
    (voteAccount : String) :
    ((validatorsQuery scan displayEpochs db).filter fun row =>
        row.validator.voteAccount = voteAccount) =
      (ownRows scan displayEpochs db voteAccount).map (loadedRow scan db) := by
  rw [validatorsQuery_eq, List.filter_map]
  rfl

theorem entryOf_statsOf {scan : Scan} {row : ValidatorsRow} {stats : QueryStats}
    (h : StatsOf (loadedRow scan db row) stats) : EntryOf db row stats where
  epoch := (columns_of_rowStats h.fields).1
  fields := h.fields
  mev := by
    rw [h.mev]
    exact newestCommission_latest scan db.mev _ _
  priorityFee := by
    rw [h.priorityFee]
    exact newestCommission_latest scan db.jitoPriorityFee _ _

/-- The last epoch of `validators` is that of the rows that no row is later than. -/
theorem epoch_eq_lastEpoch_iff {row : ValidatorsRow} (hrow : row ∈ db.validators) :
    row.epoch = (getLastEpoch db.toDatabase).getD 0 ↔
      ∀ row' ∈ db.validators, row'.epoch ≤ row.epoch := by
  obtain ⟨lastEpoch, hlast⟩ := Option.isSome_iff_exists.mp
    (List.isSome_max?_of_mem (List.mem_map_of_mem (f := ValidatorsRow.epoch) hrow))
  obtain ⟨hmem, hmax⟩ := List.max?_eq_some_iff.mp hlast
  have hget : (getLastEpoch db.toDatabase).getD 0 = lastEpoch := by
    simp [getLastEpoch, hlast]
  rw [hget]
  constructor
  · intro heq row' hrow'
    rw [heq]
    exact hmax _ (List.mem_map_of_mem hrow')
  · intro hall
    obtain ⟨row', hrow', rfl⟩ := List.mem_map.mp hmem
    exact le_antisymm (hmax _ (List.mem_map_of_mem hrow)) (hall row' hrow')

theorem Displayed.mono {db : Database} {row row' : ValidatorsRow}
    (h : Displayed db displayEpochs row) (hle : row.epoch ≤ row'.epoch) :
    Displayed db displayEpochs row' := by
  obtain ⟨lastEpoch, hlast, hlt⟩ := h
  exact ⟨lastEpoch, hlast, by omega⟩

/-- Entries for rows have the epochs of the rows. -/
theorem epochs_of_entries {rows : List ValidatorsRow} {stats : List LoadedEpochStats}
    (h : List.Forall₂ (EntryOf db) rows (stats.map LoadedEpochStats.toQueryStats)) :
    (stats.map fun stats => stats.epoch) = rows.map ValidatorsRow.epoch := by
  rw [List.forall₂_map_right_iff] at h
  induction h with
  | nil => rfl
  | cons hentry _ ih => rw [List.map_cons, List.map_cons, ih, hentry.epoch]

/-- Among the displayed rows of a vote account there is one of the last epoch if there is
one at all: the displayed epochs are the latest ones. -/
theorem exists_ownRows_lastEpoch_iff {scan : Scan} {newest : ValidatorsRow}
    (hnewest : newest ∈ ownRows scan displayEpochs db voteAccount) :
    (∃ row ∈ ownRows scan displayEpochs db voteAccount,
        row.epoch = (getLastEpoch db.toDatabase).getD 0) ↔
      ∃ row ∈ db.validators, row.voteAccount = voteAccount ∧
        ∀ row' ∈ db.validators, row'.epoch ≤ row.epoch := by
  constructor
  · rintro ⟨row, hrow, hepoch⟩
    obtain ⟨hmem, hvote, -⟩ := mem_ownRows.mp hrow
    exact ⟨row, hmem, hvote, (epoch_eq_lastEpoch_iff hmem).mp hepoch⟩
  · rintro ⟨row, hmem, hvote, hmax⟩
    obtain ⟨hnewestMem, -, hdisplayed⟩ := mem_ownRows.mp hnewest
    have hrow : row ∈ ownRows scan displayEpochs db voteAccount :=
      mem_ownRows.mpr ⟨hmem, hvote, hdisplayed.mono (hmax newest hnewestMem)⟩
    exact ⟨row, hrow, (epoch_eq_lastEpoch_iff hmem).mpr hmax⟩

/-- **A record** made of the displayed rows of its vote account. -/
theorem loadsRows_of_madeOf {scan : Scan}
    (hlast : inputs.lastEpoch = (getLastEpoch db.toDatabase).getD 0)
    (h : MadeOf inputs ((ownRows scan displayEpochs db voteAccount).map (loadedRow scan db))
      record) :
    LoadsRows db displayEpochs inputs.concentrations voteAccount record := by
  have hdescending : (ownRows scan displayEpochs db voteAccount).Pairwise fun row row' =>
      row'.epoch < row.epoch :=
    pairwise_validatorsRows scan displayEpochs db.validatorsKey voteAccount
  have hentries : List.Forall₂ (EntryOf db) (ownRows scan displayEpochs db voteAccount)
      (record.epochStats.map LoadedEpochStats.toQueryStats) :=
    (List.forall₂_map_left_iff.mp h.entries).imp fun _ _ hstats => entryOf_statsOf hstats
  obtain ⟨first, rest', hrows, hvote, hcolumns⟩ := h.first
  obtain ⟨newest, rest, hown, rfl, rfl⟩ := List.map_eq_cons_iff.mp hrows
  have hnewest : newest ∈ ownRows scan displayEpochs db voteAccount :=
    hown ▸ List.mem_cons_self
  refine ⟨hvote.trans (mem_ownRows.mp hnewest).2.1, ⟨newest, rest, ?_⟩, ?_, ?_⟩
  · rw [← hown]
    exact ⟨fun row => mem_ownRows, hdescending, hentries, hcolumns⟩
  · rw [epochs_of_entries hentries, List.pairwise_map]
    exact hdescending
  · rw [h.flag, hlast, ← exists_ownRows_lastEpoch_iff hnewest]
    simp only [List.mem_map, exists_exists_and_eq_and]
    rfl

theorem keys_eq_loads (records : Dict String LoadedRecord) :
    records.keys = (loads records).map Prod.fst := by
  unfold loads Dict.keys
  rw [List.map_map]
  rfl

/-- **The loop** over the query makes the records of the displayed vote accounts. -/
theorem madeOf_ownRows {scan : Scan} {records : Dict String LoadedRecord}
    (h : loadRows inputs (validatorsQuery scan displayEpochs db) = some records)
    (voteAccount : String) :
    (voteAccount ∈ records.keys ↔ ∃ row, row ∈ ownRows scan displayEpochs db voteAccount) ∧
      ∀ record, records.get? voteAccount = some record →
        MadeOf inputs ((ownRows scan displayEpochs db voteAccount).map (loadedRow scan db))
          record := by
  have hcases := madeOf_loadRows h voteAccount
  rw [filter_validatorsQuery] at hcases
  rcases hcases with ⟨hnone, hnil⟩ | ⟨record, hsome, hmade⟩
  · rw [List.map_eq_nil_iff] at hnil
    refine ⟨?_, fun record hrecord => ?_⟩
    · simp [hnil, Dict.get?_eq_none_iff.mp hnone]
    · rw [hnone] at hrecord
      cases hrecord
  · refine ⟨⟨fun _ => ?_, fun _ => ?_⟩, fun record' hrecord' => ?_⟩
    · obtain ⟨_, _, hrows, -⟩ := hmade.first
      obtain ⟨newest, _, hown, -⟩ := List.map_eq_cons_iff.mp hrows
      exact ⟨newest, hown ▸ List.mem_cons_self⟩
    · exact List.mem_map_of_mem (Dict.mem_of_get? hsome)
    · obtain rfl := Option.some.inj (hsome.symm.trans hrecord')
      exact hmade

end Load

/-- **The records of `load_validators`**: a vote account has a record exactly if it has a
row in the displayed epochs, counted from `cluster_info`, and the record has one entry for
each of these rows, in descending order of the epochs, with the commissions created last. -/
theorem loadValidators_spec (sources : LoadSources) (displayEpochs computingEpochs : Nat)
    (db : LoadDatabase) (records : Dict String LoadedRecord)
    (h : loadValidators sources displayEpochs computingEpochs db = some records) :
    (∀ voteAccount, voteAccount ∈ records.keys ↔ ∃ row ∈ db.validators,
      row.voteAccount = voteAccount ∧ Displayed db.toDatabase displayEpochs row) ∧
    ∃ concentrations, loadDcConcentrationStats sources.scan 1 db.toDatabase = some concentrations ∧
      ∀ e ∈ records.entries,
        LoadsRows db displayEpochs concentrations.head? e.1 e.2 := by
  obtain ⟨inputs, hinputs, h⟩ := Option.bind_eq_some_iff.mp h
  obtain ⟨loaded, hloop, hupdate⟩ := Option.bind_eq_some_iff.mp h
  obtain ⟨ruggers, -, hinputs⟩ := Option.bind_eq_some_iff.mp hinputs
  obtain ⟨apyCalculators, -, hinputs⟩ := Option.bind_eq_some_iff.mp hinputs
  obtain ⟨concentrations, hconcentrations, hinputs⟩ := Option.bind_eq_some_iff.mp hinputs
  obtain rfl := Option.some.inj hinputs
  have hloads := loads_updateLoadedRecords hupdate
  have hrows := madeOf_ownRows hloop
  refine ⟨fun voteAccount => ?_, concentrations, hconcentrations, fun e he => ?_⟩
  · rw [keys_eq_loads, hloads, ← keys_eq_loads, (hrows voteAccount).1]
    simp only [mem_ownRows]
  · -- the record before the updates has the same fields from the rows
    have hmem : (e.1, e.2.loaded) ∈ loads loaded := hloads ▸ List.mem_map_of_mem he
    obtain ⟨e', he', heq⟩ := List.mem_map.mp hmem
    obtain ⟨hkey, hsame⟩ := Prod.mk.inj heq
    have hmade := (hrows e'.1).2 e'.2 (Dict.get?_of_mem he')
    rw [hkey] at hmade
    exact loadsRows_of_madeOf rfl (hmade.congr hsame.symm)

/-- The validator of `openDatabase` in two epochs, with two rows of `mev` in the later one. -/
def reloadedDatabase : LoadDatabase where
  toDatabase := { openDatabase with
    validators := openDatabase.validators.flatMap fun row => [{ row with epoch := 499 }, row] }
  mev := [⟨"vote", ⟨800, none, none, none, none⟩, 100, 500, 10⟩,
    ⟨"vote", ⟨1000, none, none, none, none⟩, 200, 500, 20⟩]
  jitoPriorityFee := []
  validatorsKey := by
    unfold PrimaryKey
    decide
  epochsKey := List.nodup_nil

def noSources : LoadSources where
  scan := .reverse
  now := 0
  nowAt _ _ := 0
  apyCalculators := some fun _ => none
  loadScoresInEpochs _ _ := some Dict.empty
  uniqueDelegators := Dict.empty
  takeRates := Dict.empty

/-- The record has the entries of both epochs, and the commission created last. -/
theorem loadValidators_spec_reloaded : ∃ records,
    loadValidators noSources 80 20 reloadedDatabase = some records ∧
      (records.entries.map fun e => (e.1, e.2.epochStats.map fun stats =>
        (stats.epoch, stats.mevCommissionBps))) =
          [("vote", [(500, some 1000), (499, none)])] ∧
      ∃ concentrations, ∀ e ∈ records.entries,
        LoadsRows reloadedDatabase 80 concentrations e.1 e.2 := by
  obtain ⟨records, hload⟩ := Option.isSome_iff_exists.mp
    (show (loadValidators noSources 80 20 reloadedDatabase).isSome by decide)
  obtain ⟨-, concentrations, -, hrecords⟩ :=
    loadValidators_spec noSources 80 20 reloadedDatabase records hload
  refine ⟨records, hload, ?_, concentrations.head?, hrecords⟩
  have hentries : (loadValidators noSources 80 20 reloadedDatabase).map (fun records =>
      records.entries.map fun e => (e.1, e.2.epochStats.map fun stats =>
        (stats.epoch, stats.mevCommissionBps))) =
      some [("vote", [(500, some 1000), (499, none)])] := by decide
  rw [hload] at hentries
  exact Option.some.inj hentries

end DelegationStrategy.Store
