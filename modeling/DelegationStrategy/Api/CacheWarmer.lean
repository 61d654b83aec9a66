import DelegationStrategy.Api.ContextLock
import DelegationStrategy.Api.PerEpochCache
import DelegationStrategy.Api.ScoresCache
import DelegationStrategy.Lib.Refresh
import DelegationStrategy.Store.ClusterStats
import DelegationStrategy.Store.Histories
import DelegationStrategy.Store.TakeRates
import DelegationStrategy.Store.Yields

/-!
# The cache warmer

`spawn_cache_warmer` (`api/src/cache.rs`) calls its six functions one after the other, logs
their errors, sleeps, and starts over. Each function is a program of the queries that it sends,
in their order, and of its writes. The store commands, the ETL and the scoring API change what
the queries find between any two of them.

- `cacheWarmer_snapshots`: every table of the cache is what its load returns when all of its
  queries find versions between the start of its warm-up and its write; a table that is written
  again never goes back before these versions; the aggregates are always those of the
  validators.
- `cacheWarmer_fresh`: a warm-up that a finished round has not logged as failed left its tables
  with nothing older than the round that its own queries have found.
- `cacheWarmer_catchesUp`: when nothing changes any more, one round later the cache is what the
  loads return.

The unique delegators and the take rates of the validators are those of the entry `per_epoch`,
which has versions of its own: `PerEpochCache::load` keeps an entry whose label is the last epoch
of BigQuery, however old it is. Of these columns only the label follows the rounds.
-/

namespace DelegationStrategy.Api

open DelegationStrategy.Lib DelegationStrategy.Collect DelegationStrategy.Store

/-! ## What the queries find -/

/-- The databases, and the order and the time in which a query finds them. -/
structure World where
  db : LoadDatabase
  versions : List VersionRow
  scoringTables : ScoringTables
  bigQuery : BigQuery
  rewards : RewardTables
  /-- `load_scores_in_epochs` for a range of epochs. -/
  loadScoresInEpochs : Nat → Nat → Option (Dict Nat (Dict String Rat))
  scan : Scan
  now : Timestamp
  nowAt : String → Nat → Timestamp
  nowUptimes : UptimeRow × Option EpochsRow → EpochBounds
  nowCommissions : UnionRow → EpochBounds

/-! ## The cache -/

/-- A table of the cache. The program does not have the numbers of the versions of the
databases from the start of the warm-up to its write. -/
structure Cached (α : Type) where
  value : α
  range : Option (Nat × Nat) := none

/-- The queries of `PerEpochCache::load` whose errors it logs. -/
inductive PerEpochError where
  /-- `Failed to read last BigQuery epoch` -/
  | lastEpoch
  /-- `Failed to load unique delegators from BigQuery` -/
  | uniqueDelegators
  /-- `Failed to load take rates from BigQuery` -/
  | takeRates
  deriving DecidableEq, Repr

structure Cache where
  validators : Cached (Dict String LoadedRecord)
  commissions : Cached (Dict String (List CommissionRecord))
  versions : Cached (Dict String (List VersionRecord))
  uptimes : Cached (Dict String (List UptimeRecord))
  clusterStats : Cached (Option ClusterStats)
  validatorsAggregated : List ValidatorsAggregated
  singleRunScores : Cached CachedSingleRunScores
  multiRunScores : Cached CachedMultiRunScores
  perEpoch : Cached (Option PerEpochCache)
  /-- The errors that the check of `perEpoch` has logged before the last write of `validators`.
  The program does not keep them. -/
  perEpochErrors : List PerEpochError

/-- `Cache::new`. -/
def Cache.new : Cache where
  validators := ⟨Dict.empty, none⟩
  commissions := ⟨Dict.empty, none⟩
  versions := ⟨Dict.empty, none⟩
  uptimes := ⟨Dict.empty, none⟩
  clusterStats := ⟨none, none⟩
  validatorsAggregated := []
  singleRunScores := ⟨⟨none, Dict.empty⟩, none⟩
  multiRunScores := ⟨⟨none, Dict.empty⟩, none⟩
  perEpoch := ⟨none, none⟩
  perEpochErrors := []

/-! ## The loads -/

open Queries

def queryUptimes : Queries World (Dict String (List UptimeRecord)) :=
  ask fun w => loadUptimes w.scan w.nowUptimes defaultCacheEpochs w.db.toDatabase

def queryVersions : Queries World (Dict String (List VersionRecord)) :=
  ask fun w => loadVersions w.scan defaultCacheEpochs w.db.toDatabase w.versions

def queryCommissions : Queries World (Dict String (List CommissionRecord)) :=
  ask fun w => loadCommissions w.scan w.nowCommissions defaultCacheEpochs w.db.toDatabase

def queryLastEpoch : Queries World (Option Nat) := ask fun w => some (getLastEpoch w.db.toDatabase)

/-- `load_block_production_stats`: the last epoch, and the epochs from there. -/
def queryBlockProductionStats (epochs : Nat) : Queries World (List BlockProductionStats) := do
  match ← queryLastEpoch with
  | some lastEpoch =>
    ask fun w =>
      (blockEpochs w.db.toDatabase (firstEpoch lastEpoch epochs)).mapM
        (blockEpochStats w.db.toDatabase)
  | none => pure []

/-- `load_dc_concentration_stats`: a query for each epoch. -/
def queryDcConcentrationStats (epochs : Nat) : Queries World (List DCConcentrationStats) := do
  match ← queryLastEpoch with
  | some lastEpoch =>
    (List.range' (firstEpoch lastEpoch epochs)
        (lastEpoch + 1 - firstEpoch lastEpoch epochs)).reverse.mapM
      fun epoch => ask fun w => dcEpochStats w.scan w.db.toDatabase epoch
  | none => pure []

/-- `load_cluster_stats`. -/
def queryClusterStats (epochs : Nat) : Queries World ClusterStats := do
  let blockProductionStats ← queryBlockProductionStats epochs
  let dcConcentrationStats ← queryDcConcentrationStats epochs
  pure ⟨blockProductionStats, dcConcentrationStats⟩

def queryLastScoringRun : Queries World (Option ScoringRunRow) :=
  ask fun w => some (loadLastScoringRun w.scoringTables)

/-- The queries of `warm_scores_cache`. The last run is read twice, for its scores and for
itself. -/
def queryScores : Queries World (CachedSingleRunScores × CachedMultiRunScores) := do
  let scores ← match ← queryLastScoringRun with
    | some scoringRun => ask fun w => loadScores w.scan w.scoringTables scoringRun.scoringRunId
    | none => pure Dict.empty
  let multiRunScores ← ask fun w => loadAllScores w.scan w.scoringTables
  let lastScoringRun ← queryLastScoringRun
  let multiRunScoringRuns ← ask fun w => some (loadScoringRuns w.scoringTables)
  pure (⟨lastScoringRun, scores⟩, ⟨some multiRunScoringRuns, multiRunScores⟩)

/-- `load_latest_unique_delegators`. -/
def queryUniqueDelegators : Queries World (Dict String Nat) := do
  match ← ask fun w => some (maxStakesEpoch w.bigQuery.stakes) with
  | some maxEpoch => ask fun w => some (uniqueDelegators w.bigQuery.stakes maxEpoch)
  | none => pure Dict.empty

/-- `load_take_rates`. -/
def queryTakeRates : Queries World (Dict String Rat) := do
  match ← ask fun w => some (minEpoch w.rewards.epochs) with
  | some minEpoch =>
    ask fun w =>
      ((w.scan.order (takeRates w.rewards minEpoch)).mapM fun row : Option String × Rat =>
        row.1.map fun voteAccount => (voteAccount, row.2)).map Dict.ofList
  | none => pure Dict.empty

def queryLastBigqueryEpoch : Queries World (Option Nat) :=
  ask fun w => some (loadLastBigqueryEpoch w.bigQuery)

/-- `PerEpochCache::load`, with the errors that it logs. -/
def queryPerEpoch (cached : Option PerEpochCache) :
    Queries World (Option PerEpochCache × List PerEpochError) := do
  match ← queryLastBigqueryEpoch.attempt with
  | some (some lastEpoch) =>
    if cached.map PerEpochCache.epoch = some lastEpoch then pure (none, [])
    else do
      let delegators ← queryUniqueDelegators.attempt
      let takeRates ← queryTakeRates.attempt
      match delegators, takeRates with
      | some uniqueDelegators, some takeRates =>
        pure (some ⟨lastEpoch, uniqueDelegators, takeRates⟩, [])
      | some _, none => pure (none, [.takeRates])
      | none, some _ => pure (none, [.uniqueDelegators])
      | none, none => pure (none, [.uniqueDelegators, .takeRates])
  | some none => pure (none, [])
  | none => pure (none, [.lastEpoch])

/-- The queries for a new entry. -/
def queryNewPerEpoch : Queries World (Option PerEpochCache) := do
  match ← queryLastBigqueryEpoch with
  | some lastEpoch => do
    let uniqueDelegators ← queryUniqueDelegators
    let takeRates ← queryTakeRates
    pure (some ⟨lastEpoch, uniqueDelegators, takeRates⟩)
  | none => pure none

/-- What `load_validators` finds, and gets from the cache of BigQuery. -/
def World.sources (w : World) (powf : Rat → Rat → Rat) (perEpoch : Option PerEpochCache) :
    LoadSources where
  scan := w.scan
  now := w.now
  nowAt := w.nowAt
  apyCalculators := yieldsOfEpoch powf w.scan w.db.toDatabase
  loadScoresInEpochs := w.loadScoresInEpochs
  uniqueDelegators := (perEpoch.map PerEpochCache.uniqueDelegators).getD Dict.empty
  takeRates := (perEpoch.map PerEpochCache.takeRates).getD Dict.empty

/-- The queries of `load_validators`. The last epoch is read three times. -/
def queryValidators (powf : Rat → Rat → Rat) (perEpoch : Option PerEpochCache) :
    Queries World (Dict String LoadedRecord) := do
  match ← queryLastEpoch with
  | none => pure Dict.empty
  | some lastEpoch =>
    let ruggers ← ask fun w => loadRuggers w.scan w.now w.db.validators
    let apyCalculators ← ask fun w => yieldsOfEpoch powf w.scan w.db.toDatabase
    let concentrations ← queryDcConcentrationStats 1
    let records ← ask fun w =>
      loadRows ⟨w.nowAt, lastEpoch, ruggers, apyCalculators, concentrations.head?⟩
        (validatorsQuery w.scan defaultCacheEpochs w.db)
    let lastEpoch ← queryLastEpoch
    let lastEpoch := lastEpoch.getD 0
    let scores ← ask fun w =>
      w.loadScoresInEpochs (firstEpoch lastEpoch defaultCacheEpochs) lastEpoch
    let first := firstEpoch lastEpoch defaultComputingEpochs
    let records := withAvgs first lastEpoch (withScores scores records)
    -- the ranks of the records do not wait for the incidents
    ask fun w => do
      let records ← withLoadedRanks w.scan (fun a => a.activatedStake) .activatedStake records
      let records ← withLoadedRanks w.scan (fun a => toFixedForSort (a.score.getD 0)) .score
        records
      let records ← withLoadedRanks w.scan (fun a => toFixedForSort (a.apy.getD 0)) .apy records
      let records := withUniqueDelegators (w.sources powf perEpoch).uniqueDelegators
        (withWarnings first lastEpoch records)
      let incidents ← loadIncidents w.scan defaultIncidentsWindowEpochs w.db.toDatabase
      some (withTakeRates (w.sources powf perEpoch).takeRates (withIncidents incidents records))

/-! ## The warm-ups -/

/-- A warm-up with one load and one write. -/
def warmTable {α : Type} (load : Queries World α) (set : Cached α → Cache → Cache) :
    Load World Cache := fun since _ => do
  let value ← load
  pure [fun last cache => set ⟨value, some (since, last)⟩ cache]

def warmVersionsCache : Load World Cache :=
  warmTable queryVersions fun table cache => { cache with versions := table }

def warmCommissionsCache : Load World Cache :=
  warmTable queryCommissions fun table cache => { cache with commissions := table }

def warmUptimesCache : Load World Cache :=
  warmTable queryUptimes fun table cache => { cache with uptimes := table }

def warmClusterStatsCache : Load World Cache :=
  warmTable (some <$> queryClusterStats defaultCacheEpochs) fun table cache =>
    { cache with clusterStats := table }

/-- The two tables are written one after the other. -/
def warmScoresCache : Load World Cache := fun since _ => do
  let (singleRunScores, multiRunScores) ← queryScores
  pure
    [fun last cache => { cache with singleRunScores := ⟨singleRunScores, some (since, last)⟩ },
      fun last cache => { cache with multiRunScores := ⟨multiRunScores, some (since, last)⟩ }]

/-- The aggregates of the records; every entry has a start. -/
def aggregated (validators : Dict String LoadedRecord) : List ValidatorsAggregated :=
  aggregateValidators (fun _ _ => 0) (validators.mapVal LoadedRecord.toRecord)

/-- `if let Some(refreshed) = refreshed`. -/
def Cached.refresh {α : Type} (table : Cached (Option α)) (range : Nat × Nat) :
    Option α → Cached (Option α)
  | some refreshed => ⟨some refreshed, some range⟩
  | none => table

/-- Three tables are written under one guard. -/
def warmValidatorsCache (powf : Rat → Rat → Rat) : Load World Cache := fun since cache => do
  let (refreshed, errors) ← queryPerEpoch cache.perEpoch.value
  let validators ← queryValidators powf (refreshed.or cache.perEpoch.value)
  pure [fun last cache => { cache with
    perEpoch := cache.perEpoch.refresh (since, last) refreshed
    perEpochErrors := errors
    validators := ⟨validators, some (since, last)⟩
    validatorsAggregated := aggregated validators }]

/-- The loop of `spawn_cache_warmer`. -/
def warmFunctions (powf : Rat → Rat → Rat) : List (WarmFunction × Load World Cache) :=
  [(.warmScoresCache, warmScoresCache), (.warmVersionsCache, warmVersionsCache),
    (.warmCommissionsCache, warmCommissionsCache), (.warmUptimesCache, warmUptimesCache),
    (.warmClusterStatsCache, warmClusterStatsCache),
    (.warmValidatorsCache, warmValidatorsCache powf)]

/-- A step of the warmer, or of those who change what it finds. -/
def warmerStep (powf : Rat → Rat → Rat) :
    Refresher World Cache WarmFunction → RefreshMove World →
      Option (Refresher World Cache WarmFunction) :=
  Refresher.step (warmFunctions powf)

/-! ## What the tables hold -/

/-- The table is empty, or what its load returns on the versions of its warm-up. -/
def Cached.Holds {α : Type} (history : List World) (empty : α) (load : Queries World α)
    (table : Cached α) : Prop :=
  match table.range with
  | none => table.value = empty
  | some (since, last) => since ≤ last ∧ last < history.length ∧
      load.Results (Between history since last) table.value

/-- The table is the same, or of a later warm-up. -/
def Cached.Moves {α : Type} (table table' : Cached α) : Prop :=
  table' = table ∨ ∃ since last, table'.range = some (since, last) ∧ since ≤ last ∧
    ∀ since₀ last₀, table.range = some (since₀, last₀) → last₀ ≤ since

/-- Nothing that the queries of the table's load have found is older than a version. -/
def Cached.Fresh {α : Type} (first : Nat) (table : Cached α) : Prop :=
  ∃ since last, table.range = some (since, last) ∧ since ≤ last ∧ first ≤ since

/-- The label of `perEpoch` is the last epoch of BigQuery on one of some versions, if there is
one. -/
def Cache.LabelOf (V : World → Prop) (cache : Cache) : Prop :=
  ∃ w, V w ∧ ∀ epoch, loadLastBigqueryEpoch w.bigQuery = some epoch →
    cache.perEpoch.value.map PerEpochCache.epoch = some epoch

/-- The validators are loaded with the entry `perEpoch`, which has a range of its own. -/
structure CacheHolds (powf : Rat → Rat → Rat) (history : List World) (cache : Cache) : Prop where
  perEpoch : cache.perEpoch.Holds history none queryNewPerEpoch
  label : ∀ since last, cache.validators.range = some (since, last) →
    cache.perEpochErrors = [] → cache.LabelOf (Between history since last)
  validators : cache.validators.Holds history Dict.empty
    (queryValidators powf cache.perEpoch.value)
  aggregated : cache.validatorsAggregated = aggregated cache.validators.value
  commissions : cache.commissions.Holds history Dict.empty queryCommissions
  versions : cache.versions.Holds history Dict.empty queryVersions
  uptimes : cache.uptimes.Holds history Dict.empty queryUptimes
  clusterStats : cache.clusterStats.Holds history none
    (some <$> queryClusterStats defaultCacheEpochs)
  singleRunScores : cache.singleRunScores.Holds history ⟨none, Dict.empty⟩
    (Prod.fst <$> queryScores)
  multiRunScores : cache.multiRunScores.Holds history ⟨none, Dict.empty⟩
    (Prod.snd <$> queryScores)

structure CacheMoves (cache cache' : Cache) : Prop where
  perEpoch : cache.perEpoch.Moves cache'.perEpoch
  validators : cache.validators.Moves cache'.validators
  commissions : cache.commissions.Moves cache'.commissions
  versions : cache.versions.Moves cache'.versions
  uptimes : cache.uptimes.Moves cache'.uptimes
  clusterStats : cache.clusterStats.Moves cache'.clusterStats
  singleRunScores : cache.singleRunScores.Moves cache'.singleRunScores
  multiRunScores : cache.multiRunScores.Moves cache'.multiRunScores

/-- The tables of a warm-up are fresh; of the validators, what is not from `perEpoch`. -/
def WarmFunction.Fresh : WarmFunction → Nat → Cache → Prop
  | .warmScoresCache, first, cache =>
    cache.singleRunScores.Fresh first ∧ cache.multiRunScores.Fresh first
  | .warmVersionsCache, first, cache => cache.versions.Fresh first
  | .warmCommissionsCache, first, cache => cache.commissions.Fresh first
  | .warmUptimesCache, first, cache => cache.uptimes.Fresh first
  | .warmClusterStatsCache, first, cache => cache.clusterStats.Fresh first
  | .warmValidatorsCache, first, cache => cache.validators.Fresh first

section Tables

variable {α : Type} {history later : List World} {empty : α} {load : Queries World α}
variable {table table' : Cached α}

theorem between_later {first last : Nat} {w : World} (hlater : history <+: later)
    (h : Between history first last w) : Between later first last w := by
  obtain ⟨n, hfirst, hlast, hw⟩ := h
  obtain ⟨more, rfl⟩ := hlater
  exact ⟨n, hfirst, hlast, List.getElem?_append_left (List.getElem?_eq_some_iff.mp hw).1 ▸ hw⟩

theorem Cached.Holds.mono (hlater : history <+: later) (h : table.Holds history empty load) :
    table.Holds later empty load := by
  unfold Cached.Holds at h ⊢
  cases hv : table.range with
  | none =>
    rw [hv] at h
    exact h
  | some range =>
    rw [hv] at h
    obtain ⟨hle, hlt, hresults⟩ := h
    exact ⟨hle, hlt.trans_le hlater.length_le,
      hresults.mono fun _ hw => between_later hlater hw⟩

theorem Cached.Moves.refl (table : Cached α) : table.Moves table := Or.inl rfl

theorem Cached.Fresh.moves {first : Nat} (h : table.Fresh first) (hmoves : table.Moves table') :
    table'.Fresh first := by
  rcases hmoves with rfl | ⟨since', last', hrange', hle', hbefore⟩
  · exact h
  · obtain ⟨since, last, hrange, hle, hfirst⟩ := h
    exact ⟨since', last', hrange', hle',
      hfirst.trans (hle.trans (hbefore since last hrange))⟩

theorem Cached.Fresh.anti {first first' : Nat} (hle : first ≤ first') (h : table.Fresh first') :
    table.Fresh first := by
  obtain ⟨since, last, hrange, hle', hfirst⟩ := h
  exact ⟨since, last, hrange, hle', hle.trans hfirst⟩

/-- At the time of a write a query has found one of the versions since the start. -/
theorem between_write {first : Nat} {w : World} (hlater : history <+: later)
    (h : Between history first (history.length - 1) w) :
    Between later first (later.length - 1) w := by
  obtain ⟨n, hfirst, hlast, hw⟩ := between_later hlater h
  have hlength := hlater.length_le
  exact ⟨n, hfirst, by omega, hw⟩

/-- **A write** of what a load has returned since the start of its warm-up. -/
theorem Cached.holds_write {older : List World} {w : World} {load' : Queries World α}
    (htable : table.Holds (older ++ [w]) empty load') (hstart : older ++ [w] <+: history)
    {value : α} (hvalue : load.Results (Between history older.length (history.length - 1)) value)
    (hlater : history <+: later) :
    let written : Cached α := ⟨value, some (older.length, later.length - 1)⟩
    written.Holds later empty load ∧ table.Moves written ∧ written.Fresh older.length := by
  have hstartLength := hstart.length_le
  have hlaterLength := hlater.length_le
  rw [List.length_append, List.length_singleton] at hstartLength
  have hle : older.length ≤ later.length - 1 := by omega
  refine ⟨⟨hle, by omega, hvalue.mono fun u hu => between_write hlater hu⟩,
    Or.inr ⟨_, _, rfl, hle, fun since last hrange => ?_⟩, ⟨_, _, rfl, hle, le_refl _⟩⟩
  unfold Cached.Holds at htable
  rw [hrange] at htable
  have hlt := htable.2.1
  rw [List.length_append, List.length_singleton] at hlt
  omega

@[simp] theorem Cached.refresh_value (table : Cached (Option α)) (range : Nat × Nat)
    (refreshed : Option α) : (table.refresh range refreshed).value = refreshed.or table.value := by
  cases refreshed with
  | none => rfl
  | some refreshed => rfl

/-- A write of an entry, if the load has one. -/
theorem Cached.refresh_write {older : List World} {w : World} {load : Queries World (Option α)}
    {table : Cached (Option α)} (htable : table.Holds (older ++ [w]) none load)
    (hstart : older ++ [w] <+: history) {refreshed : Option α}
    (hrefreshed : ∀ a, refreshed = some a →
      load.Results (Between history older.length (history.length - 1)) (some a))
    (hlater : history <+: later) :
    let written := table.refresh (older.length, later.length - 1) refreshed
    written.Holds later none load ∧ table.Moves written := by
  cases refreshed with
  | none => exact ⟨htable.mono (hstart.trans hlater), .refl table⟩
  | some a =>
    obtain ⟨hholds, hmove, -⟩ := Cached.holds_write htable hstart (hrefreshed a rfl) hlater
    exact ⟨hholds, hmove⟩

end Tables

/-- **What `PerEpochCache::load` returns**: a new entry is of its own queries, and without an
error in the log the label is the last epoch that the check has found. -/
theorem results_queryPerEpoch {V : World → Prop} {cached refreshed : Option PerEpochCache}
    {errors : List PerEpochError} (h : (queryPerEpoch cached).Results V (refreshed, errors)) :
    (∀ entry, refreshed = some entry → queryNewPerEpoch.Results V (some entry)) ∧
      (errors = [] → ∃ w, V w ∧ ∀ epoch, loadLastBigqueryEpoch w.bigQuery = some epoch →
        (refreshed.or cached).map PerEpochCache.epoch = some epoch) := by
  unfold queryPerEpoch at h
  -- a load that has logged an error returns nothing
  have hlogged : ∀ error log, (none, error :: log) = (refreshed, errors) →
      (∀ entry, refreshed = some entry → queryNewPerEpoch.Results V (some entry)) ∧
        (errors = [] → ∃ w, V w ∧ ∀ epoch, loadLastBigqueryEpoch w.bigQuery = some epoch →
          (refreshed.or cached).map PerEpochCache.epoch = some epoch) := by
    rintro error log ⟨⟩
    exact ⟨fun _ hentry => (nomatch hentry), fun herrors => (nomatch herrors)⟩
  obtain ⟨found, hfound, h⟩ := results_bind.mp h
  cases found with
  | none => exact hlogged _ _ h
  | some found =>
    have hlast := results_attempt_some.mp hfound
    obtain ⟨w, hw, hread⟩ := results_ask.mp hlast
    obtain rfl := Option.some.inj hread
    cases hlastEpoch : loadLastBigqueryEpoch w.bigQuery with
    | none =>
      rw [hlastEpoch] at h
      obtain ⟨rfl, rfl⟩ := Prod.mk.inj h
      exact ⟨fun _ hentry => (nomatch hentry), fun _ => ⟨w, hw, by simp [hlastEpoch]⟩⟩
    | some lastEpoch =>
      rw [hlastEpoch] at h hlast
      dsimp only at h
      by_cases hhit : cached.map PerEpochCache.epoch = some lastEpoch
      · rw [if_pos hhit] at h
        obtain ⟨rfl, rfl⟩ := Prod.mk.inj h
        exact ⟨fun _ hentry => (nomatch hentry), fun _ => ⟨w, hw, by simp [hlastEpoch, hhit]⟩⟩
      · rw [if_neg hhit] at h
        obtain ⟨delegators, hdelegators, h⟩ := results_bind.mp h
        obtain ⟨takeRates, htakeRates, h⟩ := results_bind.mp h
        cases delegators with
        | none =>
          cases takeRates with
          | none => exact hlogged _ _ h
          | some takeRates => exact hlogged _ _ h
        | some delegators =>
          cases takeRates with
          | none => exact hlogged _ _ h
          | some takeRates =>
            obtain ⟨rfl, rfl⟩ := Prod.mk.inj h
            refine ⟨?_, fun _ => ⟨w, hw, by simp [hlastEpoch]⟩⟩
            rintro entry ⟨⟩
            refine results_bind.mpr ⟨_, hlast, ?_⟩
            refine results_bind.mpr ⟨_, results_attempt_some.mp hdelegators, ?_⟩
            exact results_bind.mpr ⟨_, results_attempt_some.mp htakeRates, rfl⟩

/-! ## Every warm-up is sound -/

section Sound

variable {powf : Rat → Rat → Rat}

theorem CacheMoves.refl (cache : Cache) : CacheMoves cache cache where
  perEpoch := .refl _
  validators := .refl _
  commissions := .refl _
  versions := .refl _
  uptimes := .refl _
  clusterStats := .refl _
  singleRunScores := .refl _
  multiRunScores := .refl _

theorem CacheHolds.mono {history later : List World} {cache : Cache} (hlater : history <+: later)
    (h : CacheHolds powf history cache) : CacheHolds powf later cache where
  perEpoch := h.perEpoch.mono hlater
  label since last hrange herrors := by
    obtain ⟨w, hw, hlabel⟩ := h.label since last hrange herrors
    exact ⟨w, between_later hlater hw, hlabel⟩
  validators := h.validators.mono hlater
  aggregated := h.aggregated
  commissions := h.commissions.mono hlater
  versions := h.versions.mono hlater
  uptimes := h.uptimes.mono hlater
  clusterStats := h.clusterStats.mono hlater
  singleRunScores := h.singleRunScores.mono hlater
  multiRunScores := h.multiRunScores.mono hlater

theorem WarmFunction.Fresh.moves {i : WarmFunction} {first : Nat} {cache cache' : Cache}
    (hmoves : CacheMoves cache cache') (h : i.Fresh first cache) : i.Fresh first cache' := by
  cases i with
  | warmScoresCache =>
    exact ⟨h.1.moves hmoves.singleRunScores, h.2.moves hmoves.multiRunScores⟩
  | warmVersionsCache => exact Cached.Fresh.moves h hmoves.versions
  | warmCommissionsCache => exact Cached.Fresh.moves h hmoves.commissions
  | warmUptimesCache => exact Cached.Fresh.moves h hmoves.uptimes
  | warmClusterStatsCache => exact Cached.Fresh.moves h hmoves.clusterStats
  | warmValidatorsCache => exact Cached.Fresh.moves h hmoves.validators

theorem WarmFunction.Fresh.anti {i : WarmFunction} {first first' : Nat} {cache : Cache}
    (hle : first ≤ first') (h : i.Fresh first' cache) : i.Fresh first cache := by
  cases i with
  | warmScoresCache => exact ⟨h.1.anti hle, h.2.anti hle⟩
  | _ => exact Cached.Fresh.anti hle h

abbrev SoundWarmUp (powf : Rat → Rat → Rat) (i : WarmFunction) (load : Load World Cache) : Prop :=
  SoundLoad CacheMoves (CacheHolds powf) WarmFunction.Fresh i load

/-- A warm-up of one table: what is to be shown of the cache after its write. -/
theorem soundLoad_warmTable {i : WarmFunction} {α : Type} {load : Queries World α}
    {set : Cached α → Cache → Cache} {get : Cache → Cached α} {empty : α}
    (hget : ∀ {history cache}, CacheHolds powf history cache →
      (get cache).Holds history empty load)
    (hset : ∀ {history cache table}, CacheHolds powf history cache →
      table.Holds history empty load → CacheHolds powf history (set table cache))
    (hmoves : ∀ {cache table}, (get cache).Moves table → CacheMoves cache (set table cache))
    (hfresh : ∀ {cache table first}, table.Fresh first → i.Fresh first (set table cache)) :
    SoundWarmUp powf i (warmTable load set) := by
  intro older w cache hcache history hstart writes hwrites
  unfold warmTable at hwrites
  simp only [results_bind, results_pure] at hwrites
  obtain ⟨value, hvalue, rfl⟩ := hwrites
  intro later hlater
  obtain ⟨hholds, hmove, hfirst⟩ := Cached.holds_write (hget hcache) hstart hvalue hlater
  have hcache := hcache.mono (hstart.trans hlater)
  exact ⟨hmoves hmove, hset hcache hholds, hfresh hfirst⟩

theorem sound_warmVersionsCache : SoundWarmUp powf .warmVersionsCache warmVersionsCache :=
  soundLoad_warmTable (fun h => h.versions)
    (fun h htable => { h with versions := htable })
    (fun h => { CacheMoves.refl _ with versions := h }) fun h => h

theorem sound_warmCommissionsCache :
    SoundWarmUp powf .warmCommissionsCache warmCommissionsCache :=
  soundLoad_warmTable (fun h => h.commissions)
    (fun h htable => { h with commissions := htable })
    (fun h => { CacheMoves.refl _ with commissions := h }) fun h => h

theorem sound_warmUptimesCache : SoundWarmUp powf .warmUptimesCache warmUptimesCache :=
  soundLoad_warmTable (fun h => h.uptimes)
    (fun h htable => { h with uptimes := htable })
    (fun h => { CacheMoves.refl _ with uptimes := h }) fun h => h

theorem sound_warmClusterStatsCache :
    SoundWarmUp powf .warmClusterStatsCache warmClusterStatsCache :=
  soundLoad_warmTable (fun h => h.clusterStats)
    (fun h htable => { h with clusterStats := htable })
    (fun h => { CacheMoves.refl _ with clusterStats := h }) fun h => h

/-- There may be new versions between the two writes. -/
theorem sound_warmScoresCache : SoundWarmUp powf .warmScoresCache warmScoresCache := by
  intro older w cache hcache history hstart writes hwrites
  unfold warmScoresCache at hwrites
  simp only [results_bind, results_pure] at hwrites
  obtain ⟨⟨single, multi⟩, hvalue, rfl⟩ := hwrites
  intro later hlater
  have hsingle : (Prod.fst <$> queryScores).Results
      (Between history older.length (history.length - 1)) single := by
    rw [map_eq_pure_bind]
    exact results_bind.mpr ⟨_, hvalue, rfl⟩
  obtain ⟨hholds, hmove, hfirst⟩ :=
    Cached.holds_write hcache.singleRunScores hstart hsingle hlater
  have hcache₁ := hcache.mono (hstart.trans hlater)
  refine ⟨{ CacheMoves.refl cache with singleRunScores := hmove },
    { hcache₁ with singleRunScores := hholds }, fun later' hlater' => ?_⟩
  have hmulti : (Prod.snd <$> queryScores).Results
      (Between history older.length (history.length - 1)) multi := by
    rw [map_eq_pure_bind]
    exact results_bind.mpr ⟨_, hvalue, rfl⟩
  obtain ⟨hholds', hmove', hfirst'⟩ :=
    Cached.holds_write hcache.multiRunScores hstart hmulti (hlater.trans hlater')
  have hcache₂ := hcache₁.mono hlater'
  exact ⟨{ CacheMoves.refl _ with multiRunScores := hmove' },
    { hcache₂ with
      singleRunScores := hholds.mono hlater'
      multiRunScores := hholds' }, hfirst, hfirst'⟩

/-- The take rates and the delegators of the load are those that are written with it. -/
theorem sound_warmValidatorsCache :
    SoundWarmUp powf .warmValidatorsCache (warmValidatorsCache powf) := by
  intro older w cache hcache history hstart writes hwrites
  unfold warmValidatorsCache at hwrites
  simp only [results_bind, results_pure] at hwrites
  obtain ⟨⟨refreshed, errors⟩, hrefreshed, validators, hvalue, rfl⟩ := hwrites
  intro later hlater
  obtain ⟨hnew, hlabel⟩ := results_queryPerEpoch hrefreshed
  obtain ⟨hholds, hmove, hfirst⟩ := Cached.holds_write hcache.validators hstart hvalue hlater
  obtain ⟨hentry, hmoveEntry⟩ := Cached.refresh_write hcache.perEpoch hstart hnew hlater
  have hcache := hcache.mono (hstart.trans hlater)
  refine ⟨{ CacheMoves.refl _ with perEpoch := hmoveEntry, validators := hmove },
    { hcache with
      perEpoch := hentry
      label := ?_
      validators := ?_
      aggregated := rfl }, hfirst⟩
  · rintro since last hrange herrors
    obtain ⟨w, hw, hepoch⟩ := hlabel herrors
    obtain ⟨rfl, rfl⟩ := Prod.mk.inj (Option.some.inj hrange)
    refine ⟨w, between_write hlater hw, ?_⟩
    rw [Cached.refresh_value]
    exact hepoch
  · rw [Cached.refresh_value]
    exact hholds

theorem soundLoads_warmFunctions :
    SoundLoads CacheMoves (CacheHolds powf) WarmFunction.Fresh (warmFunctions powf) where
  refl := CacheMoves.refl
  later hlater h := h.mono hlater
  stays hmoves h := h.moves hmoves
  since hle h := h.anti hle
  sound j hj := by
    simp only [warmFunctions, List.mem_cons, List.not_mem_nil, or_false] at hj
    rcases hj with rfl | rfl | rfl | rfl | rfl | rfl
    · exact sound_warmScoresCache
    · exact sound_warmVersionsCache
    · exact sound_warmCommissionsCache
    · exact sound_warmUptimesCache
    · exact sound_warmClusterStatsCache
    · exact sound_warmValidatorsCache

end Sound

/-- Fresh validators have been loaded after a check of `perEpoch`. -/
theorem CacheHolds.labelOf {powf : Rat → Rat → Rat} {older : List World} {w : World}
    {cache : Cache} (h : CacheHolds powf (older ++ [w]) cache) {first : Nat}
    (hfresh : cache.validators.Fresh first) :
    cache.perEpochErrors ≠ [] ∨ cache.LabelOf (Between (older ++ [w]) first older.length) := by
  obtain ⟨since, last, hrange, hle, hfirst⟩ := hfresh
  by_cases herrors : cache.perEpochErrors = []
  · obtain ⟨u, ⟨n, hsince, hlast, hu⟩, hlabel⟩ := h.label since last hrange herrors
    have hlt := (List.getElem?_eq_some_iff.mp hu).1
    rw [List.length_append, List.length_singleton] at hlt
    exact Or.inr ⟨u, ⟨n, hfirst.trans hsince, by omega, hu⟩, hlabel⟩
  · exact Or.inl herrors

/-- A load of one query is a snapshot of one version. -/
theorem snapshot_of_holds {α : Type} {history : List World} {empty : α}
    {read : World → Option α} {table : Cached α} (h : table.Holds history empty (ask read)) :
    table.value = empty ∨ ∃ w ∈ history, read w = some table.value := by
  unfold Cached.Holds at h
  cases hrange : table.range with
  | none =>
    rw [hrange] at h
    exact Or.inl h
  | some range =>
    rw [hrange] at h
    obtain ⟨w, ⟨n, -, -, hw⟩, hread⟩ := results_ask.mp h.2.2
    exact Or.inr ⟨w, List.mem_of_getElem? hw, hread⟩

theorem cacheHolds_new (powf : Rat → Rat → Rat) (world : World) :
    CacheHolds powf [world] Cache.new where
  perEpoch := rfl
  label _ _ hrange := nomatch hrange
  validators := rfl
  aggregated := rfl
  commissions := rfl
  versions := rfl
  uptimes := rfl
  clusterStats := rfl
  singleRunScores := rfl
  multiRunScores := rfl

/-- **The tables of the cache** are in every state of every run empty or what their loads
return on the versions between the start of their warm-up and its write, and the aggregates are
those of the validators; a step leaves a table as it is or writes what a warm-up has loaded that
started after the last write of the table. -/
theorem cacheWarmer_snapshots (powf : Rat → Rat → Rat) (world : World)
    (moves : List (RefreshMove World)) :
    StatesAll (warmerStep powf) (fun s => CacheHolds powf s.versions s.cache ∧
      ∀ a s', warmerStep powf s a = some s' → CacheMoves s.cache s'.cache)
      (Refresher.init world Cache.new) moves :=
  (refresher_rule soundLoads_warmFunctions (cacheHolds_new powf world) moves).mono
    fun _ h => ⟨h.1, h.2.2⟩

/-- **No table is older than a round** without an error in the log: when the warmer sleeps, each
of its functions has failed in this round or has left tables of which its queries have found
nothing before the round. The entry `per_epoch` may be older, with the label that a check in
this round has found or an error of that check in the log. -/
theorem cacheWarmer_fresh (powf : Rat → Rat → Rat) (world : World)
    (moves : List (RefreshMove World)) :
    StatesAll (warmerStep powf) (fun s => s.phase = .sleeping → s.ended ≠ [] →
      (∀ i : WarmFunction, (i, false) ∈ s.ended ∨ i.Fresh s.roundStart s.cache) ∧
      ((.warmValidatorsCache, false) ∈ s.ended ∨ s.cache.perEpochErrors ≠ [] ∨
        s.cache.LabelOf (Between s.versions s.roundStart s.older.length)))
      (Refresher.init world Cache.new) moves := by
  refine (refresher_rule soundLoads_warmFunctions (cacheHolds_new powf world) moves).mono
    fun s h hsleeping hended => ?_
  obtain ⟨hholds, ⟨hfresh, hall⟩, -⟩ := h
  have hfunctions : ∀ i : WarmFunction, (i, false) ∈ s.ended ∨ i.Fresh s.roundStart s.cache := by
    intro i
    have hmem : i ∈ s.ended.map Prod.fst := by
      rw [hall hsleeping hended]
      cases i <;> simp [warmFunctions]
    obtain ⟨⟨i, ok⟩, hi, rfl⟩ := List.mem_map.mp hmem
    cases ok with
    | true => exact Or.inr (hfresh i hi)
    | false => exact Or.inl hi
  exact ⟨hfunctions, (hfunctions .warmValidatorsCache).imp_right hholds.labelOf⟩

/-! ## The loads on one version -/

section OneVersion

variable {powf : Rat → Rat → Rat} {w : World}

theorem runAt_queryLastEpoch : queryLastEpoch.runAt w = some (getLastEpoch w.db.toDatabase) :=
  runAt_ask _

theorem runAt_queryDcConcentrationStats (epochs : Nat) :
    (queryDcConcentrationStats epochs).runAt w =
      loadDcConcentrationStats w.scan epochs w.db.toDatabase := by
  unfold queryDcConcentrationStats loadDcConcentrationStats
  rw [runAt_bind, runAt_queryLastEpoch, Option.bind_some]
  cases getLastEpoch w.db.toDatabase with
  | none => rfl
  | some lastEpoch =>
    dsimp only
    rw [runAt_mapM]
    simp only [runAt_ask]

theorem runAt_queryBlockProductionStats (epochs : Nat) :
    (queryBlockProductionStats epochs).runAt w =
      loadBlockProductionStats epochs w.db.toDatabase := by
  unfold queryBlockProductionStats loadBlockProductionStats
  rw [runAt_bind, runAt_queryLastEpoch, Option.bind_some]
  cases getLastEpoch w.db.toDatabase with
  | none => rfl
  | some lastEpoch => exact runAt_ask _

/-- **`load_cluster_stats`** on one version. -/
theorem runAt_queryClusterStats (epochs : Nat) :
    (queryClusterStats epochs).runAt w = loadClusterStats w.scan epochs w.db.toDatabase := by
  unfold queryClusterStats loadClusterStats
  rw [runAt_bind, runAt_queryBlockProductionStats]
  congr 1
  funext blockProductionStats
  rw [runAt_bind, runAt_queryDcConcentrationStats]
  rfl

theorem runAt_queryTakeRates : queryTakeRates.runAt w = loadTakeRates w.scan w.rewards := by
  unfold queryTakeRates loadTakeRates
  rw [runAt_bind, runAt_ask, Option.bind_some]
  cases minEpoch w.rewards.epochs with
  | none => rfl
  | some minEpoch => exact runAt_ask _

/-- **`load_validators`** on one version. -/
theorem runAt_queryValidators (perEpoch : Option PerEpochCache) :
    (queryValidators powf perEpoch).runAt w =
      loadValidators (w.sources powf perEpoch) defaultCacheEpochs defaultComputingEpochs w.db := by
  unfold queryValidators loadValidators
  rw [runAt_bind, runAt_queryLastEpoch, Option.bind_some]
  cases hlast : getLastEpoch w.db.toDatabase with
  | none => rfl
  | some lastEpoch =>
    simp only [runAt_bind, runAt_ask, runAt_queryLastEpoch, runAt_queryDcConcentrationStats,
      Option.bind_some, hlast, Option.getD_some]
    unfold loopInputs updateLoadedRecords
    simp only [hlast, Option.getD_some, Option.bind_eq_bind, Option.bind_assoc, Option.bind_some]
    rfl

/-- The scores of a run, on one version. -/
theorem runAt_queryScores {scores : Dict String ValidatorScoreRecord}
    {multiRunScores : Dict Nat (List ValidatorScoreRecord)}
    (hscores : (match loadLastScoringRun w.scoringTables with
      | some run => loadScores w.scan w.scoringTables run.scoringRunId
      | none => some Dict.empty) = some scores)
    (hmulti : loadAllScores w.scan w.scoringTables = some multiRunScores) :
    queryScores.runAt w = some (⟨loadLastScoringRun w.scoringTables, scores⟩,
      ⟨some (loadScoringRuns w.scoringTables), multiRunScores⟩) := by
  have hlast : queryLastScoringRun.runAt w = some (loadLastScoringRun w.scoringTables) :=
    runAt_ask _
  unfold queryScores
  cases hrun : loadLastScoringRun w.scoringTables with
  | none =>
    rw [hrun] at hscores
    obtain rfl := Option.some.inj hscores
    simp only [runAt_bind, hlast, hrun, Option.bind_some, runAt_ask, hmulti, runAt_pure]
  | some run =>
    rw [hrun] at hscores
    simp only [runAt_bind, hlast, hrun, Option.bind_some, runAt_ask, hscores, hmulti, runAt_pure]

/-- `load_latest_unique_delegators`. -/
def loadLatestUniqueDelegators (bigQuery : BigQuery) : Dict String Nat :=
  match maxStakesEpoch bigQuery.stakes with
  | some maxEpoch => uniqueDelegators bigQuery.stakes maxEpoch
  | none => Dict.empty

theorem runAt_queryUniqueDelegators :
    queryUniqueDelegators.runAt w = some (loadLatestUniqueDelegators w.bigQuery) := by
  unfold queryUniqueDelegators loadLatestUniqueDelegators
  rw [runAt_bind, runAt_ask, Option.bind_some]
  cases maxStakesEpoch w.bigQuery.stakes with
  | none => rfl
  | some maxEpoch => exact runAt_ask _

/-- The entry after a check on one version: one with the label of the last epoch is kept, from
whichever version it is; else there is a new one. -/
structure PerEpochCurrent (w : World) (cached entry : Option PerEpochCache) : Prop where
  kept : (∀ epoch, loadLastBigqueryEpoch w.bigQuery = some epoch →
    cached.map PerEpochCache.epoch = some epoch) → entry = cached
  loaded : ∀ epoch, loadLastBigqueryEpoch w.bigQuery = some epoch →
    cached.map PerEpochCache.epoch ≠ some epoch →
      ∃ takeRates, loadTakeRates w.scan w.rewards = some takeRates ∧
        entry = some ⟨epoch, loadLatestUniqueDelegators w.bigQuery, takeRates⟩

/-- **`PerEpochCache::load`** on one version. -/
theorem runAt_queryPerEpoch (cached : Option PerEpochCache)
    (htakeRates : (loadTakeRates w.scan w.rewards).isSome) :
    ∃ refreshed, (queryPerEpoch cached).runAt w = some (refreshed, []) ∧
      PerEpochCurrent w cached (refreshed.or cached) := by
  obtain ⟨takeRates, htakeRates⟩ := Option.isSome_iff_exists.mp htakeRates
  unfold queryPerEpoch queryLastBigqueryEpoch
  rw [runAt_bind, runAt_attempt, runAt_ask, Option.bind_some]
  cases hlast : loadLastBigqueryEpoch w.bigQuery with
  | none =>
    refine ⟨none, rfl, fun _ => rfl, fun epoch hepoch => ?_⟩
    rw [hlast] at hepoch
    cases hepoch
  | some lastEpoch =>
    dsimp only
    by_cases hhit : cached.map PerEpochCache.epoch = some lastEpoch
    · rw [if_pos hhit]
      refine ⟨none, rfl, fun _ => rfl, fun epoch hepoch hmiss => ?_⟩
      rw [hlast] at hepoch
      exact absurd (hhit.trans hepoch) hmiss
    · rw [if_neg hhit]
      refine ⟨some ⟨lastEpoch, loadLatestUniqueDelegators w.bigQuery, takeRates⟩, ?_,
        fun hkept => absurd (hkept lastEpoch hlast) hhit, fun epoch hepoch _ => ?_⟩
      · simp only [runAt_bind, runAt_attempt, runAt_queryTakeRates, runAt_queryUniqueDelegators,
          htakeRates, Option.bind_some, runAt_pure]
      · rw [hlast] at hepoch
        obtain rfl := Option.some.inj hepoch
        exact ⟨takeRates, htakeRates, rfl⟩

end OneVersion

/-! ## When nothing changes -/

/-- All loads succeed on a version. -/
structure Loads (powf : Rat → Rat → Rat) (w : World) : Prop where
  uptimes : (loadUptimes w.scan w.nowUptimes defaultCacheEpochs w.db.toDatabase).isSome
  versions : (loadVersions w.scan defaultCacheEpochs w.db.toDatabase w.versions).isSome
  commissions : (loadCommissions w.scan w.nowCommissions defaultCacheEpochs
    w.db.toDatabase).isSome
  clusterStats : (loadClusterStats w.scan defaultCacheEpochs w.db.toDatabase).isSome
  scores : (match loadLastScoringRun w.scoringTables with
    | some run => loadScores w.scan w.scoringTables run.scoringRunId
    | none => some Dict.empty).isSome
  multiRunScores : (loadAllScores w.scan w.scoringTables).isSome
  takeRates : (loadTakeRates w.scan w.rewards).isSome
  validators : (loadValidators (w.sources powf none) defaultCacheEpochs defaultComputingEpochs
    w.db).isSome

/-- `load_validators` does not fail on the numbers from BigQuery. -/
theorem isSome_loadValidators (powf : Rat → Rat → Rat) (w : World)
    (perEpoch : Option PerEpochCache) (displayEpochs computingEpochs : Nat) :
    (loadValidators (w.sources powf perEpoch) displayEpochs computingEpochs w.db).isSome =
      (loadValidators (w.sources powf none) displayEpochs computingEpochs w.db).isSome := by
  unfold loadValidators
  cases getLastEpoch w.db.toDatabase with
  | none => rfl
  | some lastEpoch =>
    unfold updateLoadedRecords
    simp only [Option.bind_eq_bind, Option.isSome_bind, Option.isSome_some]
    rfl

/-- The cache is what the loads return on a version; `cached` is the entry `per_epoch` before. -/
structure Current (powf : Rat → Rat → Rat) (w : World) (cached : Option PerEpochCache)
    (cache : Cache) : Prop where
  uptimes : loadUptimes w.scan w.nowUptimes defaultCacheEpochs w.db.toDatabase =
    some cache.uptimes.value
  versions : loadVersions w.scan defaultCacheEpochs w.db.toDatabase w.versions =
    some cache.versions.value
  commissions : loadCommissions w.scan w.nowCommissions defaultCacheEpochs w.db.toDatabase =
    some cache.commissions.value
  clusterStats : (loadClusterStats w.scan defaultCacheEpochs w.db.toDatabase).map some =
    some cache.clusterStats.value
  scoringRun : cache.singleRunScores.value.scoringRun = loadLastScoringRun w.scoringTables
  scores : (match loadLastScoringRun w.scoringTables with
    | some run => loadScores w.scan w.scoringTables run.scoringRunId
    | none => some Dict.empty) = some cache.singleRunScores.value.scores
  scoringRuns : cache.multiRunScores.value.scoringRuns = some (loadScoringRuns w.scoringTables)
  multiRunScores : loadAllScores w.scan w.scoringTables = some cache.multiRunScores.value.scores
  perEpoch : PerEpochCurrent w cached cache.perEpoch.value
  perEpochErrors : cache.perEpochErrors = []
  validators : loadValidators (w.sources powf cache.perEpoch.value) defaultCacheEpochs
    defaultComputingEpochs w.db = some cache.validators.value
  aggregated : cache.validatorsAggregated = aggregated cache.validators.value

theorem loaded_warmTable {α : Type} {load : Queries World α} {set : Cached α → Cache → Cache}
    {w : World} {number : Nat} {cache : Cache} {value : α} (h : load.runAt w = some value) :
    Refresher.loaded w number cache (warmTable load set) =
      set ⟨value, some (number, number)⟩ cache := by
  unfold Refresher.loaded warmTable
  rw [runAt_bind, h]
  rfl

theorem loaded_warmScoresCache {w : World} {number : Nat} {cache : Cache}
    {single : CachedSingleRunScores} {multi : CachedMultiRunScores}
    (h : queryScores.runAt w = some (single, multi)) :
    Refresher.loaded w number cache warmScoresCache =
      { cache with
        singleRunScores := ⟨single, some (number, number)⟩
        multiRunScores := ⟨multi, some (number, number)⟩ } := by
  unfold Refresher.loaded warmScoresCache
  rw [runAt_bind, h]
  rfl

theorem loaded_warmValidatorsCache {powf : Rat → Rat → Rat} {w : World} {number : Nat}
    {cache : Cache} {cached refreshed : Option PerEpochCache}
    {validators : Dict String LoadedRecord} (hcached : cache.perEpoch.value = cached)
    (hperEpoch : (queryPerEpoch cached).runAt w = some (refreshed, []))
    (hvalidators : loadValidators (w.sources powf (refreshed.or cached))
      defaultCacheEpochs defaultComputingEpochs w.db = some validators) :
    Refresher.loaded w number cache (warmValidatorsCache powf) =
      { cache with
        perEpoch := cache.perEpoch.refresh (number, number) refreshed
        perEpochErrors := []
        validators := ⟨validators, some (number, number)⟩
        validatorsAggregated := aggregated validators } := by
  subst hcached
  unfold Refresher.loaded warmValidatorsCache
  rw [runAt_bind, hperEpoch, Option.bind_some, runAt_bind, runAt_queryValidators, hvalidators]
  rfl

/-- **The cache catches up**: when nothing changes any more, no query fails and all loads
succeed, the warmer's next round ends, and the cache is what the loads return, with the entry
`per_epoch` from before the round if its label is the last epoch of BigQuery. -/
theorem cacheWarmer_catchesUp (powf : Rat → Rat → Rat)
    (s : Refresher World Cache WarmFunction) (hsleeping : s.phase = .sleeping)
    (hloads : Loads powf s.db) :
    ∃ n s', exec (warmerStep powf) s (List.replicate n .next) = some s' ∧
      s'.phase = .sleeping ∧ s'.versions = s.versions ∧
        Current powf s.db s.cache.perEpoch.value s'.cache := by
  obtain ⟨n, s', hexec, hsleeping', hversions, hcache⟩ :=
    Refresher.exec_round (warmFunctions powf) hsleeping
  refine ⟨n, s', hexec, hsleeping', hversions, ?_⟩
  obtain ⟨uptimes, huptimes⟩ := Option.isSome_iff_exists.mp hloads.uptimes
  obtain ⟨versions, hversions⟩ := Option.isSome_iff_exists.mp hloads.versions
  obtain ⟨commissions, hcommissions⟩ := Option.isSome_iff_exists.mp hloads.commissions
  obtain ⟨clusterStats, hclusterStats⟩ := Option.isSome_iff_exists.mp hloads.clusterStats
  obtain ⟨scores, hscores⟩ := Option.isSome_iff_exists.mp hloads.scores
  obtain ⟨multiRunScores, hmulti⟩ := Option.isSome_iff_exists.mp hloads.multiRunScores
  obtain ⟨refreshed, hrefreshed, hentry⟩ :=
    runAt_queryPerEpoch s.cache.perEpoch.value hloads.takeRates
  obtain ⟨validators, hvalidators⟩ := Option.isSome_iff_exists.mp
    ((isSome_loadValidators powf s.db (refreshed.or s.cache.perEpoch.value) _ _).trans
      hloads.validators)
  have hcluster : (some <$> queryClusterStats defaultCacheEpochs).runAt s.db =
      some (some clusterStats) := by
    rw [map_eq_pure_bind, runAt_bind, runAt_queryClusterStats, hclusterStats]
    rfl
  have hversionsAt : queryVersions.runAt s.db = some versions := (runAt_ask _).trans hversions
  have hcommissionsAt : queryCommissions.runAt s.db = some commissions :=
    (runAt_ask _).trans hcommissions
  have huptimesAt : queryUptimes.runAt s.db = some uptimes := (runAt_ask _).trans huptimes
  -- the tables are written one after the other, and only the last load reads the cache
  unfold warmFunctions at hcache
  dsimp only [List.foldl_cons, List.foldl_nil] at hcache
  rw [loaded_warmScoresCache (runAt_queryScores hscores hmulti), warmVersionsCache,
    loaded_warmTable hversionsAt, warmCommissionsCache, loaded_warmTable hcommissionsAt,
    warmUptimesCache, loaded_warmTable huptimesAt, warmClusterStatsCache,
    loaded_warmTable hcluster, loaded_warmValidatorsCache ?_ hrefreshed hvalidators] at hcache
  swap
  · rfl
  rw [← Cached.refresh_value s.cache.perEpoch (s.older.length, s.older.length)]
    at hentry hvalidators
  rw [hcache]
  exact
    { uptimes := huptimes
      versions := hversions
      commissions := hcommissions
      clusterStats := congrArg (Option.map some) hclusterStats
      scoringRun := rfl
      scores := hscores
      scoringRuns := rfl
      multiRunScores := hmulti
      perEpoch := hentry
      perEpochErrors := rfl
      validators := hvalidators
      aggregated := rfl }

/-- A world with one validator, before the first scores. -/
def openWorld : World where
  db :=
    { openDatabase with
      mev := []
      jitoPriorityFee := []
      validatorsKey := openDatabase_key
      epochsKey := List.nodup_nil }
  versions := [⟨"vote", some "1.18.0", 10, 500, 0⟩]
  scoringTables := .empty
  bigQuery := epochNine
  rewards := oneStake []
  loadScoresInEpochs _ _ := some Dict.empty
  scan := .sequential
  now := 0
  nowAt _ _ := 0
  nowUptimes _ := ⟨0, 0⟩
  nowCommissions _ := ⟨0, 0⟩

theorem openWorld_loads : Loads (fun x _ => x) openWorld where
  uptimes := by decide
  versions := by decide
  commissions := by decide
  clusterStats := by decide
  scores := by decide
  multiRunScores := by decide
  takeRates := by decide +kernel
  validators := by decide

theorem cacheWarmer_catchesUp_openWorld :
    ∃ n s', exec (warmerStep fun x _ => x) (Refresher.init openWorld Cache.new)
        (List.replicate n .next) = some s' ∧
      s'.phase = .sleeping ∧ s'.versions = [openWorld] ∧
        Current (fun x _ => x) openWorld none s'.cache :=
  cacheWarmer_catchesUp _ (Refresher.init openWorld Cache.new) rfl openWorld_loads

end DelegationStrategy.Api
