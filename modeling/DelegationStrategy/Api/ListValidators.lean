import DelegationStrategy.Store.ValidatorRecords

/-!
# The response of `/validators`

The two parts of the response of `api/src/handlers/list_validators.rs`. Each part is cut
off by itself: the stats of a validator at the last epoch of the *filtered* validators less
the number of epochs, the aggregates after this number of entries.

The two windows agree (`epochs_listed`): a filtered validator has stats for the last epoch
of all validators, and of the epochs that follow each other at most the number of the
window can stand before its oldest one.
-/

namespace DelegationStrategy.Api

open DelegationStrategy.Lib DelegationStrategy.Collect DelegationStrategy.Store

/-- `MIN_REQUIRED_EPOCHS_IN_THE_PAST`. -/
def minRequiredEpochsInThePast : Nat := 1

/-- `MIN_REQUIRED_EPOCHS_WITH_CREDITS_OR_STAKE`. -/
def minRequiredEpochsWithCreditsOrStake : Nat := 1

/-- `DEFAULT_EPOCHS`. -/
def defaultEpochs : Nat := 15

/-- `DEFAULT_LIMIT`. -/
def defaultLimit : Nat := 100

inductive OrderField where
  | stake
  | credits
  | marinadeScore
  | apy
  | commission
  | uptime
  deriving DecidableEq, Repr

inductive OrderDirection where
  | asc
  | desc
  deriving DecidableEq, Repr

/-- `DEFAULT_ORDER_FIELD`. -/
def defaultOrderField : OrderField := .stake

/-- `DEFAULT_ORDER_DIRECTION`. -/
def defaultOrderDirection : OrderDirection := .desc

structure QueryParams where
  epochs : Option Nat := none
  query : Option String := none
  queryFromDate : Option Timestamp := none
  queryVoteAccounts : Option String := none
  queryIdentities : Option String := none
  orderField : Option OrderField := none
  orderDirection : Option OrderDirection := none
  querySuperminority : Option Bool := none
  queryScore : Option Bool := none
  queryMarinadeStake : Option Bool := none
  queryWithNames : Option Bool := none
  querySfdp : Option Bool := none
  queryIncidentFree : Option Bool := none
  searchProperties : Option Bool := none
  offset : Option Nat := none
  limit : Option Nat := none
  deriving DecidableEq, Repr

structure GetValidatorsConfig where
  orderDirection : OrderDirection
  orderField : OrderField
  offset : Nat
  limit : Nat
  query : Option String
  queryIdentities : Option (List String)
  queryVoteAccounts : Option (List String)
  querySuperminority : Option Bool
  queryScore : Option Bool
  queryMarinadeStake : Option Bool
  queryWithNames : Option Bool
  querySfdp : Option Bool
  queryIncidentFree : Option Bool
  searchProperties : Option Bool
  queryFromDate : Option Timestamp
  epochs : Nat
  deriving DecidableEq, Repr

def QueryParams.config (params : QueryParams) : GetValidatorsConfig where
  orderDirection := params.orderDirection.getD defaultOrderDirection
  orderField := params.orderField.getD defaultOrderField
  offset := params.offset.getD 0
  limit := params.limit.getD defaultLimit
  query := params.query
  queryVoteAccounts := params.queryVoteAccounts.map fun i => i.splitOn ","
  queryIdentities := params.queryIdentities.map fun i => i.splitOn ","
  querySuperminority := params.querySuperminority
  queryScore := params.queryScore
  queryMarinadeStake := params.queryMarinadeStake
  queryWithNames := params.queryWithNames
  querySfdp := params.querySfdp
  queryIncidentFree := params.queryIncidentFree
  searchProperties := params.searchProperties
  queryFromDate := params.queryFromDate
  epochs := params.epochs.getD defaultEpochs

/-! ## `get_validators` -/

/-- The epochs of a `first..=last`. -/
def epochsRange (first last : Nat) : List Nat := List.range' first (last + 1 - first)

/-- The validator has stats for the last epochs. -/
def hasRequiredStats (lastEpoch : Nat) (validator : ValidatorRecord) : Bool :=
  (epochsRange (lastEpoch - minRequiredEpochsInThePast) lastEpoch).all fun epoch =>
    validator.epochStats.any fun epochStat => epochStat.epoch = epoch

/-- The validator has credits or active stake in the last epochs. -/
def hasCreditsOrStake (lastEpoch : Nat) (validator : ValidatorRecord) : Bool :=
  (epochsRange (lastEpoch - minRequiredEpochsWithCreditsOrStake) lastEpoch).all fun epoch =>
    (validator.epochStats.find? fun epochStat => epochStat.epoch = epoch).any fun epochStat =>
      0 < epochStat.activatedStake ∨ 0 < epochStat.credits

section Filter

-- `str::to_lowercase`, by the tables of Unicode
variable (toLowercase : String → String)

/-- `s.to_lowercase().contains(&query)`. -/
def containsLowercase (query s : String) : Bool :=
  query.toList <:+: (toLowercase s).toList

def matchesQuery (searchProperties : Bool) (query : String) (v : ValidatorRecord) : Bool :=
  let found (field : Option String) := field.any (containsLowercase toLowercase query)
  containsLowercase toLowercase query v.voteAccount ||
    containsLowercase toLowercase query v.identity || found v.infoName ||
    (searchProperties && (found v.dcCountry || found v.dcCity || found v.dcFullCity))

/-- What the optional parameters demand; without a parameter nothing. -/
def matchesParams (config : GetValidatorsConfig) (e : String × ValidatorRecord) : Bool :=
  (config.querySfdp.isNone || 0 < e.2.foundationStake) &&
  (config.queryVoteAccounts.all fun voteAccounts => voteAccounts.contains e.1) &&
  (config.queryIdentities.all fun identities => identities.contains e.2.identity) &&
  (config.query.all fun query =>
    matchesQuery toLowercase (config.searchProperties.getD false) (toLowercase query) e.2) &&
  (config.querySuperminority.all fun q => e.2.superminority = q) &&
  (config.queryMarinadeStake.all fun q => decide (0 < e.2.marinadeStake) = q) &&
  (config.queryWithNames.all fun q => q = e.2.infoName.isSome) &&
  (config.queryScore.all fun q => decide (0 < e.2.score.getD 0) = q) &&
  config.queryIncidentFree.all fun q => e.2.incidents.isEmpty = q

/-- The last epoch of any validator. -/
def lastEpochOf (validators : Dict String ValidatorRecord) : Nat :=
  ((allEpochStats validators).map ValidatorEpochStats.epoch).max?.getD 0

/-- `filter_validators`, in the order of an iteration over the hash map. -/
def filterValidators (scan : Scan) (config : GetValidatorsConfig)
    (validators : Dict String ValidatorRecord) : List ValidatorRecord :=
  let lastEpoch := lastEpochOf validators
  (scan.order (validators.entries.filter fun e =>
    hasRequiredStats lastEpoch e.2 && hasCreditsOrStake lastEpoch e.2 &&
      matchesParams toLowercase config e)).map Prod.snd

/-- `get_field_extractor`. -/
def fieldExtractor : OrderField → ValidatorRecord → Int
  | .stake, a => a.activatedStake
  | .credits, a => a.credits
  | .marinadeScore, a => toFixedForSort (a.score.getD 0)
  | .apy, a => toFixedForSort (a.avgApy.getD 0)
  | .commission, a => a.commissionMaxObserved.getD 100
  | .uptime, a => toFixedForSort (a.avgUptimePct.getD 0)

/-- `validators.sort_by`: equal ones keep their order. -/
def sortValidators (config : GetValidatorsConfig) (validators : List ValidatorRecord) :
    List ValidatorRecord :=
  match config.orderDirection with
  | .asc => validators.insertionSort fun a b =>
      fieldExtractor config.orderField a ≤ fieldExtractor config.orderField b
  | .desc => validators.insertionSort fun a b =>
      fieldExtractor config.orderField b ≤ fieldExtractor config.orderField a

/-- The stats of a validator that the response has. -/
def listedStats (config : GetValidatorsConfig) (minEpoch : Nat)
    (epochStats : List ValidatorEpochStats) : List ValidatorEpochStats :=
  match config.queryFromDate with
  | some fromDate => epochStats.filter fun es => es.epochStartAt.any fun start => fromDate < start
  | none => epochStats.filter fun es => minEpoch ≤ es.epoch

/-- `get_validators`, with the validators that it reads from the cache. -/
def getValidators (scan : Scan) (config : GetValidatorsConfig)
    (cached : Dict String ValidatorRecord) : List ValidatorRecord :=
  let validators := sortValidators config (filterValidators toLowercase scan config cached)
  let maxEpoch := ((validators.flatMap ValidatorRecord.epochStats).map
    ValidatorEpochStats.epoch).max?.getD 0
  let minEpoch := maxEpoch + 1 - config.epochs
  ((validators.drop config.offset).take config.limit).map fun v =>
    { v with epochStats := listedStats config minEpoch v.epochStats }

end Filter

/-! ## The response -/

structure ResponseValidators where
  validators : List ValidatorRecord
  validatorsAggregated : List ValidatorsAggregated
  deriving DecidableEq, Repr

/-- What the handler makes of the aggregates that it reads from the cache. -/
def listedAggregates (params : QueryParams) (aggregated : List ValidatorsAggregated) :
    List ValidatorsAggregated :=
  match params.queryFromDate with
  | some fromDate => aggregated.filter fun v => v.epochStartDate.any fun start => fromDate < start
  | none => aggregated.take (params.epochs.getD defaultEpochs)

/-! ## The windows -/

section Windows

variable {toLowercase : String → String} {scan : Scan} {config : GetValidatorsConfig}
  {cached : Dict String ValidatorRecord}

theorem le_lastEpochOf {stats : ValidatorEpochStats} (h : stats ∈ allEpochStats cached) :
    stats.epoch ≤ lastEpochOf cached :=
  List.le_max?_getD_of_mem (List.mem_map_of_mem h)

/-- A filtered validator is one of the cache, with stats for the last epoch. -/
theorem mem_filterValidators {v : ValidatorRecord}
    (h : v ∈ filterValidators toLowercase scan config cached) :
    (∃ e ∈ cached.entries, e.2 = v) ∧ ∃ stats ∈ v.epochStats, stats.epoch = lastEpochOf cached := by
  obtain ⟨e, he, rfl⟩ := List.mem_map.mp h
  obtain ⟨hentry, hkept⟩ := List.mem_filter.mp (scan.mem_order.mp he)
  refine ⟨⟨e, hentry, rfl⟩, ?_⟩
  simp only [Bool.and_eq_true] at hkept
  have hlast : lastEpochOf cached ∈
      epochsRange (lastEpochOf cached - minRequiredEpochsInThePast) (lastEpochOf cached) := by
    unfold epochsRange
    rw [List.mem_range'_1]
    omega
  obtain ⟨stats, hstats, heq⟩ :=
    List.any_eq_true.mp (List.all_eq_true.mp hkept.1.1 _ hlast)
  exact ⟨stats, hstats, of_decide_eq_true heq⟩

theorem mem_sortValidators {validators : List ValidatorRecord} {v : ValidatorRecord} :
    v ∈ sortValidators config validators ↔ v ∈ validators := by
  unfold sortValidators
  split
  · exact List.mem_insertionSort _
  · exact List.mem_insertionSort _

/-- **A validator of the response** is one of the cache; without a date its stats are those
of the last `epochs` epochs of the cache. -/
theorem mem_getValidators {v : ValidatorRecord}
    (h : v ∈ getValidators toLowercase scan config cached) (hdate : config.queryFromDate = none) :
    ∀ stats ∈ v.epochStats, stats ∈ allEpochStats cached ∧
      lastEpochOf cached < stats.epoch + config.epochs := by
  obtain ⟨v, hv, rfl⟩ := List.mem_map.mp h
  have hmem := List.mem_of_mem_drop (List.mem_of_mem_take hv)
  obtain ⟨⟨e, he, rfl⟩, last, hlast, hepoch⟩ := mem_filterValidators (mem_sortValidators.mp hmem)
  intro stats hstats
  simp only [listedStats, hdate] at hstats
  obtain ⟨hstats, hmin⟩ := List.mem_filter.mp hstats
  refine ⟨mem_allEpochStats.mpr ⟨e, he, hstats⟩, ?_⟩
  -- the last epoch of all validators is one of the filtered ones
  have hmax := List.le_max?_getD_of_mem (k := 0)
    (List.mem_map_of_mem (f := ValidatorEpochStats.epoch)
      (List.mem_flatMap.mpr ⟨e.2, hmem, hlast⟩))
  rw [hepoch] at hmax
  have hle := of_decide_eq_true hmin
  omega

/-- **The windows agree**: without a date the epochs of the listed validators are among
those of the listed aggregates, if both are of the same records. -/
theorem epochs_listed {params : QueryParams} {now : String → Nat → Timestamp}
    {v : ValidatorRecord} (h : v ∈ getValidators toLowercase scan params.config cached)
    (hdate : params.queryFromDate = none) {stats : ValidatorEpochStats}
    (hstats : stats ∈ v.epochStats) :
    stats.epoch ∈ (listedAggregates params (aggregateValidators now cached)).map
      ValidatorsAggregated.epoch := by
  obtain ⟨hmem, hwindow⟩ := mem_getValidators h hdate stats hstats
  unfold listedAggregates
  rw [hdate]
  dsimp only
  rw [List.map_take]
  refine mem_take_of_pairwise_gt (m := lastEpochOf cached) pairwise_aggregateValidators
    (fun epoch hepoch => ?_) (mem_aggregateValidators.mpr ⟨stats, hmem, rfl⟩) hwindow
  obtain ⟨stats', hstats', rfl⟩ := mem_aggregateValidators.mp hepoch
  exact le_lastEpochOf hstats'

end Windows

end DelegationStrategy.Api
