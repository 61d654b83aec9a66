import DelegationStrategy.Api.ContextLock
import DelegationStrategy.Api.ScoresCache
import DelegationStrategy.Store.CloseEpoch
import DelegationStrategy.Store.Scoring
import DelegationStrategy.Store.Uptime
import DelegationStrategy.Store.Validators
import DelegationStrategy.Store.System
import DelegationStrategy.Store.LastWriter
import DelegationStrategy.Store.Ruggers
import DelegationStrategy.Lib.Rounding
import DelegationStrategy.Lib.WaterFill
import DelegationStrategy.Scoring.Eligibility
import DelegationStrategy.Scoring.Targets
import DelegationStrategy.Scoring.Overflow
import DelegationStrategy.Scoring.Conservation
import DelegationStrategy.Scoring.Ineligible
import DelegationStrategy.Lib.Upsert
import DelegationStrategy.Store.Events
import DelegationStrategy.Lib.Interleaving
import DelegationStrategy.Store.Jito
import DelegationStrategy.Store.EpochIntervals
import DelegationStrategy.Store.UptimeRuns
import DelegationStrategy.Store.UptimeReplay
import DelegationStrategy.Store.ScoreRoundTrip
import DelegationStrategy.Api.PerEpochCache
import DelegationStrategy.Store.ValidatorRecords
import DelegationStrategy.Api.ListValidators
import DelegationStrategy.Api.ReportsStaking
import DelegationStrategy.Api.CachedValidators
import DelegationStrategy.Collect.Superminority
import DelegationStrategy.Lib.Ranking
import DelegationStrategy.Store.ValidatorRanks
import DelegationStrategy.Scoring.OverflowRun
import DelegationStrategy.Scoring.AlgoSet
import DelegationStrategy.Scoring.VemndeCap
import DelegationStrategy.Store.ClusterStats
import DelegationStrategy.Api.Pagination
import DelegationStrategy.Api.BooleanFilters
import DelegationStrategy.Lib.Nulls
import DelegationStrategy.Store.UnstakeHints
import DelegationStrategy.Lib.CoarseMin
import DelegationStrategy.Api.ScoreBreakdowns
import DelegationStrategy.Api.ScoreComponents
import DelegationStrategy.Store.ScoresPerEpoch
import DelegationStrategy.Collect.NodeVersions
import DelegationStrategy.Store.KnownVersions
import DelegationStrategy.Check.JitoGate
import DelegationStrategy.Lib.LastWins
import DelegationStrategy.Collect.BlockRewards
import DelegationStrategy.Store.BlockRewards
import DelegationStrategy.Store.AggregatedFlat
import DelegationStrategy.Store.TakeRates
import DelegationStrategy.Lib.Extremes
import DelegationStrategy.Store.ObservedCommission
import DelegationStrategy.Lib.FanOut
import DelegationStrategy.Lib.Entries
import DelegationStrategy.Store.ValidatorsQuery
import DelegationStrategy.Store.LoadValidators
import DelegationStrategy.Api.CommissionChanges
import DelegationStrategy.Lib.Binary64
import DelegationStrategy.Api.StakingPlan
import DelegationStrategy.Api.EpochWindows
import DelegationStrategy.Store.CreditsPerformance
import DelegationStrategy.Api.BreakdownFilters
import DelegationStrategy.Lib.FullJoin
import DelegationStrategy.Store.EventHistory
import DelegationStrategy.Lib.Tally
import DelegationStrategy.Lib.Bytes
import DelegationStrategy.Collect.Rpc
import DelegationStrategy.Collect.SelfStake
import DelegationStrategy.Collect.JitoAccounts
import DelegationStrategy.Collect.BlockProduction
import DelegationStrategy.Lib.Delimited
import DelegationStrategy.Collect.VersionGrammar
import DelegationStrategy.Lib.Placeholders
import DelegationStrategy.Store.QueryCombiner
import DelegationStrategy.Store.StoreQueries
import DelegationStrategy.Lib.Groups
import DelegationStrategy.Store.VoteAccountMigration
import DelegationStrategy.Api.CacheWarmer
import DelegationStrategy.Check.BlockRewardsGate
import DelegationStrategy.Collect.Settlements
import DelegationStrategy.Store.EpochDates
import DelegationStrategy.Store.SettlementRuns
import DelegationStrategy.Api.EventsHandler
import DelegationStrategy.Store.ClosedUptime
import DelegationStrategy.Scoring.UiHints
import DelegationStrategy.Store.ClosedPerformance
import DelegationStrategy.Store.LastJito
import DelegationStrategy.Store.CollectedValidators
import DelegationStrategy.Store.RuggerRuns
import DelegationStrategy.Scoring.FromDatabase
