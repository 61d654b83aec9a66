import DelegationStrategy.Lib.Query
import Mathlib.Data.Rat.Init

/-!
# What the collectors write

The snapshot files that `collect` writes and `store` reads
(`collect/src/validators.rs`, `collect/src/validators_performance.rs`,
`collect/src/validators_events.rs`, `collect/src/validators_jito.rs`,
`collect/src/whois_service.rs`). A snapshot is embedded as parsed: `createdAt`
is the `DateTime<Utc>` that `created_at.parse()` returns, in microseconds, the
resolution of the database columns; `u64` and `usize` counters are `Nat`, an
`f64` is the rational it denotes.
-/

namespace DelegationStrategy.Collect

open DelegationStrategy.Lib

/-- Microseconds since the epoch. -/
abbrev Timestamp := Int

/-- A minute in microseconds. -/
def minute : Timestamp := 60000000

/-! ## Performance snapshots -/

structure ValidatorRewards where
  commissionEffective : Option UInt8
  deriving DecidableEq, Repr

structure ClusterInflation where
  solTotalSupply : Nat
  inflation : Rat
  inflationTaper : Rat
  deriving DecidableEq, Repr

structure ValidatorPerformance where
  commission : UInt8
  version : Option String
  credits : Nat
  leaderSlots : Nat
  blocksProduced : Nat
  skipRate : Rat
  delinquent : Bool
  deriving DecidableEq, Repr

/-- `ValidatorsPerformanceSnapshot`; `validators` and `rewards` are hash maps by
vote account. -/
structure ValidatorsPerformanceSnapshot where
  epoch : Nat
  epochSlot : Nat
  transactionCount : Nat
  createdAt : Timestamp
  clusterInflation : Option ClusterInflation
  validators : Dict String ValidatorPerformance
  rewards : Option (Dict String ValidatorRewards)

/-- A snapshot of a single validator. -/
def singleSnapshot (createdAt : Timestamp) (commission : UInt8) (delinquent : Bool) :
    ValidatorsPerformanceSnapshot where
  epoch := 500
  epochSlot := 1000
  transactionCount := 10
  createdAt := createdAt
  clusterInflation := none
  validators :=
    { entries :=
        [("vote", {
          commission := commission
          version := some "1.17.5"
          credits := 10
          leaderSlots := 4
          blocksProduced := 4
          skipRate := 0
          delinquent := delinquent })]
      nodup := List.nodup_singleton _ }
  rewards := none

/-! ## Validators snapshots -/

structure Coordinates where
  lat : Rat
  lon : Rat
  deriving DecidableEq, Repr

/-- What the whois service returns for an IP address. -/
structure IpInfo where
  asn : Option UInt32
  aso : Option String
  coordinates : Option Coordinates
  continent : Option String
  countryIso : Option String
  country : Option String
  city : Option String
  deriving DecidableEq, Repr

/-- `ValidatorDataCenter`; its derived default has every field `None`. -/
structure ValidatorDataCenter where
  /-- Documented in the source as `lon, lat`. -/
  coordinates : Option (Rat × Rat) := none
  continent : Option String := none
  countryIso : Option String := none
  country : Option String := none
  city : Option String := none
  asn : Option UInt32 := none
  aso : Option String := none
  deriving DecidableEq, Repr

/-- `ValidatorDataCenter::new`. -/
def ValidatorDataCenter.new (ipInfo : IpInfo) : ValidatorDataCenter where
  coordinates := ipInfo.coordinates.map fun c => (c.lon, c.lat)
  continent := ipInfo.continent
  countryIso := ipInfo.countryIso
  country := ipInfo.country
  city := ipInfo.city
  asn := ipInfo.asn
  aso := ipInfo.aso

structure ValidatorSnapshot where
  identity : String
  voteAccount : String
  nodeIp : Option String
  infoName : Option String
  infoUrl : Option String
  infoKeybase : Option String
  infoIconUrl : Option String
  dataCenter : Option ValidatorDataCenter
  activatedStake : Nat
  foundationStake : Nat
  selfStake : Nat
  marinadeStake : Nat
  marinadeNativeStake : Nat
  institutionalStake : Nat
  superminority : Bool
  stakeToBecomeSuperminority : Nat
  performance : ValidatorPerformance
  deriving DecidableEq, Repr

/-- `Snapshot` of `collect/src/validators.rs`. -/
structure Snapshot where
  epoch : Nat
  createdAt : Timestamp
  validators : List ValidatorSnapshot
  deriving DecidableEq, Repr

/-! ## Events snapshots -/

/-- The fields of the key of `validators_events`, by which the collector groups. -/
structure SettlementKey where
  epoch : Nat
  voteAccount : String
  reason : String
  /-- The field `meta`. -/
  meta_ : String
  deriving DecidableEq, Repr

structure ValidatorSettlement extends SettlementKey where
  /-- An `i64`. -/
  amount : Int
  deriving DecidableEq, Repr

/-- `ValidatorsEventsSnapshot`; the fields that are only logged are left out. -/
structure ValidatorsEventsSnapshot where
  createdAt : Timestamp
  events : List ValidatorSettlement
  deriving DecidableEq, Repr

/-- The collector groups by the key. -/
def ValidatorsEventsSnapshot.DistinctKeys (snapshot : ValidatorsEventsSnapshot) : Prop :=
  (snapshot.events.map ValidatorSettlement.toSettlementKey).Nodup

/-! ## Jito snapshots -/

inductive JitoAccountType where
  | mevTipDistribution
  | priorityFeeDistribution
  deriving DecidableEq, Repr

structure MevTipDistributionValidatorSnapshot where
  voteAccount : String
  mevCommission : UInt16
  epoch : Nat
  totalEpochRewards : Option Nat
  claimedEpochRewards : Option Nat
  totalEpochClaimants : Option Nat
  epochActiveClaimants : Option Nat
  deriving DecidableEq, Repr

/-- The field `merkle_root_upload_authority` is not stored. -/
structure PriorityFeeDistributionValidatorSnapshot where
  voteAccount : String
  priorityCommission : UInt16
  totalLamportsTransferred : Nat
  epoch : Nat
  totalEpochRewards : Option Nat
  claimedEpochRewards : Option Nat
  totalEpochClaimants : Option Nat
  epochActiveClaimants : Option Nat
  deriving DecidableEq, Repr

/-- `ValidatorSnapshot` of `collect/src/validators_jito.rs`. -/
inductive JitoValidatorSnapshot where
  | mevTipDistribution (v : MevTipDistributionValidatorSnapshot)
  | priorityFeeDistribution (v : PriorityFeeDistributionValidatorSnapshot)
  deriving DecidableEq, Repr

def JitoValidatorSnapshot.voteAccount : JitoValidatorSnapshot → String
  | mevTipDistribution v => v.voteAccount
  | priorityFeeDistribution v => v.voteAccount

def JitoValidatorSnapshot.epoch : JitoValidatorSnapshot → Nat
  | mevTipDistribution v => v.epoch
  | priorityFeeDistribution v => v.epoch

/-- `JitoSnapshot`. The collector enters every validator under its own vote account and
with the epoch of the snapshot. -/
structure JitoSnapshot where
  epoch : Nat
  accountType : JitoAccountType
  loadedAtSlotIndex : Nat
  createdAt : Timestamp
  validators : Dict String JitoValidatorSnapshot
  voteAccounts : ∀ e ∈ validators.entries, e.2.voteAccount = e.1
  epochs : ∀ e ∈ validators.entries, e.2.epoch = epoch

/-- `get_mev_validators`. -/
def JitoSnapshot.getMevValidators (snapshot : JitoSnapshot) :
    Dict String MevTipDistributionValidatorSnapshot :=
  if snapshot.accountType = .mevTipDistribution then
    snapshot.validators.filterMapVal fun
      | .mevTipDistribution v => some v
      | .priorityFeeDistribution _ => none
  else .empty

/-- `get_priority_fee_validators`. -/
def JitoSnapshot.getPriorityFeeValidators (snapshot : JitoSnapshot) :
    Dict String PriorityFeeDistributionValidatorSnapshot :=
  if snapshot.accountType = .priorityFeeDistribution then
    snapshot.validators.filterMapVal fun
      | .mevTipDistribution _ => none
      | .priorityFeeDistribution v => some v
  else .empty

end DelegationStrategy.Collect
