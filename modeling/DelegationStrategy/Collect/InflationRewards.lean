import DelegationStrategy.Collect.BlockProduction
import DelegationStrategy.Lib.LastWins
import DelegationStrategy.Lib.Tally

/-!
# Performance with rewards

`collect validators-performance --with-rewards` writes the snapshot that `store close-epoch`
closes an epoch with. The commission that a validator really took comes from its inflation
reward: `get_commission_from_inflation_rewards` asks the node for the rewards of a hundred vote
accounts at a time and pairs the answers with the addresses by position.

`get?_getCommission`: the map has the commission of every vote account whose reward has one, as
if the node were asked for each account alone.
-/

namespace DelegationStrategy.Collect

open DelegationStrategy.Lib

/-! ## Inflation rewards -/

/-- The field of `RpcInflationReward` that is read. -/
structure RpcInflationReward where
  commission : Option UInt8
  deriving DecidableEq, Repr

/-- A node that has paid a fixed reward to each address in an epoch, or none. -/
structure InflationRewards where
  reward : Pubkey → Nat → Option RpcInflationReward
  /-- The answer of `getInflationReward`: one entry for each address, in their order. -/
  answers : List Pubkey → Nat → Except Failure (List (Option RpcInflationReward))
  exact : ∀ addresses epoch rewards, answers addresses epoch = .ok rewards →
    rewards = addresses.map fun address => reward address epoch

/-- A node that fails no call. -/
def InflationRewards.reliable (reward : Pubkey → Nat → Option RpcInflationReward) :
    InflationRewards where
  reward := reward
  answers addresses epoch := .ok (addresses.map fun address => reward address epoch)
  exact _ _ _ h := (Except.ok.inj h).symm

section Commission

-- `Pubkey::from_str`
variable (fromStr : String → Option Pubkey) (node : InflationRewards)

/-- `Pubkey::from_str(…).unwrap()`. -/
def voteAddress (voteAccount : VoteAccountPerformance) : Except Failure Pubkey :=
  match fromStr voteAccount.votePubkey with
  | some address => .ok address
  | none => .error (.panic "called `Result::unwrap()` on an `Err` value")

/-- The closure of `filter_map`. -/
def commissionEntry : Pubkey × Option RpcInflationReward → Option (String × UInt8)
  | (voteAddress, reward) =>
    (reward.bind RpcInflationReward.commission).map fun commission =>
      (voteAddress.base58, commission)

/-- A turn of the loop over the chunks. -/
def addCommissions (epoch : Nat) (result : Dict String UInt8) (voteAddressesChunk : List Pubkey) :
    Except Failure (Dict String UInt8) := do
  let rewards ← node.answers voteAddressesChunk epoch
  .ok (((voteAddressesChunk.zip rewards).filterMap commissionEntry).foldl
    (fun result entry => result.insert entry.1 entry.2) result)

/-- `get_commission_from_inflation_rewards`. -/
def getCommissionFromInflationRewards (voteAccounts : VoteAccountStatus) (epoch : Nat) :
    Except Failure (Dict String UInt8) := do
  let voteAddresses ← voteAccounts.chained.mapM (voteAddress fromStr)
  (chunks 100 voteAddresses).foldlM (addCommissions node epoch) Dict.empty

/-- `validator_rewards`. -/
def validatorRewards (voteAccounts : VoteAccountStatus) (epoch : Nat) :
    Except Failure (Dict String ValidatorRewards) := do
  let commissionFromRewards ← getCommissionFromInflationRewards fromStr node voteAccounts epoch
  .ok (Dict.ofList (voteAccounts.chained.map fun voteAccount =>
    (voteAccount.votePubkey, ⟨commissionFromRewards.get? voteAccount.votePubkey⟩)))

end Commission

/-! ## The snapshot -/

/-- `ValidatorsPerformanceParams`, without the timeout of the client. -/
structure ValidatorsPerformanceParams where
  withRewards : Bool
  epoch : Option Nat
  rpcAttempts : Nat
  deriving DecidableEq, Repr

/-- The fields of `EpochInfo` that are read. -/
structure EpochInfo where
  epoch : Nat
  slotIndex : Nat
  transactionCount : Option Nat
  deriving DecidableEq, Repr

/-- What `collect_validators_performance_info` reads. -/
structure PerformanceNode where
  now : Timestamp
  epochInfo : Except Failure EpochInfo
  voteAccounts : Except Failure VoteAccountStatus
  /-- The replies to each call of `get_block_production_by_validator`. -/
  production : Nat → ProductionReplies
  clusterNodes : Except Failure (List ClusterNode)
  creditsVoteAccounts : Except Failure VoteAccountStatus
  inflationRewards : InflationRewards
  supply : Except Failure Nat
  inflationRate : Except Failure Rat
  inflationTaper : Except Failure Rat

/-- `ClusterInflation { … }`. -/
def PerformanceNode.clusterInflation (node : PerformanceNode) :
    Except Failure ClusterInflation := do
  let solTotalSupply ← node.supply
  let inflation ← node.inflationRate
  let inflationTaper ← node.inflationTaper
  .ok { solTotalSupply, inflation, inflationTaper }

/-- `Some(…)` of a call that is made on a condition. -/
def onlyIf {α : Type} (condition : Bool) (call : Except Failure α) :
    Except Failure (Option α) :=
  if condition then call.map some else .ok none

/-- `collect_validators_performance_info`. -/
def collectValidatorsPerformanceInfo (fromStr : String → Option Pubkey) (node : PerformanceNode)
    (performanceParams : ValidatorsPerformanceParams) :
    Except Failure ValidatorsPerformanceSnapshot := do
  let currentEpochInfo ← node.epochInfo
  let epoch := performanceParams.epoch.getD currentEpochInfo.epoch
  let voteAccounts ← node.voteAccounts
  let validators ← validatorsPerformance
    { voteAccounts
      production := node.production
      clusterNodes := node.clusterNodes
      creditsVoteAccounts := node.creditsVoteAccounts } epoch performanceParams.rpcAttempts
  let rewards ← onlyIf performanceParams.withRewards
    (validatorRewards fromStr node.inflationRewards voteAccounts epoch)
  let clusterInflation ← onlyIf performanceParams.withRewards node.clusterInflation
  let transactionCount ← unwrap currentEpochInfo.transactionCount
  .ok
    { epoch
      epochSlot := currentEpochInfo.slotIndex
      transactionCount
      createdAt := node.now
      clusterInflation
      validators
      rewards }

/-! ## What the node has paid -/

section Paid

variable {fromStr : String → Option Pubkey} {node : InflationRewards} {epoch : Nat}

/-- The commission in the reward of an address. -/
def InflationRewards.commission (node : InflationRewards) (epoch : Nat) (address : Pubkey) :
    Option UInt8 :=
  (node.reward address epoch).bind RpcInflationReward.commission

/-- The entry of an address, if the node is asked for it alone. -/
def entryOf (node : InflationRewards) (epoch : Nat) (address : Pubkey) :
    Option (String × UInt8) :=
  (node.commission epoch address).map fun commission => (address.base58, commission)

/-- A list paired with its image. -/
theorem filterMap_zip_map {α β γ : Type} (f : α → β) (g : α × β → Option γ) (l : List α) :
    (l.zip (l.map f)).filterMap g = l.filterMap fun a => g (a, f a) := by
  induction l with
  | nil => rfl
  | cons a l ih => simp [List.filterMap_cons, ih]

/-- The loop over the chunks inserts the entries of all addresses. -/
theorem foldlM_addCommissions {addressChunks : List (List Pubkey)}
    {before result : Dict String UInt8}
    (h : addressChunks.foldlM (addCommissions node epoch) before = .ok result) :
    result = (addressChunks.flatten.filterMap (entryOf node epoch)).foldl
      (fun result entry => result.insert entry.1 entry.2) before := by
  induction addressChunks generalizing before with
  | nil => exact (Except.ok.inj h).symm
  | cons addresses addressChunks ih =>
    obtain ⟨next, hnext, h⟩ := bind_eq_ok.mp h
    obtain ⟨rewards, hrewards, hnext⟩ := bind_eq_ok.mp hnext
    obtain rfl := Except.ok.inj hnext
    rw [ih h, node.exact _ _ _ hrewards, filterMap_zip_map, List.flatten_cons,
      List.filterMap_append, List.foldl_append]
    rfl

/-- **Chunks and positions do not matter**: the map has the commissions that the node has paid
to the addresses of the vote accounts. -/
theorem get?_getCommission (hfromStr : ∀ text key, fromStr text = some key → key.base58 = text)
    {voteAccounts : VoteAccountStatus} {result : Dict String UInt8}
    (h : getCommissionFromInflationRewards fromStr node voteAccounts epoch = .ok result)
    {voteAccount : VoteAccountPerformance} (hmem : voteAccount ∈ voteAccounts.chained) :
    ∃ address, fromStr voteAccount.votePubkey = some address ∧
      result.get? voteAccount.votePubkey = node.commission epoch address := by
  obtain ⟨addresses, haddresses, h⟩ := bind_eq_ok.mp h
  have hresult := foldlM_addCommissions h
  rw [chunks_flatten (by decide)] at hresult
  have hparsed : List.Forall₂ (fun v address => fromStr v.votePubkey = some address)
      voteAccounts.chained addresses := by
    refine (forall₂_of_mapM haddresses).imp fun v address hv => ?_
    unfold voteAddress at hv
    split at hv
    · rename_i key hkey
      obtain rfl := Except.ok.inj hv
      exact hkey
    · cases hv
  obtain ⟨address, hin, haddress⟩ := exists_of_forall₂ hparsed hmem
  refine ⟨address, haddress, ?_⟩
  have htext := hfromStr _ _ haddress
  have hentries : ∀ commission, (voteAccount.votePubkey, commission) ∈
      addresses.filterMap (entryOf node epoch) ↔
        node.commission epoch address = some commission := by
    intro commission
    rw [List.mem_filterMap]
    constructor
    · rintro ⟨other, -, hother⟩
      obtain ⟨paid, hpaid, heq⟩ := Option.map_eq_some_iff.mp hother
      obtain ⟨hkey, rfl⟩ := Prod.mk.inj heq
      obtain rfl := Pubkey.base58_injective (hkey.trans htext.symm)
      exact hpaid
    · intro hpaid
      exact ⟨address, hin, Option.map_eq_some_iff.mpr ⟨commission, hpaid, by rw [htext]⟩⟩
  show result.get? _ = _
  have hofList : result = Dict.ofList (addresses.filterMap (entryOf node epoch)) := hresult
  rw [hofList]
  cases hpaid : node.commission epoch address with
  | some commission =>
    refine Dict.get?_ofList ((hentries commission).mpr hpaid) fun other hother => ?_
    exact Option.some.inj (((hentries other).mp hother).symm.trans hpaid)
  | none =>
    refine Dict.get?_eq_none_iff.mpr fun hkey => ?_
    obtain ⟨⟨text, commission⟩, hentry, rfl⟩ := List.mem_map.mp (Dict.mem_keys_ofList.mp hkey)
    have hsome := (hentries commission).mp hentry
    rw [hpaid] at hsome
    cases hsome

/-- **The effective commissions** of the snapshot. -/
theorem get?_validatorRewards (hfromStr : ∀ text key, fromStr text = some key → key.base58 = text)
    {voteAccounts : VoteAccountStatus} {rewards : Dict String ValidatorRewards}
    (h : validatorRewards fromStr node voteAccounts epoch = .ok rewards)
    {voteAccount : VoteAccountPerformance} (hmem : voteAccount ∈ voteAccounts.chained) :
    ∃ address, fromStr voteAccount.votePubkey = some address ∧
      rewards.get? voteAccount.votePubkey = some ⟨node.commission epoch address⟩ := by
  obtain ⟨commissions, hcommissions, h⟩ := bind_eq_ok.mp h
  obtain rfl := Except.ok.inj h
  obtain ⟨address, haddress, hget⟩ := get?_getCommission hfromStr hcommissions hmem
  refine ⟨address, haddress, ?_⟩
  rw [← hget]
  refine Dict.get?_ofList (List.mem_map_of_mem hmem) fun reward hreward => ?_
  obtain ⟨other, -, heq⟩ := List.mem_map.mp hreward
  obtain ⟨hkey, rfl⟩ := Prod.mk.inj heq
  rw [hkey]

end Paid

/-! ## What the snapshot holds -/

section Snapshot

variable {fromStr : String → Option Pubkey} {node : PerformanceNode}
variable {performanceParams : ValidatorsPerformanceParams}
variable {snapshot : ValidatorsPerformanceSnapshot}

theorem onlyIf_eq_ok {α : Type} {condition : Bool} {call : Except Failure α} {reply : Option α} :
    onlyIf condition call = .ok reply ↔
      (condition = false ∧ reply = none) ∨
        (condition = true ∧ ∃ a, call = .ok a ∧ reply = some a) := by
  cases condition with
  | false =>
    show Except.ok none = _ ↔ _
    simp [eq_comm]
  | true =>
    show call.map some = _ ↔ _
    rw [map_eq_ok]
    simp [eq_comm]

/-- The calls behind a snapshot. -/
theorem collected_cases
    (h : collectValidatorsPerformanceInfo fromStr node performanceParams = .ok snapshot) :
    ∃ voteAccounts, node.voteAccounts = .ok voteAccounts ∧
      validatorsPerformance
        { voteAccounts
          production := node.production
          clusterNodes := node.clusterNodes
          creditsVoteAccounts := node.creditsVoteAccounts } snapshot.epoch
          performanceParams.rpcAttempts = .ok snapshot.validators ∧
      snapshot.createdAt = node.now ∧
      ((performanceParams.withRewards = false ∧ snapshot.rewards = none ∧
          snapshot.clusterInflation = none) ∨
        (performanceParams.withRewards = true ∧ ∃ rewards clusterInflation,
          validatorRewards fromStr node.inflationRewards voteAccounts snapshot.epoch =
              .ok rewards ∧ snapshot.rewards = some rewards ∧
            node.clusterInflation = .ok clusterInflation ∧
              snapshot.clusterInflation = some clusterInflation)) := by
  obtain ⟨currentEpochInfo, -, h⟩ := bind_eq_ok.mp h
  obtain ⟨voteAccounts, hvoteAccounts, h⟩ := bind_eq_ok.mp h
  obtain ⟨validators, hvalidators, h⟩ := bind_eq_ok.mp h
  obtain ⟨rewards, hrewards, h⟩ := bind_eq_ok.mp h
  obtain ⟨clusterInflation, hinflation, h⟩ := bind_eq_ok.mp h
  obtain ⟨transactionCount, -, h⟩ := bind_eq_ok.mp h
  obtain rfl := Except.ok.inj h
  refine ⟨voteAccounts, hvoteAccounts, hvalidators, rfl, ?_⟩
  rcases onlyIf_eq_ok.mp hrewards with ⟨hwithout, rfl⟩ | ⟨hwith, paid, hpaid, rfl⟩
  · rcases onlyIf_eq_ok.mp hinflation with ⟨-, rfl⟩ | ⟨hwith, -⟩
    · exact Or.inl ⟨hwithout, rfl, rfl⟩
    · rw [hwithout] at hwith
      cases hwith
  · rcases onlyIf_eq_ok.mp hinflation with ⟨hwithout, -⟩ | ⟨-, inflation, hcall, rfl⟩
    · rw [hwith] at hwithout
      cases hwithout
    · exact Or.inr ⟨hwith, paid, inflation, hpaid, rfl, hcall, rfl⟩

/-- The performance of a vote account. -/
theorem get?_validatorsPerformance {sources : PerformanceSources} {epoch rpcAttempts : Nat}
    {performance : Dict String ValidatorPerformance}
    (h : validatorsPerformance sources epoch rpcAttempts = .ok performance) :
    (∀ voteAccount, voteAccount ∈ performance.keys ↔
      voteAccount ∈ sources.voteAccounts.chained.map VoteAccountPerformance.votePubkey) ∧
    ∀ voteAccount p, performance.get? voteAccount = some p →
      (∃ credits, getCredits sources.creditsVoteAccounts epoch = .ok credits ∧
        p.credits = ((credits.get? voteAccount).getD 0).toNat) ∧
      (∃ v ∈ sources.voteAccounts.chained, v.votePubkey = voteAccount ∧ ∃ call production,
        getBlockProductionByValidator (sources.production call) epoch = .ok production ∧
          (p.leaderSlots, p.blocksProduced) = (production.get? v.nodePubkey).getD (0, 0)) ∧
      p.skipRate = skipRate p.leaderSlots p.blocksProduced := by
  obtain ⟨production, hretry, h⟩ := bind_eq_ok.mp h
  obtain ⟨nodeVersions, -, h⟩ := bind_eq_ok.mp h
  obtain ⟨credits, hcredits, h⟩ := bind_eq_ok.mp h
  obtain rfl := Except.ok.inj h
  obtain ⟨call, hcall⟩ := exists_call_of_retryBlocking hretry
  constructor
  · intro voteAccount
    rw [Dict.mem_keys_ofList, List.map_map]
    exact Iff.rfl
  · intro voteAccount p hget
    obtain ⟨v, hv, heq⟩ := List.mem_map.mp (Dict.mem_of_mem_ofList (Dict.mem_of_get? hget))
    obtain ⟨rfl, rfl⟩ := Prod.mk.inj heq
    exact ⟨⟨credits, hcredits, rfl⟩, ⟨v, hv, rfl, call, production, hcall, rfl⟩, rfl⟩

end Snapshot

end DelegationStrategy.Collect
