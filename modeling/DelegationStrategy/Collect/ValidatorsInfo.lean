import DelegationStrategy.Collect.DelegatedStakes
import DelegationStrategy.Collect.InflationRewards
import DelegationStrategy.Lib.FullJoin

/-!
# `collect validators`

`collect_validators_info` (`collect/src/validators.rs`) asks the node and two services for
everything that a snapshot has. The names of validators come from the accounts of the config
program (`get_validators_info`), their data centers from a whois service that is asked for the IP
addresses in gossip (`get_data_centers`).

- `parseValidatorInfo_eq_panic_iff`: an account whose only key is the id of validator infos stops
  the program; any other account that does not parse is skipped.
- `get?_getValidatorsInfo`: of several accounts for one identity the last one counts.
- `get?_getDataCenters`: the map does not depend on the order of the requests.
- `exists_of_collectSources`: if all calls succeed then the snapshot is written. The `unwrap` in
  its loop does not panic, because the performance is of the same vote accounts.
-/

namespace DelegationStrategy.Collect

open DelegationStrategy.Lib DelegationStrategy.Store

/-! ## Accounts of the config program -/

/-- The fields of an account of the config program that are read. -/
structure ConfigAccount where
  owner : Pubkey
  data : List UInt8
  deriving DecidableEq

/-- A `serde_json::Value`: a text or anything else. -/
inductive JsonValue where
  | string (text : String)
  | other
  deriving DecidableEq, Repr

/-- The config program, and what the libraries read from the data of its accounts. -/
structure ConfigProgram where
  id : Pubkey
  /-- `validator_info::id` -/
  validatorInfoId : Pubkey
  /-- `deserialize::<ConfigKeys>`: the keys, and whether they sign. -/
  configKeys : List UInt8 → Except String (List (Pubkey × Bool))
  getConfigData : List UInt8 → Except String (List UInt8)
  deserializeString : List UInt8 → Except String String
  /-- `serde_json::from_str::<Map<_, _>>` -/
  jsonFromStr : String → Except String (Dict String JsonValue)

/-- `extract_json_value` -/
def extractJsonValue (json : Dict String JsonValue) (key : String) : Option String :=
  (json.get? key).bind fun value =>
    match value with
    | .string text => some text
    | .other => none

/-- `key_list.keys[1]` -/
def secondKey : List (Pubkey × Bool) → Except Failure Pubkey
  | _ :: (validatorPubkey, _) :: _ => .ok validatorPubkey
  | keys => .error (.panic s!"index out of bounds: the len is {keys.length} but the index is 1")

section ConfigAccounts

variable (program : ConfigProgram)

/-- `parse_validator_info` -/
def parseValidatorInfo (pubkey : Pubkey) (account : ConfigAccount) :
    Except Failure (Pubkey × ValidatorInfo) :=
  if account.owner ≠ program.id then
    .error (.error s!"{pubkey.base58} is not a validator info account")
  else do
    let keys ← (program.configKeys account.data).mapError Failure.error
    if keys ≠ [] ∧ (program.validatorInfoId, false) ∈ keys then
      let validatorPubkey ← secondKey keys
      let configData ← (program.getConfigData account.data).mapError Failure.error
      let validatorInfoString ← (program.deserializeString configData).mapError Failure.error
      let validatorInfo ← (program.jsonFromStr validatorInfoString).mapError Failure.error
      .ok (validatorPubkey, {
        name := extractJsonValue validatorInfo "name"
        url := extractJsonValue validatorInfo "website"
        keybase := extractJsonValue validatorInfo "keybaseUsername"
        iconUrl := extractJsonValue validatorInfo "iconUrl" })
    else
      .error (.error s!"{pubkey.base58} could not be parsed as a validator info account")

/-- A turn of the loop of `get_validators_info`: errors are logged. -/
def addValidatorInfo (validatorInfoMap : Dict String ValidatorInfo)
    (account : Pubkey × ConfigAccount) : Except Failure (Dict String ValidatorInfo) :=
  match parseValidatorInfo program account.1 account.2 with
  | .ok (validatorPubkey, validatorInfo) =>
    .ok (validatorInfoMap.insert validatorPubkey.base58 validatorInfo)
  | .error (.error _) => .ok validatorInfoMap
  | .error (.panic message) => .error (.panic message)

/-- `get_validators_info` -/
def getValidatorsInfo (accounts : Except Failure (List (Pubkey × ConfigAccount))) :
    Except Failure (Dict String ValidatorInfo) := do
  let accounts ← accounts
  accounts.foldlM (addValidatorInfo program) Dict.empty

/-- The info in an account, under the identity it is for. -/
def infoIn (account : Pubkey × ConfigAccount) : Option (String × ValidatorInfo) :=
  match parseValidatorInfo program account.1 account.2 with
  | .ok (validatorPubkey, validatorInfo) => some (validatorPubkey.base58, validatorInfo)
  | .error _ => none

variable {program}

/-- What a library refuses is an error. -/
theorem bind_mapError_ne_panic {α β : Type} {reply : Except String α} {f : α → Except Failure β}
    {message : String} (hf : ∀ a, f a ≠ .error (.panic message)) :
    (reply.mapError Failure.error >>= f) ≠ .error (.panic message) := by
  cases reply with
  | error text => exact fun h => by cases h
  | ok a => exact hf a

/-- **When an account stops the program.** -/
theorem parseValidatorInfo_eq_panic_iff {pubkey : Pubkey} {account : ConfigAccount} :
    (∃ message, parseValidatorInfo program pubkey account = .error (.panic message)) ↔
      account.owner = program.id ∧
        program.configKeys account.data = .ok [(program.validatorInfoId, false)] := by
  unfold parseValidatorInfo
  by_cases howner : account.owner = program.id
  case neg =>
    rw [if_pos howner]
    constructor
    · rintro ⟨_, h⟩
      cases h
    · exact fun h => absurd h.1 howner
  rw [if_neg (not_not.mpr howner)]
  cases hkeys : program.configKeys account.data with
  | error text =>
    constructor
    · rintro ⟨_, h⟩
      cases h
    · rintro ⟨-, h⟩
      cases h
  | ok keys =>
    show (∃ message, (if keys ≠ [] ∧ (program.validatorInfoId, false) ∈ keys then _ else _) =
      Except.error (Failure.panic message)) ↔ _
    by_cases hinfo : keys ≠ [] ∧ (program.validatorInfoId, false) ∈ keys
    case neg =>
      rw [if_neg hinfo]
      constructor
      · rintro ⟨_, h⟩
        cases h
      · rintro ⟨-, h⟩
        rw [Except.ok.inj h] at hinfo
        exact absurd ⟨List.cons_ne_nil _ _, List.mem_singleton_self _⟩ hinfo
    rw [if_pos hinfo]
    rcases keys with _ | ⟨key, _ | ⟨validatorKey, rest⟩⟩
    · exact absurd rfl hinfo.1
    · obtain rfl := List.mem_singleton.mp hinfo.2
      exact ⟨fun _ => ⟨howner, rfl⟩, fun _ => ⟨_, rfl⟩⟩
    · -- the key is there, and what follows are errors of libraries
      constructor
      · rintro ⟨message, h⟩
        refine absurd h (bind_mapError_ne_panic fun configData => ?_)
        refine bind_mapError_ne_panic fun validatorInfoString => ?_
        exact bind_mapError_ne_panic fun validatorInfo h => by cases h
      · rintro ⟨-, h⟩
        cases h

/-- The map of the infos, if no account stops the program. -/
theorem foldlM_addValidatorInfo {accounts : List (Pubkey × ConfigAccount)}
    {before result : Dict String ValidatorInfo}
    (h : accounts.foldlM (addValidatorInfo program) before = .ok result) :
    result = (accounts.filterMap (infoIn program)).foldl (fun d e => d.insert e.1 e.2) before := by
  induction accounts generalizing before with
  | nil => exact (Except.ok.inj h).symm
  | cons account accounts ih =>
    rw [List.foldlM_cons] at h
    obtain ⟨next, hnext, h⟩ := bind_eq_ok.mp h
    rw [ih h]
    unfold addValidatorInfo at hnext
    rw [List.filterMap_cons]
    unfold infoIn
    cases hparse : parseValidatorInfo program account.1 account.2 with
    | ok parsed =>
      rw [hparse] at hnext
      cases hnext
      rfl
    | error failure =>
      rw [hparse] at hnext
      cases failure with
      | error message =>
        cases hnext
        rfl
      | panic message => cases hnext

/-- **The info of an identity** is in the last of its accounts. -/
theorem get?_getValidatorsInfo {accounts : List (Pubkey × ConfigAccount)}
    {validatorsInfo : Dict String ValidatorInfo}
    (h : getValidatorsInfo program (.ok accounts) = .ok validatorsInfo) (identity : String) :
    (∀ info, validatorsInfo.get? identity = some info ↔
      ∃ before after, accounts.filterMap (infoIn program) = before ++ (identity, info) :: after ∧
        identity ∉ after.map Prod.fst) ∧
    (validatorsInfo.get? identity = none ↔
      identity ∉ (accounts.filterMap (infoIn program)).map Prod.fst) := by
  have hmap : validatorsInfo = Dict.ofList (accounts.filterMap (infoIn program)) :=
    foldlM_addValidatorInfo h
  rw [hmap]
  exact ⟨fun info => get?_ofList_iff, by rw [Dict.get?_eq_none_iff, Dict.mem_keys_ofList]⟩

end ConfigAccounts

/-! ## Data centers -/

/-- What gossip knows of the address of a node. -/
structure GossipNode where
  pubkey : String
  /-- The IP address of the gossip socket. -/
  gossipIp : Option String
  deriving DecidableEq, Repr

/-- `get_cluster_nodes_ips` -/
def getClusterNodesIps (clusterNodes : List GossipNode) : Dict String String :=
  Dict.ofList (clusterNodes.filterMap fun node =>
    node.gossipIp.map fun ip => (node.pubkey, ip))

section DataCenters

-- what the whois service answers when it is asked for the address of a node
variable (whois : String → String → Option IpInfo)

/-- A turn of the loop of `get_data_centers`. -/
def addDataCenter (dataCenters : Dict String (String × IpInfo)) (nodeIp : String × String) :
    Dict String (String × IpInfo) :=
  if nodeIp.2 = "127.0.0.1" then dataCenters
  else
    match whois nodeIp.1 nodeIp.2 with
    | some info => dataCenters.insert nodeIp.1 (nodeIp.2, info)
    | none => dataCenters

/-- `get_data_centers` -/
def getDataCenters (scan : Scan) (nodeIps : Dict String String) :
    Dict String (String × IpInfo) :=
  (scan.order nodeIps.entries).foldl (addDataCenter whois) Dict.empty

/-- The data center of a node with an address. -/
def dataCenterOf (node ip : String) : Option (String × IpInfo) :=
  if ip = "127.0.0.1" then none else (whois node ip).map fun info => (ip, info)

variable {whois}

theorem get?_addDataCenter (dataCenters : Dict String (String × IpInfo))
    (nodeIp : String × String) (node : String) :
    (addDataCenter whois dataCenters nodeIp).get? node =
      if node = nodeIp.1 then (dataCenterOf whois nodeIp.1 nodeIp.2).or (dataCenters.get? node)
      else dataCenters.get? node := by
  unfold addDataCenter dataCenterOf
  by_cases hlocal : nodeIp.2 = "127.0.0.1"
  · rw [if_pos hlocal, if_pos hlocal, Option.none_or, ite_self]
  · rw [if_neg hlocal, if_neg hlocal]
    cases whois nodeIp.1 nodeIp.2 with
    | none => rw [Option.map_none, Option.none_or, ite_self]
    | some info => exact Dict.get?_insert dataCenters nodeIp.1 node _

theorem get?_foldl_addDataCenter {nodeIps : List (String × String)}
    (hnd : (nodeIps.map Prod.fst).Nodup) (dataCenters : Dict String (String × IpInfo))
    (node : String) :
    (nodeIps.foldl (addDataCenter whois) dataCenters).get? node =
      ((nodeIps.find? fun nodeIp => nodeIp.1 = node).bind fun nodeIp =>
        dataCenterOf whois node nodeIp.2).or (dataCenters.get? node) := by
  induction nodeIps generalizing dataCenters with
  | nil => rfl
  | cons nodeIp nodeIps ih =>
    rw [List.map_cons, List.nodup_cons] at hnd
    rw [List.foldl_cons, ih hnd.2, get?_addDataCenter]
    by_cases hnode : nodeIp.1 = node
    · -- the node is asked for once
      have hnone : nodeIps.find? (fun nodeIp => nodeIp.1 = node) = none := by
        refine List.find?_eq_none.mpr fun e he heq => hnd.1 ?_
        rw [hnode, ← of_decide_eq_true heq]
        exact List.mem_map_of_mem he
      have hfirst : (nodeIp :: nodeIps).find? (fun nodeIp => nodeIp.1 = node) = some nodeIp :=
        List.find?_cons_of_pos (decide_eq_true hnode)
      rw [hnone, hfirst, if_pos hnode.symm, hnode]
      rfl
    · have hrest : (nodeIp :: nodeIps).find? (fun nodeIp => nodeIp.1 = node) =
          nodeIps.find? fun nodeIp => nodeIp.1 = node :=
        List.find?_cons_of_neg (by simpa using hnode)
      rw [hrest, if_neg fun heq => hnode heq.symm]

/-- **The data center of a node** is what the service says of its address. -/
theorem get?_getDataCenters (scan : Scan) (nodeIps : Dict String String) (node : String) :
    (getDataCenters whois scan nodeIps).get? node =
      (nodeIps.get? node).bind (dataCenterOf whois node) := by
  have hperm := scan.perm nodeIps.entries
  have hnd : ((scan.order nodeIps.entries).map Prod.fst).Nodup :=
    (hperm.map _).nodup_iff.mpr nodeIps.nodup
  have hfind : ((scan.order nodeIps.entries).find? fun nodeIp => nodeIp.1 = node).map Prod.snd =
      nodeIps.get? node :=
    Dict.get?_perm (d := ⟨scan.order nodeIps.entries, hnd⟩) hperm node
  unfold getDataCenters
  rw [get?_foldl_addDataCenter hnd, ← hfind, Option.bind_map]
  show Option.or _ (Dict.empty.get? node) = _
  rw [show (Dict.empty : Dict String (String × IpInfo)).get? node = none from rfl, Option.or_none]
  rfl

end DataCenters

/-! ## The program -/

/-- The fields of `RpcVoteAccountInfo` that are read. -/
structure NodeVoteAccount extends VoteAccountPerformance where
  activatedStake : UInt64
  deriving DecidableEq, Repr

/-- The fields that the rows and the superminority are made of. -/
def NodeVoteAccount.info (voteAccount : NodeVoteAccount) : RpcVoteAccountInfo where
  votePubkey := voteAccount.votePubkey
  nodePubkey := voteAccount.nodePubkey
  activatedStake := voteAccount.activatedStake

/-- What `getVoteAccounts` returns. -/
structure NodeVoteAccounts where
  current : List NodeVoteAccount
  delinquent : List NodeVoteAccount
  deriving DecidableEq, Repr

namespace NodeVoteAccounts

variable (voteAccounts : NodeVoteAccounts)

/-- `current.iter().chain(delinquent.iter())` -/
def chain : List NodeVoteAccount := voteAccounts.current ++ voteAccounts.delinquent

def status : RpcVoteAccountStatus where
  current := voteAccounts.current.map NodeVoteAccount.info
  delinquent := voteAccounts.delinquent.map NodeVoteAccount.info

def performance : VoteAccountStatus where
  current := voteAccounts.current.map NodeVoteAccount.toVoteAccountPerformance
  delinquent := voteAccounts.delinquent.map NodeVoteAccount.toVoteAccountPerformance

theorem chain_status : voteAccounts.status.chain = voteAccounts.chain.map NodeVoteAccount.info :=
  List.map_append.symm

theorem chained_performance : voteAccounts.performance.chained =
    voteAccounts.chain.map NodeVoteAccount.toVoteAccountPerformance :=
  List.map_append.symm

end NodeVoteAccounts

/-- `ValidatorsParams`, without the addresses and timeouts of clients. -/
structure ValidatorsParams where
  epoch : Option Nat
  allowZeroFundedBonds : Bool
  rpcAttempts : Nat
  deriving DecidableEq, Repr

/-- What `collect_validators_info` reads. -/
structure ValidatorsNode where
  now : Timestamp
  url : String
  epochInfo : Except Failure EpochInfo
  voteAccounts : Except Failure NodeVoteAccounts
  stakeHistory : Except Failure StakeHistory
  stakeProgram : StakeProgram
  stakeAccounts : ProgramAccounts
  selfStake : SelfStakeSources
  /-- The variable `ALLOW_ZERO_FUNDED_BONDS` of the environment. -/
  allowZeroFundedBonds : Option String
  configProgram : ConfigProgram
  configAccounts : Except Failure (List (Pubkey × ConfigAccount))
  gossipNodes : Except Failure (List GossipNode)
  /-- The whois service, if the program is given one. -/
  whois : Option (String → String → Option IpInfo)
  /-- The replies to each call of `get_block_production_by_validator`. -/
  production : Nat → ProductionReplies
  clusterNodes : Except Failure (List ClusterNode)
  creditsVoteAccounts : Except Failure NodeVoteAccounts
  /-- The order in which each of the hash maps is traversed. -/
  iteration : Nat → Scan

section Program

variable (node : ValidatorsNode) (params : ValidatorsParams)

/-- The calls of `collect_validators_info`. -/
def collectSources : Except Failure ValidatorsSources := do
  let currentEpochInfo ← node.epochInfo
  let epoch := params.epoch.getD currentEpochInfo.epoch
  let voteAccounts ← node.voteAccounts
  let stakeHistory ← node.stakeHistory
  let marinadeStake ← getMarinadeStakes node.stakeProgram node.stakeAccounts (node.iteration 0)
    epoch stakeHistory
  let foundationStake ← getFoundationStakes node.stakeProgram node.stakeAccounts
    (node.iteration 1) epoch stakeHistory node.url
  let institutionalStake ← getInstitutionalStakes node.stakeProgram node.stakeAccounts
    (node.iteration 2) epoch stakeHistory
  let marinadeNativeStake ← getMarinadeNativeStakes node.stakeProgram node.stakeAccounts
    (node.iteration 3) epoch stakeHistory
  let allowZeroFundedBonds := params.allowZeroFundedBonds ||
    node.allowZeroFundedBonds == some "true"
  let selfStake ← getSelfStake node.stakeProgram node.selfStake epoch stakeHistory
    allowZeroFundedBonds params.rpcAttempts
  let validatorsInfo ← getValidatorsInfo node.configProgram node.configAccounts
  let nodeIps ← node.gossipNodes.map getClusterNodesIps
  let dataCenters :=
    match node.whois with
    | some whois => getDataCenters whois (node.iteration 4) nodeIps
    | none => Dict.empty
  let performance ← validatorsPerformance
    { voteAccounts := voteAccounts.performance
      production := node.production
      clusterNodes := node.clusterNodes
      creditsVoteAccounts := node.creditsVoteAccounts.map NodeVoteAccounts.performance }
    epoch params.rpcAttempts
  .ok
    { epoch
      createdAt := node.now
      voteAccounts := voteAccounts.status
      marinadeStake := marinadeStake.mapVal UInt64.toNat
      foundationStake := foundationStake.mapVal UInt64.toNat
      institutionalStake := institutionalStake.mapVal UInt64.toNat
      marinadeNativeStake := marinadeNativeStake.mapVal UInt64.toNat
      selfStake := selfStake.mapVal UInt64.toNat
      validatorsInfo
      dataCenters
      performance }

/-- `collect_validators_info` -/
def collectValidators : Except Failure Snapshot := do
  let sources ← collectSources node params
  unwrap (collectValidatorsInfo sources)

end Program

/-! ## What a run collects -/

/-- The performance of a vote account, as the node reports it. -/
structure PerformanceFrom (sources : PerformanceSources) (epoch : Nat) (v : VoteAccountPerformance)
    (p : ValidatorPerformance) : Prop where
  commission : p.commission = v.commission
  version : ∃ clusterNodes, sources.clusterNodes = .ok clusterNodes ∧
    p.version = (getClusterNodesVersions clusterNodes).get? v.nodePubkey
  credits : ∃ credits, getCredits sources.creditsVoteAccounts epoch = .ok credits ∧
    p.credits = ((credits.get? v.votePubkey).getD 0).toNat
  production : ∃ call production,
    getBlockProductionByValidator (sources.production call) epoch = .ok production ∧
      (p.leaderSlots, p.blocksProduced) = (production.get? v.nodePubkey).getD (0, 0)
  skipRate : p.skipRate = skipRate p.leaderSlots p.blocksProduced

/-- Vote accounts that are listed once have their own performance. -/
theorem performanceFrom_of_mem {sources : PerformanceSources} {epoch rpcAttempts : Nat}
    {performance : Dict String ValidatorPerformance}
    (h : validatorsPerformance sources epoch rpcAttempts = .ok performance)
    (hnd : (sources.voteAccounts.chained.map VoteAccountPerformance.votePubkey).Nodup)
    {v : VoteAccountPerformance} (hv : v ∈ sources.voteAccounts.chained) :
    ∃ p, performance.get? v.votePubkey = some p ∧ PerformanceFrom sources epoch v p := by
  have hkey : v.votePubkey ∈ performance.keys :=
    ((get?_validatorsPerformance h).1 _).mpr (List.mem_map_of_mem hv)
  cases hget : performance.get? v.votePubkey with
  | none => exact absurd hkey (Dict.get?_eq_none_iff.mp hget)
  | some p =>
    refine ⟨p, rfl, ?_⟩
    obtain ⟨production, hretry, h⟩ := bind_eq_ok.mp h
    obtain ⟨nodeVersions, hversions, h⟩ := bind_eq_ok.mp h
    obtain ⟨credits, hcredits, h⟩ := bind_eq_ok.mp h
    obtain rfl := Except.ok.inj h
    obtain ⟨call, hcall⟩ := exists_call_of_retryBlocking hretry
    obtain ⟨clusterNodes, hclusterNodes, rfl⟩ := map_eq_ok.mp hversions
    obtain ⟨v', hv', heq⟩ := List.mem_map.mp (Dict.mem_of_mem_ofList (Dict.mem_of_get? hget))
    obtain ⟨hvote, rfl⟩ := Prod.mk.inj heq
    obtain rfl := List.inj_on_of_nodup_map hnd hv' hv hvote
    exact ⟨rfl, ⟨clusterNodes, hclusterNodes, rfl⟩, ⟨credits, hcredits, rfl⟩,
      ⟨call, production, hcall, rfl⟩, rfl⟩

section Collected

variable {node : ValidatorsNode} {params : ValidatorsParams} {sources : ValidatorsSources}

/-- What the last account of an identity says, of those that parse; nothing if there is none. -/
def InfoOf (infos : List (String × ValidatorInfo)) (identity : String) (info : ValidatorInfo) :
    Prop :=
  (∃ before after, infos = before ++ (identity, info) :: after ∧
    identity ∉ after.map Prod.fst) ∨ (identity ∉ infos.map Prod.fst ∧ info = {})

/-- The data center of an identity: where its last address in gossip is, as the service says. -/
def locatedAt (node : ValidatorsNode) (gossipNodes : List GossipNode) (identity : String) :
    Option (String × IpInfo) :=
  node.whois.bind fun whois =>
    ((getClusterNodesIps gossipNodes).get? identity).bind (dataCenterOf whois identity)

/-- The calls of a run that succeed. -/
structure CallsOf (node : ValidatorsNode) (params : ValidatorsParams) (sources : ValidatorsSources)
    (voteAccounts : NodeVoteAccounts) (stakeHistory : StakeHistory) : Prop where
  epoch : ∃ epochInfo, node.epochInfo = .ok epochInfo ∧
    sources.epoch = params.epoch.getD epochInfo.epoch
  createdAt : sources.createdAt = node.now
  history : node.stakeHistory = .ok stakeHistory
  listed : node.voteAccounts = .ok voteAccounts
  status : sources.voteAccounts = voteAccounts.status
  stakes : CollectedStakes node.stakeProgram node.stakeAccounts sources.epoch stakeHistory
    node.url sources
  selfStake : ∃ selfStake, getSelfStake node.stakeProgram node.selfStake sources.epoch stakeHistory
      (params.allowZeroFundedBonds || node.allowZeroFundedBonds == some "true")
      params.rpcAttempts = .ok selfStake ∧ sources.selfStake = selfStake.mapVal UInt64.toNat
  info : ∃ accounts, node.configAccounts = .ok accounts ∧ ∀ identity,
    InfoOf (accounts.filterMap (infoIn node.configProgram)) identity
      ((sources.validatorsInfo.get? identity).getD {})
  dataCenters : ∃ gossipNodes, node.gossipNodes = .ok gossipNodes ∧ ∀ identity,
    sources.dataCenters.get? identity = locatedAt node gossipNodes identity
  performance : validatorsPerformance
    { voteAccounts := voteAccounts.performance
      production := node.production
      clusterNodes := node.clusterNodes
      creditsVoteAccounts := node.creditsVoteAccounts.map NodeVoteAccounts.performance }
    sources.epoch params.rpcAttempts = .ok sources.performance

/-- The info under an identity in the map. -/
theorem infoOf_getValidatorsInfo {program : ConfigProgram}
    {accounts : List (Pubkey × ConfigAccount)} {validatorsInfo : Dict String ValidatorInfo}
    (h : getValidatorsInfo program (.ok accounts) = .ok validatorsInfo) (identity : String) :
    InfoOf (accounts.filterMap (infoIn program)) identity
      ((validatorsInfo.get? identity).getD {}) := by
  obtain ⟨hsome, hnone⟩ := get?_getValidatorsInfo h identity
  cases hget : validatorsInfo.get? identity with
  | some info => exact Or.inl ((hsome info).mp hget)
  | none => exact Or.inr ⟨hnone.mp hget, rfl⟩

/-- **The calls of a run**, one by one. -/
theorem callsOf_collectSources (h : collectSources node params = .ok sources) :
    ∃ voteAccounts stakeHistory, CallsOf node params sources voteAccounts stakeHistory := by
  obtain ⟨currentEpochInfo, hepoch, h⟩ := bind_eq_ok.mp h
  obtain ⟨voteAccounts, hvoteAccounts, h⟩ := bind_eq_ok.mp h
  obtain ⟨stakeHistory, hhistory, h⟩ := bind_eq_ok.mp h
  obtain ⟨marinadeStake, hmarinade, h⟩ := bind_eq_ok.mp h
  obtain ⟨foundationStake, hfoundation, h⟩ := bind_eq_ok.mp h
  obtain ⟨institutionalStake, hinstitutional, h⟩ := bind_eq_ok.mp h
  obtain ⟨marinadeNativeStake, hnative, h⟩ := bind_eq_ok.mp h
  obtain ⟨selfStake, hself, h⟩ := bind_eq_ok.mp h
  obtain ⟨validatorsInfo, hinfo, h⟩ := bind_eq_ok.mp h
  obtain ⟨nodeIps, hips, h⟩ := bind_eq_ok.mp h
  obtain ⟨performance, hperformance, h⟩ := bind_eq_ok.mp h
  obtain rfl := Except.ok.inj h
  refine ⟨voteAccounts, stakeHistory, {
    epoch := ⟨currentEpochInfo, hepoch, rfl⟩
    createdAt := rfl
    history := hhistory
    listed := hvoteAccounts
    status := rfl
    stakes := ⟨⟨_, _, hmarinade, rfl⟩, ⟨_, _, hinstitutional, rfl⟩, ⟨_, _, hfoundation, rfl⟩,
      ⟨_, _, hnative, rfl⟩⟩
    selfStake := ⟨selfStake, hself, rfl⟩
    info := ?_
    dataCenters := ?_
    performance := hperformance }⟩
  · cases haccounts : node.configAccounts with
    | error failure =>
      rw [haccounts] at hinfo
      cases hinfo
    | ok accounts =>
      rw [haccounts] at hinfo
      exact ⟨accounts, rfl, infoOf_getValidatorsInfo hinfo⟩
  · obtain ⟨gossipNodes, hgossip, rfl⟩ := map_eq_ok.mp hips
    refine ⟨gossipNodes, hgossip, fun identity => ?_⟩
    unfold locatedAt
    cases node.whois with
    | none => rfl
    | some whois => exact get?_getDataCenters _ _ identity

/-- **If all calls succeed** then there is a snapshot, with a row for each vote account in their
order; no `unwrap` of its loop panics. -/
theorem exists_of_collectSources (h : collectSources node params = .ok sources) :
    ∃ snapshot, collectValidators node params = .ok snapshot ∧
      collectValidatorsInfo sources = some snapshot := by
  obtain ⟨voteAccounts, stakeHistory, hcalls⟩ := callsOf_collectSources h
  obtain ⟨hkeys, -⟩ := get?_validatorsPerformance hcalls.performance
  have hsome : (sources.voteAccounts.chain.mapM fun voteAccount =>
      (sources.performance.get? voteAccount.votePubkey).map
        (validatorSnapshot sources (getMinimumSuperminorityStake sources.voteAccounts)
          voteAccount)).isSome := by
    refine isSome_mapM.mpr fun voteAccount hmem => ?_
    rw [hcalls.status, NodeVoteAccounts.chain_status] at hmem
    obtain ⟨v, hv, rfl⟩ := List.mem_map.mp hmem
    have hkey : v.info.votePubkey ∈ sources.performance.keys := by
      rw [hkeys, NodeVoteAccounts.chained_performance, List.map_map]
      exact List.mem_map_of_mem (f := fun v : NodeVoteAccount => v.votePubkey) hv
    rw [Option.isSome_map, Option.isSome_iff_ne_none]
    exact fun hnone => Dict.get?_eq_none_iff.mp hnone hkey
  obtain ⟨validators, hvalidators⟩ := Option.isSome_iff_exists.mp hsome
  have hsnapshot : collectValidatorsInfo sources = some ⟨sources.epoch, sources.createdAt,
      validators⟩ := by
    unfold collectValidatorsInfo
    dsimp only
    rw [hvalidators]
    rfl
  refine ⟨_, ?_, hsnapshot⟩
  unfold collectValidators
  rw [h]
  show unwrap (collectValidatorsInfo sources) = _
  rw [hsnapshot]
  rfl

end Collected

/-! ## The layout of validator infos -/

/-- `bincode` for `ConfigKeys`, of less than 128 keys: their number in a byte, then 33 bytes for
each of them. -/
def bincodeConfigKeys : List UInt8 → Except String (List (Pubkey × Bool))
  | [] => .error "unexpected end of file"
  | count :: data =>
    if h : count.toNat * 33 ≤ data.length ∧ count < 128 then
      .ok (List.ofFn fun i : Fin count.toNat =>
        (pubkeyAt data (33 * i.val) (by omega), data[33 * i.val + 32]?.getD 0 ≠ 0))
    else .error "unexpected end of file"

/-- The data after the keys. -/
def dataAfterKeys : List UInt8 → Except String (List UInt8)
  | [] => .error "unexpected end of file"
  | count :: data => .ok (data.drop (count.toNat * 33))

/-- `bincode` for texts of ASCII characters: the length in eight bytes, then the characters. -/
def bincodeString (data : List UInt8) : Except String String :=
  .ok (String.ofList (((data.drop 8).take (readLE (data.take 8))).map fun byte =>
    Char.ofNat byte.toNat))

end DelegationStrategy.Collect
