import DelegationStrategy.Collect.ValidatorsInfo
import DelegationStrategy.Store.Validators

/-!
# Validators, as collected

From the node to the table: `collect validators` asks the node and the services, and
`store validators` gives the rows of the epoch what they say.

- `storedFrom_of_collected`: a row that holds the fields of a collected validator has what the
  node says of its vote account;
- `validators_asCollected`: if all calls succeed then the snapshot is written and stored, and each
  vote account of the node has one row for the epoch with what the node and the services say of
  it, whatever the order of the hash maps; the rows of other epochs and vote accounts stay.
-/

namespace DelegationStrategy.Store

open DelegationStrategy.Lib DelegationStrategy.Collect

/-- The columns of a row for the data center of a node. -/
structure LocatedAt (located : Option (String × IpInfo)) (row : ValidatorsRow) : Prop where
  nodeIp : row.nodeIp = located.map Prod.fst
  lat : row.dcCoordinatesLat = (located.bind fun place => place.2.coordinates).map Coordinates.lat
  lon : row.dcCoordinatesLon = (located.bind fun place => place.2.coordinates).map Coordinates.lon
  continent : row.dcContinent = located.bind fun place => place.2.continent
  countryIso : row.dcCountryIso = located.bind fun place => place.2.countryIso
  country : row.dcCountry = located.bind fun place => place.2.country
  city : row.dcCity = located.bind fun place => place.2.city
  asn : row.dcAsn = (located.bind fun place => place.2.asn).map fun asn => (asn.toNat : Int)
  aso : row.dcAso = located.bind fun place => place.2.aso

/-- What the node and the services say of a vote account, in the columns of its row. -/
structure StoredFrom (node : ValidatorsNode) (params : ValidatorsParams) (epoch : Nat)
    (stakeHistory : StakeHistory) (voteAccounts : NodeVoteAccounts) (v : NodeVoteAccount)
    (oldVersion : Option String) (row : ValidatorsRow) : Prop where
  identity : row.identity = v.nodePubkey
  updatedAt : row.updatedAt = node.now
  activatedStake : row.activatedStake = v.activatedStake.toNat
  superminority : row.superminority =
    decide (getMinimumSuperminorityStake voteAccounts.status ≤ v.activatedStake)
  info : ∃ accounts info, node.configAccounts = .ok accounts ∧
    InfoOf (accounts.filterMap (infoIn node.configProgram)) v.nodePubkey info ∧
    row.infoName = info.name ∧ row.infoUrl = info.url ∧ row.infoKeybase = info.keybase ∧
    row.infoIconUrl = info.iconUrl
  dataCenter : ∃ gossipNodes, node.gossipNodes = .ok gossipNodes ∧
    LocatedAt (locatedAt node gossipNodes v.nodePubkey) row
  stakes : delegatedTotal node.stakeProgram epoch stakeHistory node.stakeAccounts.accounts
      v.votePubkey < 2 ^ 64 →
    let stakeOf := fun authority withdrawer => delegatedTotal node.stakeProgram epoch stakeHistory
      (accountsOf node.stakeAccounts.accounts authority withdrawer) v.votePubkey
    row.marinadeStake = stakeOf marinadeDelegationAuthority (some marinadeWithdrawerAuthority) ∧
    row.institutionalStake = stakeOf institutionalAuthority none ∧
    row.foundationStake = stakeOf (foundationAuthority node.url) none ∧
    row.marinadeNativeStake = stakeOf marinadeNativeStakeAuthority none
  selfStake : ∃ selfStake, getSelfStake node.stakeProgram node.selfStake epoch stakeHistory
      (params.allowZeroFundedBonds || node.allowZeroFundedBonds == some "true")
      params.rpcAttempts = .ok selfStake ∧
    row.selfStake = ((selfStake.get? v.votePubkey).getD 0).toNat
  performance : ∃ p, PerformanceFrom
      { voteAccounts := voteAccounts.performance
        production := node.production
        clusterNodes := node.clusterNodes
        creditsVoteAccounts := node.creditsVoteAccounts.map NodeVoteAccounts.performance }
      epoch v.toVoteAccountPerformance p ∧
    row.commissionAdvertised = some (p.commission.toNat : Int) ∧
    row.version = p.version.or oldVersion ∧ row.credits = p.credits ∧
    row.leaderSlots = p.leaderSlots ∧ row.blocksProduced = p.blocksProduced ∧
    row.skipRate = p.skipRate

section Rows

variable {node : ValidatorsNode} {params : ValidatorsParams} {sources : ValidatorsSources}
variable {voteAccounts : NodeVoteAccounts} {stakeHistory : StakeHistory}
variable {snapshot : Snapshot} {oldVersion : Option String} {row : ValidatorsRow}

/-- The columns for the data center of a validator. -/
theorem locatedAt_of_collected {w : ValidatorSnapshot} {located : Option (String × IpInfo)}
    (hip : w.nodeIp = located.map Prod.fst)
    (hdataCenter : w.dataCenter = located.map fun place => ValidatorDataCenter.new place.2)
    (hrow : Collected snapshot w oldVersion row) : LocatedAt located row := by
  cases located with
  | none =>
    have hnone : w.dataCenter = none := hdataCenter
    obtain ⟨hlat, hlon⟩ := hrow.noCoordinates hnone
    have hcontinent := hrow.dcContinent
    have hcountryIso := hrow.dcCountryIso
    have hcountry := hrow.dcCountry
    have hcity := hrow.dcCity
    have hasn := hrow.dcAsn
    have haso := hrow.dcAso
    rw [hnone] at hcontinent hcountryIso hcountry hcity hasn haso
    exact ⟨hrow.nodeIp.trans hip, hlat, hlon, hcontinent, hcountryIso, hcountry, hcity, hasn, haso⟩
  | some place =>
    have hsome : w.dataCenter = some (.new place.2) := hdataCenter
    obtain ⟨hlat, hlon⟩ := hrow.dcCoordinates place.2 hsome
    have hcontinent := hrow.dcContinent
    have hcountryIso := hrow.dcCountryIso
    have hcountry := hrow.dcCountry
    have hcity := hrow.dcCity
    have hasn := hrow.dcAsn
    have haso := hrow.dcAso
    rw [hsome] at hcontinent hcountryIso hcountry hcity hasn haso
    exact ⟨hrow.nodeIp.trans hip, hlat, hlon, hcontinent, hcountryIso, hcountry, hcity, hasn, haso⟩

/-- A row with the fields of a collected validator. -/
theorem storedFrom_of_collected
    (hcalls : CallsOf node params sources voteAccounts stakeHistory)
    (haccounts : (node.stakeAccounts.accounts.map Prod.fst).Nodup)
    {v : NodeVoteAccount} {p : ValidatorPerformance}
    (hp : PerformanceFrom
      { voteAccounts := voteAccounts.performance
        production := node.production
        clusterNodes := node.clusterNodes
        creditsVoteAccounts := node.creditsVoteAccounts.map NodeVoteAccounts.performance }
      sources.epoch v.toVoteAccountPerformance p)
    (hcreated : snapshot.createdAt = sources.createdAt)
    (hrow : Collected snapshot (validatorSnapshot sources
      (getMinimumSuperminorityStake sources.voteAccounts) v.info p) oldVersion row) :
    StoredFrom node params sources.epoch stakeHistory voteAccounts v oldVersion row where
  identity := hrow.identity
  updatedAt := hrow.updatedAt.trans (hcreated.trans hcalls.createdAt)
  activatedStake := hrow.activatedStake
  superminority := by
    rw [hrow.superminority, ← hcalls.status]
    rfl
  info := by
    obtain ⟨accounts, haccounts, hinfo⟩ := hcalls.info
    exact ⟨accounts, _, haccounts, hinfo v.nodePubkey, hrow.infoName, hrow.infoUrl,
      hrow.infoKeybase, hrow.infoIconUrl⟩
  dataCenter := by
    obtain ⟨gossipNodes, hgossip, hdataCenters⟩ := hcalls.dataCenters
    refine ⟨gossipNodes, hgossip, ?_⟩
    rw [← hdataCenters]
    exact locatedAt_of_collected rfl rfl hrow
  stakes hfit := by
    obtain ⟨hmarinade, hinstitutional, hfoundation, hnative⟩ :=
      stakeColumns v.votePubkey haccounts hcalls.stakes hfit
    exact ⟨hrow.marinadeStake.trans hmarinade, hrow.institutionalStake.trans hinstitutional,
      hrow.foundationStake.trans hfoundation, hrow.marinadeNativeStake.trans hnative⟩
  selfStake := by
    obtain ⟨selfStake, hself, hmap⟩ := hcalls.selfStake
    refine ⟨selfStake, hself, hrow.selfStake.trans ?_⟩
    show (sources.selfStake.get? v.votePubkey).getD 0 = _
    rw [hmap, getD_mapVal_toNat]
  performance := ⟨p, hp, hrow.commissionAdvertised, hrow.version, hrow.credits, hrow.leaderSlots,
    hrow.blocksProduced, hrow.skipRate⟩

/-- The validators of a collected snapshot are the vote accounts of the node, with their own
performance. -/
theorem exists_validator_of_calls (hcalls : CallsOf node params sources voteAccounts stakeHistory)
    (hlisted : (voteAccounts.chain.map fun v => v.votePubkey).Nodup)
    (hsnapshot : collectValidatorsInfo sources = some snapshot) :
    snapshot.epoch = sources.epoch ∧ snapshot.createdAt = sources.createdAt ∧
      snapshot.validators.map ValidatorSnapshot.voteAccount =
        voteAccounts.chain.map (fun v => v.votePubkey) ∧
      ∀ v ∈ voteAccounts.chain, ∃ p, PerformanceFrom
          { voteAccounts := voteAccounts.performance
            production := node.production
            clusterNodes := node.clusterNodes
            creditsVoteAccounts := node.creditsVoteAccounts.map NodeVoteAccounts.performance }
          sources.epoch v.toVoteAccountPerformance p ∧
        validatorSnapshot sources (getMinimumSuperminorityStake sources.voteAccounts) v.info p ∈
          snapshot.validators := by
  obtain ⟨validators, hvalidators, hsnapshot⟩ := Option.bind_eq_some_iff.mp hsnapshot
  obtain rfl := Option.some.inj hsnapshot
  have hchain : sources.voteAccounts.chain = voteAccounts.chain.map NodeVoteAccount.info := by
    rw [hcalls.status, NodeVoteAccounts.chain_status]
  refine ⟨rfl, rfl, ?_, fun v hv => ?_⟩
  · have hmap : validators.map ValidatorSnapshot.voteAccount =
        sources.voteAccounts.chain.map RpcVoteAccountInfo.votePubkey := by
      refine map_mapM (fun v row hrow => ?_) hvalidators
      obtain ⟨performance, -, rfl⟩ := Option.map_eq_some_iff.mp hrow
      rfl
    rw [hmap, hchain, List.map_map]
    rfl
  · have hchained := NodeVoteAccounts.chained_performance voteAccounts
    obtain ⟨p, hget, hp⟩ := performanceFrom_of_mem hcalls.performance (by
        rw [hchained, List.map_map]
        exact hlisted) (v := v.toVoteAccountPerformance) (by
        rw [hchained]
        exact List.mem_map_of_mem hv)
    refine ⟨p, hp, (mem_mapM hvalidators).mpr ⟨v.info, ?_, ?_⟩⟩
    · rw [hchain]
      exact List.mem_map_of_mem hv
    · show (sources.performance.get? v.votePubkey).map _ = _
      rw [hget]
      rfl

/-- The numbers of systems are those that the service answered with. -/
theorem asnsFit_of_calls (hcalls : CallsOf node params sources voteAccounts stakeHistory)
    (hasn : ∀ whois, node.whois = some whois → ∀ identity ip info,
      whois identity ip = some info → ∀ asn ∈ info.asn, asn.toNat < 2 ^ 31)
    (hsnapshot : collectValidatorsInfo sources = some snapshot) : AsnsFit snapshot := by
  obtain ⟨validators, hvalidators, hsnapshot⟩ := Option.bind_eq_some_iff.mp hsnapshot
  obtain rfl := Option.some.inj hsnapshot
  intro w hw dataCenter hdataCenter asn hmem
  obtain ⟨v, -, hv⟩ := (mem_mapM hvalidators).mp hw
  obtain ⟨p, -, rfl⟩ := Option.map_eq_some_iff.mp hv
  obtain ⟨place, hplace, rfl⟩ := Option.map_eq_some_iff.mp hdataCenter
  obtain ⟨gossipNodes, -, hlocated⟩ := hcalls.dataCenters
  rw [hlocated] at hplace
  obtain ⟨whois, hwhois, hplace⟩ := Option.bind_eq_some_iff.mp hplace
  obtain ⟨ip, -, hplace⟩ := Option.bind_eq_some_iff.mp hplace
  -- only an answer of the service is a data center
  obtain ⟨-, hplace⟩ := Option.ite_none_left_eq_some.mp hplace
  obtain ⟨info, hinfo, rfl⟩ := Option.map_eq_some_iff.mp hplace
  exact hasn whois hwhois _ ip info hinfo asn hmem

end Rows

/-- **From the node to the table.** -/
theorem validators_asCollected (node : ValidatorsNode) (params : ValidatorsParams)
    (sources : ValidatorsSources) (hcalls : collectSources node params = .ok sources)
    (hlisted : ∀ voteAccounts, node.voteAccounts = .ok voteAccounts →
      (voteAccounts.chain.map fun v => v.votePubkey).Nodup)
    (haccounts : (node.stakeAccounts.accounts.map Prod.fst).Nodup)
    (hasn : ∀ whois, node.whois = some whois → ∀ identity ip info,
      whois identity ip = some info → ∀ asn ∈ info.asn, asn.toNat < 2 ^ 31)
    (scan : Scan) (table : List ValidatorsRow) (hkey : PrimaryKey table) :
    ∃ snapshot voteAccounts stakeHistory table',
      collectValidators node params = .ok snapshot ∧
      node.voteAccounts = .ok voteAccounts ∧ node.stakeHistory = .ok stakeHistory ∧
      storeValidators scan snapshot table = .ok table' ∧ PrimaryKey table' ∧
      (∀ v ∈ voteAccounts.chain, ∃ row,
        rowsAt table' v.votePubkey snapshot.epoch = [row] ∧
        StoredFrom node params snapshot.epoch stakeHistory voteAccounts v
          ((rowsAt table v.votePubkey snapshot.epoch).head?.bind ValidatorsRow.version) row ∧
        ∀ old ∈ rowsAt table v.votePubkey snapshot.epoch,
          closingColumns row = closingColumns old) ∧
      ∀ voteAccount epoch, (epoch ≠ snapshot.epoch ∨
          voteAccount ∉ voteAccounts.chain.map fun v => v.votePubkey) →
        rowsAt table' voteAccount epoch = rowsAt table voteAccount epoch := by
  obtain ⟨voteAccounts, stakeHistory, hcallsOf⟩ := callsOf_collectSources hcalls
  obtain ⟨snapshot, hrun, hsnapshot⟩ := exists_of_collectSources hcalls
  have hnd := hlisted voteAccounts hcallsOf.listed
  obtain ⟨hepoch, hcreated, hvotes, hvalidators⟩ :=
    exists_validator_of_calls hcallsOf hnd hsnapshot
  have hfit := asnsFit_of_calls hcallsOf hasn hsnapshot
  refine ⟨snapshot, voteAccounts, stakeHistory, _, hrun, hcallsOf.listed, hcallsOf.history,
    storeValidators_eq_ok hkey, primaryKey_upserted hkey, fun v hv => ?_, fun _ _ h => ?_⟩
  · obtain ⟨p, hp, hmem⟩ := hvalidators v hv
    obtain ⟨row, hone, hrow, hclosing⟩ : ∃ row,
        rowsAt (upserted scan snapshot table) v.votePubkey snapshot.epoch = [row] ∧ _ ∧ _ :=
      rowsAt_upserted hkey (hvotes ▸ hnd) hfit hmem
    have hstored := storedFrom_of_collected hcallsOf haccounts hp hcreated hrow
    rw [← hepoch] at hstored
    exact ⟨row, hone, hstored, hclosing⟩
  · rw [← hvotes] at h
    exact rowsAt_upserted_other h

/-- A validator with a name. -/
def namedValidator : ConfigAccount where
  owner := keyOfByte 30
  data := [2] ++ (keyOfByte 31).bytes ++ [0] ++ (keyOfByte 11).bytes ++ [1] ++ toLE 8 12 ++
    "\x7b\"name\":\"N\"\x7d".toList.map fun c => UInt8.ofNat c.toNat

/-- A node with one vote account. -/
def oneVoteAccount : ValidatorsNode where
  now := 0
  url := ""
  epochInfo := .ok ⟨100, 0, none⟩
  voteAccounts := .ok
    ⟨[⟨⟨(keyOfByte 9).base58, (keyOfByte 11).base58, 5, [(100, 30, 10)]⟩, 2000⟩], []⟩
  stakeHistory := .ok []
  stakeProgram := youngStakeProgram
  stakeAccounts := fourStakers
  selfStake := fiveStakeAccounts
  allowZeroFundedBonds := none
  configProgram :=
    { id := keyOfByte 30
      validatorInfoId := keyOfByte 31
      configKeys := bincodeConfigKeys
      getConfigData := dataAfterKeys
      deserializeString := bincodeString
      jsonFromStr := fun text =>
        if text = "\x7b\"name\":\"N\"\x7d" then .ok (Dict.ofList [("name", .string "N")])
        else .error "expected value at line 1 column 1" }
  configAccounts := .ok [(keyOfByte 12, namedValidator)]
  gossipNodes := .ok [⟨(keyOfByte 11).base58, some "10.0.0.1"⟩]
  whois := some fun _ _ => some frankfurt
  production _ := fourSlots
  clusterNodes := .ok []
  creditsVoteAccounts := .ok
    ⟨[⟨⟨(keyOfByte 9).base58, (keyOfByte 11).base58, 5, [(100, 30, 10)]⟩, 2000⟩], []⟩
  iteration _ := .sequential

/-- The name, the data center and the stake get into the table. -/
theorem validators_asCollected_named : ∃ snapshot table' row,
    collectValidators oneVoteAccount ⟨none, false, 2⟩ = .ok snapshot ∧
      storeValidators .sequential snapshot [] = .ok table' ∧
      rowsAt table' (keyOfByte 9).base58 snapshot.epoch = [row] ∧
      row.identity = (keyOfByte 11).base58 ∧ row.activatedStake = 2000 ∧
      row.infoName = some "N" ∧ row.nodeIp = some "10.0.0.1" := by
  have hok : (collectSources oneVoteAccount ⟨none, false, 2⟩).toOption.isSome = true := by
    decide +kernel
  cases hsources : collectSources oneVoteAccount ⟨none, false, 2⟩ with
  | error failure =>
    rw [hsources] at hok
    cases hok
  | ok sources =>
    obtain ⟨snapshot, voteAccounts, _, table', hrun, hlisted, -, hstore, -, hrows, -⟩ :=
      validators_asCollected oneVoteAccount ⟨none, false, 2⟩ sources hsources
        (by rintro _ ⟨⟩; exact List.nodup_singleton _) (by decide)
        (by rintro _ ⟨⟩ _ _ _ ⟨⟩ _ ⟨⟩; decide) .sequential [] List.nodup_nil
    obtain rfl := Except.ok.inj hlisted
    obtain ⟨row, hone, hrow, -⟩ := hrows _ (List.mem_singleton_self _)
    refine ⟨snapshot, table', row, hrun, hstore, hone, hrow.identity, hrow.activatedStake, ?_, ?_⟩
    · obtain ⟨accounts, info, haccounts, hinfo, hname, -⟩ := hrow.info
      obtain rfl := Except.ok.inj haccounts
      have hinfos : [(keyOfByte 12, namedValidator)].filterMap
          (infoIn oneVoteAccount.configProgram) =
            [((keyOfByte 11).base58, { name := some "N" })] := by decide
      rw [hinfos] at hinfo
      rcases hinfo with ⟨before, after, hsplit, -⟩ | ⟨hnone, -⟩
      · have hmem : ((keyOfByte 11).base58, info) ∈ [((keyOfByte 11).base58,
            ({ name := some "N" } : ValidatorInfo))] := by
          rw [hsplit]
          exact List.mem_append_right _ List.mem_cons_self
        rw [hname, (Prod.mk.inj (List.mem_singleton.mp hmem)).2]
      · exact absurd (List.mem_singleton_self _) hnone
    · obtain ⟨gossipNodes, hgossip, hlocated⟩ := hrow.dataCenter
      obtain rfl := Except.ok.inj hgossip
      rw [hlocated.nodeIp]
      decide

end DelegationStrategy.Store
