import DelegationStrategy.Collect.InflationRewards
import DelegationStrategy.Store.CloseEpoch

/-!
# The closed epoch, as collected

From the node to the table: `collect validators-performance --with-rewards` writes what the node
says of each vote account in an epoch, and `store close-epoch` gives it to the rows of the epoch.

- `reportedBy_of_collected`: an entry of the snapshot is what the node says of the vote account;
- `closeEpoch_asCollected`: a completed run gives each row of the epoch what the node says of its
  vote account, whatever the chunks of either program and the order of the hash maps, and leaves
  all other rows as they were. A snapshot without rewards stops the program before its first
  statement.
-/

namespace DelegationStrategy.Store

open DelegationStrategy.Lib DelegationStrategy.Collect

/-- The columns of a row that are final when its epoch is closed. -/
structure FinalColumns where
  commissionEffective : Option Int
  credits : Nat
  leaderSlots : Nat
  blocksProduced : Nat
  skipRate : Rat
  updatedAt : Timestamp
  deriving DecidableEq, Repr

def ValidatorsRow.finalColumns (row : ValidatorsRow) : FinalColumns :=
  { row with }

/-- What a node says of a vote account in an epoch. -/
structure ReportedBy (fromStr : String → Option Pubkey) (node : PerformanceNode) (epoch : Nat)
    (voteAccount : String) (columns : FinalColumns) : Prop where
  commission : ∃ address, fromStr voteAccount = some address ∧
    columns.commissionEffective =
      (node.inflationRewards.commission epoch address).map fun commission =>
        (commission.toNat : Int)
  credits : ∃ credits, getCredits node.creditsVoteAccounts epoch = .ok credits ∧
    columns.credits = ((credits.get? voteAccount).getD 0).toNat
  production : ∃ voteAccounts, node.voteAccounts = .ok voteAccounts ∧
    ∃ v ∈ voteAccounts.chained, v.votePubkey = voteAccount ∧ ∃ call production,
      getBlockProductionByValidator (node.production call) epoch = .ok production ∧
        (columns.leaderSlots, columns.blocksProduced) = (production.get? v.nodePubkey).getD (0, 0)
  skipRate : columns.skipRate = skipRate columns.leaderSlots columns.blocksProduced
  updatedAt : columns.updatedAt = node.now

/-! ## The columns through a run -/

section Columns

variable {snapshot : ValidatorsPerformanceSnapshot} {rewards : Dict String ValidatorRewards}
variable {db db' : Database}

/-- The columns of a record. -/
def ValidatorUpdateRecord.finalColumns (v : ValidatorUpdateRecord) : FinalColumns :=
  { v with }

/-- The columns of a row after a run. -/
def closedColumns (snapshot : ValidatorsPerformanceSnapshot)
    (rewards : Dict String ValidatorRewards) (row : ValidatorsRow) : FinalColumns :=
  if row.epoch = snapshot.epoch then
    ((updateRecord? snapshot rewards row.voteAccount).map
      ValidatorUpdateRecord.finalColumns).getD row.finalColumns
  else row.finalColumns

/-- A row that keeps its key and gets these columns. -/
structure Becomes (columns : FinalColumns) (row row' : ValidatorsRow) : Prop where
  voteAccount : row'.voteAccount = row.voteAccount
  epoch : row'.epoch = row.epoch
  columns : row'.finalColumns = columns

theorem becomes_finalizedRow (row : ValidatorsRow) :
    Becomes (closedColumns snapshot rewards row) row (finalizedRow snapshot rewards row) := by
  unfold closedColumns finalizedRow editRow
  by_cases hepoch : row.epoch = snapshot.epoch
  · cases hget : snapshot.validators.get? row.voteAccount with
    | none =>
      have hkey := Dict.get?_eq_none_iff.mp hget
      have hrecord : updateRecord? snapshot rewards row.voteAccount = none := by
        rw [updateRecord?, hget]
        rfl
      rw [if_pos hepoch, hrecord, if_neg fun h => hkey h.2]
      exact ⟨rfl, rfl, rfl⟩
    | some p =>
      have hkey : row.voteAccount ∈ snapshot.validators.keys :=
        List.mem_map_of_mem (Dict.mem_of_get? hget)
      have hrecord : updateRecord? snapshot rewards row.voteAccount =
          some (validatorUpdateRecord snapshot rewards row.voteAccount p) := by
        rw [updateRecord?, hget]
        rfl
      rw [if_pos hepoch, if_pos ⟨hepoch, hkey⟩, hrecord]
      exact ⟨rfl, rfl, rfl⟩
  · rw [if_neg hepoch, if_neg fun h => hepoch h.1]
    exact ⟨rfl, rfl, rfl⟩

/-- The two statements after the updates write other columns. -/
theorem Becomes.timedRow {columns : FinalColumns} {row row' : ValidatorsRow}
    (h : Becomes columns row row') (vars : EpochsRow) (uptimes : List UptimeRow) :
    Becomes columns row (timedRow vars uptimes row') := by
  obtain ⟨pct, uptime, downtime, htimed⟩ := timedRow_eq vars uptimes row'
  rw [htimed]
  exact ⟨h.voteAccount, h.epoch, h.columns⟩

theorem Becomes.observedRow {columns : FinalColumns} {row row' : ValidatorsRow}
    (h : Becomes columns row row') (epoch : Nat) (commissions : List CommissionRow) :
    Becomes columns row (observedRow epoch commissions row') := by
  unfold Store.observedRow
  split
  · exact ⟨h.voteAccount, h.epoch, h.columns⟩
  · exact h

/-- The record of an epoch has the inflation of the snapshot. -/
theorem epochRecord_inflation {epoch : Nat} {clusterInflation : ClusterInflation}
    {record : EpochsRow} (h : epochRecord epoch clusterInflation db = some record) :
    record.supply = clusterInflation.solTotalSupply ∧
      record.inflation = clusterInflation.inflation ∧
      record.inflationTaper = clusterInflation.inflationTaper := by
  unfold epochRecord at h
  simp only [Option.bind_eq_bind, Option.bind_eq_some_iff, Option.some.injEq] at h
  obtain ⟨_, -, _, -, _, -, _, -, rfl⟩ := h
  exact ⟨rfl, rfl, rfl⟩

/-- **A completed run** gives every row its columns and appends the record of the epoch. -/
theorem becomes_closeResult {clusterInflation : ClusterInflation}
    (h : closeResult snapshot rewards clusterInflation db = .ok db') :
    List.Forall₂ (fun row row' => Becomes (closedColumns snapshot rewards row) row row')
      db.validators db'.validators ∧
    ∃ record, epochRecord snapshot.epoch clusterInflation db = some record ∧
      db'.epochs = db.epochs ++ [record] := by
  obtain ⟨recorded, hrecorded, h⟩ := bind_eq_ok.mp h
  obtain ⟨timed, htimed, hobserved⟩ := bind_eq_ok.mp h
  obtain rfl := Except.ok.inj hobserved
  obtain ⟨record, hrecord, -, rfl⟩ := createEpochRecord_eq_ok.mp hrecorded
  have hfinalized : List.Forall₂
      (fun row row' => Becomes (closedColumns snapshot rewards row) row row')
      db.validators (db.validators.map (finalizedRow snapshot rewards)) :=
    List.forall₂_map_right_iff.mpr (List.forall₂_same.mpr fun row _ => becomes_finalizedRow row)
  rcases updateUptimes_eq_ok htimed with rfl | ⟨vars, -, rfl⟩
  · exact ⟨List.forall₂_map_right_iff.mpr (hfinalized.imp fun _ _ hrow => hrow.observedRow _ _),
      record, hrecord, rfl⟩
  · refine ⟨List.forall₂_map_right_iff.mpr (List.forall₂_map_right_iff.mpr
      (hfinalized.imp fun _ _ hrow => ?_)), record, hrecord, rfl⟩
    exact (hrow.timedRow _ _).observedRow _ _

end Columns

/-! ## From the node to the table -/

section Collected

variable {fromStr : String → Option Pubkey} {node : PerformanceNode}
variable {rpcAttempts : Nat} {voteAccounts : VoteAccountStatus}
variable {snapshot : ValidatorsPerformanceSnapshot} {rewards : Dict String ValidatorRewards}

/-- A record is made of what the node says of its vote account. -/
theorem reportedBy_of_collected
    (hfromStr : ∀ text key, fromStr text = some key → key.base58 = text)
    (hvoteAccounts : node.voteAccounts = .ok voteAccounts)
    (hperformance : validatorsPerformance
      { voteAccounts
        production := node.production
        clusterNodes := node.clusterNodes
        creditsVoteAccounts := node.creditsVoteAccounts } snapshot.epoch
        rpcAttempts = .ok snapshot.validators)
    (hrewards : validatorRewards fromStr node.inflationRewards voteAccounts snapshot.epoch =
      .ok rewards)
    (hcreatedAt : snapshot.createdAt = node.now) {voteAccount : String}
    {v : ValidatorUpdateRecord} (hrecord : updateRecord? snapshot rewards voteAccount = some v) :
    ReportedBy fromStr node snapshot.epoch voteAccount v.finalColumns := by
  obtain ⟨p, hget, rfl⟩ := Option.map_eq_some_iff.mp hrecord
  obtain ⟨-, hentries⟩ := get?_validatorsPerformance hperformance
  obtain ⟨hcredits, ⟨reported, hreported, rfl, hproduction⟩, hskipRate⟩ := hentries _ p hget
  obtain ⟨address, haddress, hreward⟩ := get?_validatorRewards hfromStr hrewards hreported
  refine ⟨⟨address, haddress, ?_⟩, hcredits,
    ⟨voteAccounts, hvoteAccounts, reported, hreported, rfl, hproduction⟩, hskipRate, hcreatedAt⟩
  show (rewards.get? reported.votePubkey).bind _ = _
  rw [hreward]
  show (node.inflationRewards.commission snapshot.epoch address).bind _ = _
  cases node.inflationRewards.commission snapshot.epoch address with
  | none => rfl
  | some commission => rfl

end Collected

/-- The node lists the vote account, as current or as delinquent. -/
def Lists (node : PerformanceNode) (voteAccount : String) : Prop :=
  ∃ voteAccounts, node.voteAccounts = .ok voteAccounts ∧
    voteAccount ∈ voteAccounts.chained.map VoteAccountPerformance.votePubkey

/-- The row keeps its key; if the node lists its vote account and it is of the epoch, its columns
are what the node says, and else they are as they were. -/
structure ClosedAsReported (fromStr : String → Option Pubkey) (node : PerformanceNode)
    (closed : Nat) (row row' : ValidatorsRow) : Prop where
  voteAccount : row'.voteAccount = row.voteAccount
  epoch : row'.epoch = row.epoch
  reported : row.epoch = closed → Lists node row.voteAccount →
    ReportedBy fromStr node closed row.voteAccount row'.finalColumns
  unchanged : ¬ (row.epoch = closed ∧ Lists node row.voteAccount) →
    row'.finalColumns = row.finalColumns

/-- **The epoch is closed as collected.** -/
theorem closeEpoch_asCollected (fromStr : String → Option Pubkey)
    (hfromStr : ∀ text key, fromStr text = some key → key.base58 = text) (node : PerformanceNode)
    (performanceParams : ValidatorsPerformanceParams) (snapshot : ValidatorsPerformanceSnapshot)
    (hcollect : collectValidatorsPerformanceInfo fromStr node performanceParams = .ok snapshot)
    (scan : Scan) (db : Database) (hkey : PrimaryKey db.validators) :
    (performanceParams.withRewards = false → closeEpochStatements scan snapshot = none) ∧
    (performanceParams.withRewards = true →
      ∃ statements, closeEpochStatements scan snapshot = some statements ∧
        ∀ db', commitAll statements db = .ok db' →
          List.Forall₂ (ClosedAsReported fromStr node snapshot.epoch) db.validators
            db'.validators ∧
          ∃ record, db'.epochs = db.epochs ++ [record] ∧ record.epoch = snapshot.epoch ∧
            node.supply = .ok record.supply ∧ node.inflationRate = .ok record.inflation ∧
            node.inflationTaper = .ok record.inflationTaper) := by
  obtain ⟨voteAccounts, hvoteAccounts, hperformance, hcreatedAt, hrewards⟩ :=
    collected_cases hcollect
  have hlists : ∀ voteAccount, Lists node voteAccount ↔
      voteAccount ∈ snapshot.validators.keys := by
    intro voteAccount
    rw [(get?_validatorsPerformance hperformance).1]
    constructor
    · rintro ⟨other, hother, hmem⟩
      obtain rfl := Except.ok.inj (hvoteAccounts.symm.trans hother)
      exact hmem
    · exact fun hmem => ⟨voteAccounts, hvoteAccounts, hmem⟩
  rcases hrewards with ⟨hwithout, hnone, -⟩ |
    ⟨hwith, rewards, inflation, hpaid, hsome, hnode, hinflation⟩
  · refine ⟨fun _ => ?_, fun hwith => ?_⟩
    · unfold closeEpochStatements
      rw [hnone]
      rfl
    · rw [hwithout] at hwith
      cases hwith
  · refine ⟨fun hwithout => ?_, fun _ => ?_⟩
    · rw [hwith] at hwithout
      cases hwithout
    · refine ⟨_, by unfold closeEpochStatements; rw [hsome, hinflation]; rfl, fun db' hrun => ?_⟩
      rw [commitAll_closeEpoch hkey] at hrun
      obtain ⟨hrows, record, hrecord, hepochs⟩ := becomes_closeResult hrun
      have hcluster : node.supply = .ok record.supply ∧ node.inflationRate = .ok record.inflation ∧
          node.inflationTaper = .ok record.inflationTaper := by
        obtain ⟨supply, hsupply, hnode⟩ := bind_eq_ok.mp hnode
        obtain ⟨rate, hrate, hnode⟩ := bind_eq_ok.mp hnode
        obtain ⟨taper, htaper, hnode⟩ := bind_eq_ok.mp hnode
        obtain rfl := Except.ok.inj hnode
        obtain ⟨h₁, h₂, h₃⟩ := epochRecord_inflation hrecord
        rw [h₁, h₂, h₃]
        exact ⟨hsupply, hrate, htaper⟩
      refine ⟨hrows.imp fun row row' hbecomes => ?_, record, hepochs, epochRecord_epoch hrecord,
        hcluster⟩
      refine ⟨hbecomes.voteAccount, hbecomes.epoch, fun hepoch hlisted => ?_, fun hnot => ?_⟩
      · -- a listed vote account has a record
        obtain ⟨p, hp⟩ := Option.ne_none_iff_exists'.mp fun hnone =>
          Dict.get?_eq_none_iff.mp hnone ((hlists _).mp hlisted)
        have hupdate : updateRecord? snapshot rewards row.voteAccount =
            some (validatorUpdateRecord snapshot rewards row.voteAccount p) := by
          rw [updateRecord?, hp]
          rfl
        have hreported := reportedBy_of_collected hfromStr hvoteAccounts hperformance hpaid
          hcreatedAt hupdate
        rw [hbecomes.columns, closedColumns, if_pos hepoch, hupdate]
        exact hreported
      · rw [hbecomes.columns]
        unfold closedColumns
        by_cases hepoch : row.epoch = snapshot.epoch
        · have hnone : updateRecord? snapshot rewards row.voteAccount = none := by
            have hkeys : row.voteAccount ∉ snapshot.validators.keys := fun hmem =>
              hnot ⟨hepoch, (hlists _).mpr hmem⟩
            rw [updateRecord?, Dict.get?_eq_none_iff.mpr hkeys]
            rfl
          rw [if_pos hepoch, hnone]
          rfl
        · rw [if_neg hepoch]

/-- The address of a vote account. -/
def paidAddress : Pubkey := keyOfByte 9

/-- It is the only one that is parsed. -/
def parsePaid (text : String) : Option Pubkey :=
  if text = paidAddress.base58 then some paidAddress else none

theorem parsePaid_base58 : ∀ text key, parsePaid text = some key → key.base58 = text := by
  intro text key h
  unfold parsePaid at h
  split at h
  · obtain rfl := Option.some.inj h
    exact (by assumption : text = paidAddress.base58).symm
  · cases h

/-- A node in epoch 500, which has paid the vote account its reward with a commission of 7. -/
def payingNode : PerformanceNode where
  now := 6 * minute
  epochInfo := .ok ⟨500, 3, some 10⟩
  voteAccounts := .ok ⟨[⟨paidAddress.base58, "first", 5, [(500, 30, 10)]⟩], []⟩
  production _ :=
    { fourSlots with blockProduction := .ok ⟨⟨[("first", (4, 3))], List.nodup_singleton _⟩, 2000⟩ }
  clusterNodes := .ok []
  creditsVoteAccounts := .ok ⟨[⟨paidAddress.base58, "first", 5, [(500, 30, 10)]⟩], []⟩
  inflationRewards := InflationRewards.reliable fun address epoch =>
    if address = paidAddress ∧ epoch = 500 then some ⟨some 7⟩ else none
  supply := .ok 500000000
  inflationRate := .ok (1 / 20)
  inflationTaper := .ok (3 / 20)

/-- The database of the epoch, with this vote account. -/
def paidDatabase : Database :=
  { openDatabase with
    validators := openDatabase.validators.map fun row =>
      { row with voteAccount := paidAddress.base58 } }

/-- The commission of the reward is in the row. -/
theorem closeEpoch_asCollected_paid : ∃ snapshot statements db',
    collectValidatorsPerformanceInfo parsePaid payingNode ⟨true, none, 1⟩ = .ok snapshot ∧
      closeEpochStatements .sequential snapshot = some statements ∧
      commitAll statements paidDatabase = .ok db' ∧
      ∀ row' ∈ db'.validators, row'.commissionEffective = some 7 := by
  have hruns : ((collectValidatorsPerformanceInfo parsePaid payingNode ⟨true, none, 1⟩).toOption.any
      fun snapshot => snapshot.epoch = 500 ∧
        ((closeEpochStatements .sequential snapshot).bind fun statements =>
          (commitAll statements paidDatabase).toOption).isSome) = true := by
    decide
  cases hcollect : collectValidatorsPerformanceInfo parsePaid payingNode ⟨true, none, 1⟩ with
  | error failure =>
    rw [hcollect] at hruns
    cases hruns
  | ok snapshot =>
    rw [hcollect] at hruns
    obtain ⟨hepoch, hclosed⟩ := of_decide_eq_true hruns
    have hkey : PrimaryKey paidDatabase.validators := by
      unfold PrimaryKey
      decide
    obtain ⟨statements, hstatements, hrun⟩ := (closeEpoch_asCollected parsePaid parsePaid_base58
      payingNode ⟨true, none, 1⟩ snapshot hcollect .sequential paidDatabase hkey).2 rfl
    rw [hstatements] at hclosed
    obtain ⟨db', hdb'⟩ := Option.isSome_iff_exists.mp hclosed
    have hcommit : commitAll statements paidDatabase = .ok db' := by
      cases hresult : commitAll statements paidDatabase with
      | error e =>
        rw [Option.bind_some, hresult] at hdb'
        cases hdb'
      | ok db =>
        rw [Option.bind_some, hresult] at hdb'
        exact congrArg _ (Option.some.inj hdb')
    refine ⟨snapshot, statements, db', rfl, hstatements, hcommit, fun row' hrow' => ?_⟩
    -- the row comes from one of the epoch with the listed vote account
    obtain ⟨row, hrow, hclosed⟩ := exists_of_forall₂ (hrun db' hcommit).1.flip hrow'
    have hall : ∀ row ∈ paidDatabase.validators,
        row.epoch = 500 ∧ row.voteAccount = paidAddress.base58 := by
      decide
    obtain ⟨hrowEpoch, hvote⟩ := hall row hrow
    obtain ⟨address, haddress, hcommission⟩ := (hclosed.reported (hrowEpoch.trans hepoch.symm)
      ⟨_, rfl, hvote ▸ List.mem_cons_self⟩).commission
    have hparsed : parsePaid paidAddress.base58 = some paidAddress := if_pos rfl
    rw [hvote, hparsed] at haddress
    obtain rfl := Option.some.inj haddress
    rw [hepoch] at hcommission
    exact hcommission

end DelegationStrategy.Store
