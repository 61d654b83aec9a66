import DelegationStrategy.Store.CloseEpoch
import DelegationStrategy.Store.Jito
import DelegationStrategy.Store.QueryCombiner
import DelegationStrategy.Store.Scoring
import DelegationStrategy.Store.UptimeRuns

/-!
# The statements of the store commands

What the store commands send through the query combiners, as texts with parameters. The wire
protocol numbers the parameters of a statement by 16 bits (`maxParams`). `store_validators`,
`close_epoch`, `store_jito` and `store_scoring` combine at most 500 rows; `store_uptime`,
`store_commissions` and `store_versions` combine all rows they have.

- `statementsFit_iff`: so the statements of the first four always fit, and those of the others
  exactly if few enough validators have changed;
- `fit_changeQueries_newEpoch`: at a new epoch all of them have;
- `isOk_storeUptime_iff`, `isOk_storeChanges_iff`: this is when these commands succeed;
- `numbered_queries`: the text of every statement has one placeholder for each parameter.
-/

namespace DelegationStrategy.Store

open DelegationStrategy.Lib DelegationStrategy.Collect

/-! ## Combined statements -/

/-- A value behind `&(dyn ToSql + Sync)`. -/
inductive BoundValue where
  | scalar (value : SqlValue)
  | array (values : List SqlValue)
  deriving DecidableEq, Repr

/-- The `INSERT` of some rows. -/
def combineInsert (tableName columns : String) (rows : List (List BoundValue)) :
    List (CombinedQuery BoundValue) :=
  (rows.foldl InsertQueryCombiner.add (.new tableName columns)).execute.toList

/-- The `UPDATE` from some rows. -/
def combineUpdate (tableName updates valuesNames whereCondition : String)
    (rows : List (TypedValues BoundValue)) : List (CombinedQuery BoundValue) :=
  (rows.foldl UpdateQueryCombiner.add
    (.new tableName updates valuesNames whereCondition)).execute.2.toList

/-- The statements can be sent. -/
def Fit (queries : List (CombinedQuery BoundValue)) : Prop :=
  ∀ query ∈ queries, query.params.length ≤ maxParams

theorem fit_append {queries queries' : List (CombinedQuery BoundValue)} :
    Fit (queries ++ queries') ↔ Fit queries ∧ Fit queries' :=
  List.forall_mem_append

/-- Statements for chunks of at most 500 rows. -/
theorem fit_flatMap_chunks {β : Type} {l : List β}
    {queries : List β → List (CombinedQuery BoundValue)}
    (h : ∀ chunk, chunk.length ≤ 500 → Fit (queries chunk)) :
    Fit ((chunks 500 l).flatMap queries) := by
  intro query hquery
  obtain ⟨chunk, hchunk, hmem⟩ := List.mem_flatMap.mp hquery
  exact h chunk (length_of_mem_chunks hchunk) query hmem

/-- Rows of one width have that many values each. -/
theorem length_flatten_of_width {β : Type} {rows : List (List β)} {width : Nat}
    (h : ∀ row ∈ rows, row.length = width) : rows.flatten.length = rows.length * width := by
  rw [List.length_flatten, List.map_congr_left h, List.map_const', List.sum_replicate]
  rfl

/-- No rows, no statement, which fits. -/
theorem fit_toList {count : Nat} {statement : String} {params : List BoundValue}
    (h : count = 0 → params = []) :
    Fit (if count = 0 then none else some (⟨statement, params⟩ : CombinedQuery _)).toList ↔
      params.length ≤ maxParams := by
  by_cases hcount : count = 0
  · rw [if_pos hcount, h hcount]
    exact ⟨fun _ => Nat.zero_le _, fun _ => nofun⟩
  · rw [if_neg hcount]
    exact List.forall_mem_singleton

/-- The parameters of a combiner whose rows have one width. -/
theorem Combines.fit_iff {head : String} {calls : List (TypedValues BoundValue)} {count : Nat}
    {statement : String} {params : List BoundValue} {width : Nat}
    (h : Combines head calls count statement params) (text : String)
    (hwidth : ∀ call ∈ calls, call.values.length = width) :
    Fit (if count = 0 then none else some (⟨text, params⟩ : CombinedQuery _)).toList ↔
      calls.length * width ≤ maxParams := by
  have hlength : params.length = calls.length * width := by
    rw [h.params, List.flatMap_def, length_flatten_of_width, List.length_map]
    intro row hrow
    obtain ⟨call, hcall, rfl⟩ := List.mem_map.mp hrow
    exact hwidth call hcall
  rw [fit_toList, hlength]
  intro hcount
  rw [h.params, List.length_eq_zero_iff.mp (h.count.symm.trans hcount)]
  rfl

/-- An `INSERT` of rows of one width has that many parameters for each of them. -/
theorem fit_combineInsert_iff {tableName columns : String} {rows : List (List BoundValue)}
    (width : Nat) (hwidth : ∀ row ∈ rows, row.length = width) :
    Fit (combineInsert tableName columns rows) ↔ rows.length * width ≤ maxParams := by
  have hcalls : ∀ call ∈ rows.map TypedValues.untyped, call.values.length = width := by
    intro call hcall
    obtain ⟨row, hrow, rfl⟩ := List.mem_map.mp hcall
    exact hwidth row hrow
  rw [← List.length_map (f := TypedValues.untyped)]
  exact (InsertQueryCombiner.combines tableName columns rows).fit_iff _ hcalls

/-- So has an `UPDATE`. -/
theorem fit_combineUpdate_iff {tableName updates valuesNames whereCondition : String}
    {rows : List (TypedValues BoundValue)} (width : Nat)
    (hwidth : ∀ row ∈ rows, row.values.length = width) :
    Fit (combineUpdate tableName updates valuesNames whereCondition rows) ↔
      rows.length * width ≤ maxParams := by
  unfold combineUpdate
  rw [UpdateQueryCombiner.execute_snd]
  exact (UpdateQueryCombiner.combines tableName updates valuesNames whereCondition rows).fit_iff _
    hwidth

/-! ## The texts of typed statements -/

/-- The names of the types in casts. -/
def castName : SqlType → String
  | .text => "TEXT"
  | .integer => "INTEGER"
  | .numeric => "NUMERIC"
  | .doublePrecision => "DOUBLE PRECISION"
  | .bool => "BOOL"
  | .timestamp => "TIMESTAMP WITH TIME ZONE"

/-- The columns of `validators`. -/
def ValidatorsColumn.name : ValidatorsColumn → String
  | .identity => "identity"
  | .voteAccount => "vote_account"
  | .epoch => "epoch"
  | .infoName => "info_name"
  | .infoUrl => "info_url"
  | .infoKeybase => "info_keybase"
  | .nodeIp => "node_ip"
  | .dcCoordinatesLat => "dc_coordinates_lat"
  | .dcCoordinatesLon => "dc_coordinates_lon"
  | .dcContinent => "dc_continent"
  | .dcCountryIso => "dc_country_iso"
  | .dcCountry => "dc_country"
  | .dcCity => "dc_city"
  | .dcAsn => "dc_asn"
  | .dcAso => "dc_aso"
  | .commissionMaxObserved => "commission_max_observed"
  | .commissionMinObserved => "commission_min_observed"
  | .commissionAdvertised => "commission_advertised"
  | .commissionEffective => "commission_effective"
  | .version => "version"
  | .mndeVotes => "mnde_votes"
  | .activatedStake => "activated_stake"
  | .marinadeStake => "marinade_stake"
  | .marinadeNativeStake => "marinade_native_stake"
  | .superminority => "superminority"
  | .stakeToBecomeSuperminority => "stake_to_become_superminority"
  | .credits => "credits"
  | .leaderSlots => "leader_slots"
  | .blocksProduced => "blocks_produced"
  | .skipRate => "skip_rate"
  | .uptimePct => "uptime_pct"
  | .uptime => "uptime"
  | .downtime => "downtime"
  | .updatedAt => "updated_at"
  | .foundationStake => "foundation_stake"
  | .selfStake => "self_stake"
  | .institutionalStake => "institutional_stake"
  | .infoIconUrl => "info_icon_url"

def columnNames (columns : List ValidatorsColumn) : String :=
  ", ".intercalate (columns.map ValidatorsColumn.name)

def assignmentText : ValidatorsColumn × SetExpr ValidatorsColumn → String
  | (c, .value v) => c.name ++ " = u." ++ v.name
  | (c, .coalesce v) => c.name ++ " = COALESCE(u." ++ v.name ++ ", validators." ++ v.name ++ ")"

def conditionText (c : ValidatorsColumn) : String := "validators." ++ c.name ++ " = u." ++ c.name

/-- A typed `UPDATE` of `validators` as the combiner writes it, up to white space. -/
def combineValidatorsUpdate (q : UpdateQuery ValidatorsColumn) (tuples : List (List Param)) :
    List (CombinedQuery BoundValue) :=
  combineUpdate "validators" (", ".intercalate (q.updates.map assignmentText))
    ("u(" ++ columnNames q.valuesNames ++ ")")
    (" AND ".intercalate (q.whereCondition.map conditionText))
    (tuples.map fun tuple =>
      { values := tuple.map fun p => .scalar p.value
        types := Dict.ofList (q.types.map fun (i, type) => (i, castName type)) })

/-! ## Commands without chunks -/

section Changes

variable (scan : Scan) (snapshot : ValidatorsPerformanceSnapshot)

def statusName : Status → String
  | .up => "UP"
  | .down => "DOWN"

/-- `store_uptime`: the `UPDATE` of what the loop recorded, then the `INSERT`. -/
def uptimeQueries (rows : List UptimeRow) : List (CombinedQuery BoundValue) :=
  combineUpdate "uptimes" "end_at = u.end_at" "u(id, end_at)" "uptimes.id = u.id"
    ((scan.order (recordsExtensions snapshot scan rows).entries).map fun (id, statusEndAt) =>
      { values := [.scalar (.integer id), .scalar (.timestamp statusEndAt)]
        types := Dict.ofList [(0, "BIGINT"), (1, "TIMESTAMP WITH TIME ZONE")] }) ++
  combineInsert "uptimes" "vote_account, status, epoch, start_at, end_at"
    (((scan.order snapshot.validators.entries).filter fun e =>
        e.1 ∉ validatorsWithExtendedStatus snapshot scan rows).map fun (voteAccount, v) =>
      [.scalar (.text voteAccount),
       .scalar (.text (statusName (if v.delinquent then .down else .up))),
       .scalar (.numeric snapshot.epoch), .scalar (.timestamp snapshot.createdAt),
       .scalar (.timestamp (defaultStatusEndAt snapshot))])

/-- `store_commissions` and `store_versions`. -/
def changeQueries {β : Type} [DecidableEq β] (tableName column : String) (toSql : β → SqlValue)
    (value : ValidatorPerformance → β) (table : List (ChangeRow β)) :
    List (CombinedQuery BoundValue) :=
  combineInsert tableName ("vote_account, " ++ column ++ ", epoch_slot, epoch, created_at")
    (((scan.order snapshot.validators.entries).filter fun e =>
        e.1 ∉ skippedVoteAccounts value scan snapshot table).map fun (voteAccount, v) =>
      [.scalar (.text voteAccount), .scalar (toSql (value v)),
       .scalar (.numeric snapshot.epochSlot), .scalar (.numeric snapshot.epoch),
       .scalar (.timestamp snapshot.createdAt)])

def commissionQueries (table : List CommissionRow) : List (CombinedQuery BoundValue) :=
  changeQueries scan snapshot "commissions" "commission" .integer
    (fun v => (v.commission.toNat : Int)) table

def versionQueries (table : List VersionRow) : List (CombinedQuery BoundValue) :=
  changeQueries scan snapshot "versions" "version" (SqlCodec.toSql .text)
    (fun v => v.version) table

end Changes


/-! ## Commands with chunks -/

section Chunks

variable (scan : Scan)

/-- `store_validators`. -/
def validatorsQueries (snapshot : Snapshot) (table : List ValidatorsRow) :
    List (CombinedQuery BoundValue) :=
  ((chunks defaultChunkSize (selectedVoteAccounts scan snapshot table)).flatMap fun chunk =>
    combineValidatorsUpdate validatorsUpdate
      ((chunk.filterMap (snapshotValidators snapshot).get?).map
        (updateParams snapshot.createdAt))) ++
  (chunks defaultChunkSize (insertedValidators scan snapshot table)).flatMap fun chunk =>
    combineInsert "validators" (columnNames insertColumns)
      ((chunk.filter fun e => e.1 ∉ updatedVoteAccounts scan snapshot table).map fun e =>
        (insertParams snapshot.createdAt e.2).map fun p => .scalar p.value)

/-- `close_epoch`, unless an `unwrap` panics. -/
def closeEpochQueries (snapshot : ValidatorsPerformanceSnapshot) :
    List (CombinedQuery BoundValue) :=
  match snapshot.rewards, snapshot.clusterInflation with
  | some rewards, some _ =>
    (chunks defaultChunkSize (validatorUpdateRecords scan snapshot rewards)).flatMap fun chunk =>
      combineValidatorsUpdate closeUpdate (chunk.map closeParams)
  | _, _ => []

/-- `Option<Decimal>` of an amount. -/
def amountSql : Option Nat → SqlValue
  | some a => .numeric a
  | none => .null

/-- The columns of a Jito table that come from the validator's account. -/
structure JitoTexts (C : Type) where
  tableName : String
  columns : List String
  casts : List String
  params : C → List BoundValue

def mevTexts : JitoTexts MevColumns where
  tableName := "mev"
  columns := ["mev_commission", "total_epoch_rewards", "claimed_epoch_rewards",
    "total_epoch_claimants", "epoch_active_claimants"]
  casts := ["TEXT", "INTEGER", "NUMERIC", "NUMERIC", "INTEGER", "INTEGER", "NUMERIC", "DECIMAL",
    "TIMESTAMP WITH TIME ZONE"]
  params v := [.scalar (.integer v.mevCommission), .scalar (amountSql v.totalEpochRewards),
    .scalar (amountSql v.claimedEpochRewards),
    .scalar (SqlCodec.toSql .integer v.totalEpochClaimants),
    .scalar (SqlCodec.toSql .integer v.epochActiveClaimants)]

def priorityFeeTexts : JitoTexts PriorityFeeColumns where
  tableName := "jito_priority_fee"
  columns := ["validator_commission", "total_lamports_transferred", "total_epoch_rewards",
    "claimed_epoch_rewards", "total_epoch_claimants", "epoch_active_claimants"]
  casts := ["TEXT", "INTEGER", "NUMERIC", "NUMERIC", "NUMERIC", "INTEGER", "INTEGER", "NUMERIC",
    "NUMERIC", "TIMESTAMP WITH TIME ZONE"]
  params v := [.scalar (.integer v.validatorCommission),
    .scalar (.numeric v.totalLamportsTransferred), .scalar (amountSql v.totalEpochRewards),
    .scalar (amountSql v.claimedEpochRewards),
    .scalar (SqlCodec.toSql .integer v.totalEpochClaimants),
    .scalar (SqlCodec.toSql .integer v.epochActiveClaimants)]

/-- The values of a tuple of `store_mev` or `store_priority_fee`. The `UPDATE` has the time of
creation too, which has no name among the columns of `u`. -/
def jitoValues {C : Type} (texts : JitoTexts C) (args : JitoArgs C) (epoch : Nat)
    (v : JitoInfo C) : List BoundValue :=
  .scalar (.text v.voteAccount) :: (texts.params v.columns ++
    [.scalar (.numeric args.snapshotLoadedAtSlotIndex), .scalar (.numeric epoch),
      .scalar (.timestamp args.snapshotCreatedAt)])

/-- `store_mev` and `store_priority_fee`. -/
def jitoQueries {C : Type} (texts : JitoTexts C) (args : JitoArgs C) (table : List (JitoRow C)) :
    List (CombinedQuery BoundValue) :=
  let existing := getExistingVoteAccounts scan table args.snapshotEpoch
  let columns := ["vote_account"] ++ texts.columns ++ ["epoch_slot", "epoch"]
  ((chunks JitoArgs.DEFAULT_CHUNK_SIZE existing).flatMap fun chunk =>
    combineUpdate texts.tableName
      (", ".intercalate (columns.map fun c => c ++ " = u." ++ c))
      ("u(" ++ ", ".intercalate columns ++ ")")
      (texts.tableName ++ ".vote_account = u.vote_account AND " ++ texts.tableName ++
        ".epoch = u.epoch")
      ((chunk.filterMap args.validators.get?).map fun v =>
        { values := jitoValues texts args v.epoch v
          types := Dict.ofList (texts.casts.zipIdx.map fun (cast, i) => (i, cast)) })) ++
  (chunks JitoArgs.DEFAULT_CHUNK_SIZE (scan.order (args.executions existing))).flatMap
    fun chunk =>
      combineInsert texts.tableName (", ".intercalate (columns ++ ["created_at"]))
        ((chunk.filter fun e => e.1 ∉ args.updatedIdentities existing).map fun e =>
          jitoValues texts args args.snapshotEpoch e.2)

/-- The values of a row of `scores`. -/
def scoreParams (row : ScoreRow) : List BoundValue :=
  [.scalar (.text row.voteAccount), .scalar (.doublePrecision row.score),
   .array (row.componentScores.map .doublePrecision), .array (row.componentRanks.map .integer),
   .array (row.componentValues.map (SqlCodec.toSql .text)), .scalar (.numeric row.vemndeVotes),
   .scalar (.numeric row.msolVotes), .scalar (.integer row.rank),
   .array (row.uiHints.map .text), .scalar (.bool row.eligibleStakeAlgo),
   .scalar (.bool row.eligibleStakeVemnde), .scalar (.bool row.eligibleStakeMsol),
   .scalar (.numeric row.targetStakeAlgo), .scalar (.numeric row.targetStakeVemnde),
   .scalar (.numeric row.targetStakeMsol), .scalar (.integer row.scoringRunId)]

/-- `store_scoring`. The sequence of `scores` numbers the rows, not the command. -/
def scoringQueries (f64ToString : Rat → String) (upload : ScoringUpload) (tables : ScoringTables) :
    List (CombinedQuery BoundValue) :=
  (chunks 500 upload.scores).flatMap fun chunk =>
    combineInsert "scores" ("vote_account, score, component_scores, component_ranks, " ++
        "component_values, vemnde_votes, msol_votes, rank, ui_hints, eligible_stake_algo, " ++
        "eligible_stake_vemnde, eligible_stake_msol, target_stake_algo, target_stake_vemnde, " ++
        "target_stake_msol, scoring_run_id")
      ((scoreRows f64ToString upload tables.nextScoringRunId tables.nextScoreId chunk).map
        scoreParams)

end Chunks

/-! ## All commands -/

/-- The tables that the commands read. -/
structure StoreTables where
  uptimes : List UptimeRow
  /-- `PRIMARY KEY(id)` -/
  uptimesKey : (uptimes.map UptimeRow.id).Nodup
  commissions : List CommissionRow
  versions : List VersionRow
  validators : List ValidatorsRow
  mev : List (JitoRow MevColumns)
  jitoPriorityFee : List (JitoRow PriorityFeeColumns)
  scoring : ScoringTables

/-- The commands that use a combiner, with their snapshots. -/
inductive StoreCommand where
  | storeUptime (snapshot : ValidatorsPerformanceSnapshot)
  | storeCommissions (snapshot : ValidatorsPerformanceSnapshot)
  | storeVersions (snapshot : ValidatorsPerformanceSnapshot)
  | storeValidators (snapshot : Snapshot)
  | closeEpoch (snapshot : ValidatorsPerformanceSnapshot)
  | storeJito (snapshot : JitoSnapshot) (accountType : JitoAccountType)
  | storeScoring (f64ToString : Rat → String) (upload : ScoringUpload)

/-- The combined statements that a command executes, as long as none fails. -/
def StoreCommand.queries (scan : Scan) (tables : StoreTables) :
    StoreCommand → List (CombinedQuery BoundValue)
  | storeUptime snapshot => uptimeQueries scan snapshot tables.uptimes
  | storeCommissions snapshot => commissionQueries scan snapshot tables.commissions
  | storeVersions snapshot => versionQueries scan snapshot tables.versions
  | storeValidators snapshot => validatorsQueries scan snapshot tables.validators
  | closeEpoch snapshot => closeEpochQueries scan snapshot
  | storeJito snapshot .mevTipDistribution =>
    jitoQueries scan mevTexts (mevArgs snapshot) tables.mev
  | storeJito snapshot .priorityFeeDistribution =>
    jitoQueries scan priorityFeeTexts (priorityFeeArgs snapshot) tables.jitoPriorityFee
  | storeScoring f64ToString upload => scoringQueries f64ToString upload tables.scoring


/-! ## How many validators change -/

section Counts

variable (scan : Scan) (snapshot : ValidatorsPerformanceSnapshot)

/-- The row of `uptimes` that the query returns for a vote account. -/
def latestUptime (rows : List UptimeRow) (voteAccount : String) : Option UptimeRow :=
  latest UptimeRow.voteAccount UptimeRow.endAt (scan.order rows) voteAccount

/-- The row of a change table that the query returns for a vote account. -/
def latestChange {β : Type} (table : List (ChangeRow β)) (voteAccount : String) :
    Option (ChangeRow β) :=
  latest ChangeRow.voteAccount ChangeRow.createdAt (scan.order table) voteAccount

/-- The validator's latest row of `uptimes` ended less than five minutes ago. -/
def recentlySeen (rows : List UptimeRow) (e : String × ValidatorPerformance) : Bool :=
  (latestUptime scan rows e.1).any fun row =>
    decide (snapshot.createdAt < row.endAt + statusMaxDelayToExtend)

/-- It also has the status and the epoch of the snapshot. -/
def statusContinues (rows : List UptimeRow) (e : String × ValidatorPerformance) : Bool :=
  (latestUptime scan rows e.1).any fun row =>
    decide (snapshot.createdAt < row.endAt + statusMaxDelayToExtend) &&
      decide (SameStatus snapshot row e.2)

/-- The validator's latest row has the epoch and the value of the snapshot. -/
def valueStays {β : Type} [DecidableEq β] (value : ValidatorPerformance → β)
    (table : List (ChangeRow β)) (e : String × ValidatorPerformance) : Bool :=
  (latestChange scan table e.1).any fun row =>
    decide (row.epoch = snapshot.epoch ∧ row.value = value e.2)

/-- At most so many validators of the snapshot. -/
def AtMost (n : Nat) (p : String × ValidatorPerformance → Bool) : Prop :=
  (snapshot.validators.entries.filter p).length ≤ n

/-- Few enough validators have changed for a command without chunks. -/
def StoreCommand.FewChanges (tables : StoreTables) : StoreCommand → Prop
  | storeUptime snapshot =>
    AtMost snapshot 32767 (recentlySeen scan snapshot tables.uptimes) ∧
      AtMost snapshot 13107 fun e => !statusContinues scan snapshot tables.uptimes e
  | storeCommissions snapshot => AtMost snapshot 13107 fun e =>
    !valueStays scan snapshot (fun v => (v.commission.toNat : Int)) tables.commissions e
  | storeVersions snapshot => AtMost snapshot 13107 fun e =>
    !valueStays scan snapshot (fun v => v.version) tables.versions e
  | storeValidators _ | closeEpoch _ | storeJito _ _ | storeScoring _ _ => True

variable {scan snapshot}

/-- The `UPDATE` of `store_uptime` has a row for each validator that was seen recently. -/
theorem length_extensions {rows : List UptimeRow} (hids : (rows.map UptimeRow.id).Nodup) :
    (recordsExtensions snapshot scan rows).entries.length =
      (snapshot.validators.entries.filter (recentlySeen scan snapshot rows)).length := by
  rw [length_recordsExtensions snapshot scan hids]
  have hnodup : (((latestUptimes scan rows).filter (Touches snapshot)).map
      UptimeRow.voteAccount).Nodup :=
    (nodup_distinctOn _).sublist (List.filter_sublist.map _)
  have hnodup' : ((snapshot.validators.entries.filter (recentlySeen scan snapshot rows)).map
      Prod.fst).Nodup :=
    snapshot.validators.nodup.sublist (List.filter_sublist.map _)
  -- one latest row for each of these validators
  have hperm := (List.perm_ext_iff_of_nodup hnodup hnodup').mpr fun voteAccount => by
    rw [List.mem_map, List.mem_map]
    constructor
    · rintro ⟨row, hrow, rfl⟩
      obtain ⟨hlatest, htouches⟩ := List.mem_filter.mp hrow
      obtain ⟨hkey, hrecent⟩ := of_decide_eq_true htouches
      obtain ⟨e, he, heq⟩ := List.mem_map.mp hkey
      refine ⟨e, List.mem_filter.mpr ⟨he, any_latest_iff.mpr ?_⟩, heq⟩
      exact ⟨row, hlatest, heq.symm, decide_eq_true hrecent⟩
    · rintro ⟨e, he, rfl⟩
      obtain ⟨hentry, hseen⟩ := List.mem_filter.mp he
      obtain ⟨row, hlatest, hkey, hrecent⟩ := any_latest_iff.mp hseen
      refine ⟨row, List.mem_filter.mpr ⟨hlatest, decide_eq_true ⟨?_, ?_⟩⟩, hkey⟩
      · exact hkey ▸ List.mem_map_of_mem hentry
      · exact of_decide_eq_true hrecent
  have hlength := hperm.length_eq
  rwa [List.length_map, List.length_map] at hlength

theorem extended_iff_statusContinues {rows : List UptimeRow} {e : String × ValidatorPerformance}
    (he : e ∈ snapshot.validators.entries) :
    e.1 ∈ validatorsWithExtendedStatus snapshot scan rows ↔
      statusContinues scan snapshot rows e = true := by
  unfold validatorsWithExtendedStatus statusContinues latestUptime
  rw [any_latest_iff, List.mem_map]
  refine exists_congr fun row => ?_
  rw [List.mem_filter, and_assoc]
  refine and_congr_right fun _ => (and_comm.trans (and_congr_right fun hkey => ?_))
  unfold hasExtendedStatus
  rw [hkey, Dict.get?_of_mem he]

theorem skipped_iff_valueStays {β : Type} [DecidableEq β] {value : ValidatorPerformance → β}
    {table : List (ChangeRow β)} {e : String × ValidatorPerformance}
    (he : e ∈ snapshot.validators.entries) :
    e.1 ∈ skippedVoteAccounts value scan snapshot table ↔
      valueStays scan snapshot value table e = true := by
  unfold skippedVoteAccounts valueStays latestChange
  rw [any_latest_iff, List.mem_filterMap]
  refine exists_congr fun row => and_congr_right fun _ => ?_
  constructor
  · intro h
    split at h
    · rename_i v hget
      obtain ⟨hstays, hkey⟩ := Option.ite_none_right_eq_some.mp h
      have hkey : row.voteAccount = e.1 := Option.some.inj hkey
      rw [hkey, Dict.get?_of_mem he] at hget
      obtain rfl := Option.some.inj hget
      exact ⟨hkey, decide_eq_true hstays⟩
    · cases h
  · rintro ⟨hkey, hstays⟩
    rw [hkey, Dict.get?_of_mem he]
    exact if_pos (of_decide_eq_true hstays)

end Counts

/-! ## Which statements fit -/

section Fits

variable {scan : Scan} {snapshot : ValidatorsPerformanceSnapshot}

/-- The validators of the snapshot whose vote accounts are not in a list. -/
theorem length_filter_notMem {voteAccounts : List String}
    {p : String × ValidatorPerformance → Bool}
    (hp : ∀ e ∈ snapshot.validators.entries, e.1 ∈ voteAccounts ↔ p e = true) :
    (snapshot.validators.entries.filter fun e => e.1 ∉ voteAccounts).length =
      (snapshot.validators.entries.filter fun e => !p e).length := by
  congr 1
  refine List.filter_congr fun e he => ?_
  simp [hp e he]

/-- As many in any order. -/
theorem length_filter_order (p : String × ValidatorPerformance → Bool) :
    ((scan.order snapshot.validators.entries).filter p).length =
      (snapshot.validators.entries.filter p).length :=
  ((scan.perm snapshot.validators.entries).filter p).length_eq

theorem fit_uptimeQueries_iff {rows : List UptimeRow} (hids : (rows.map UptimeRow.id).Nodup) :
    Fit (uptimeQueries scan snapshot rows) ↔
      AtMost snapshot 32767 (recentlySeen scan snapshot rows) ∧
        AtMost snapshot 13107 fun e => !statusContinues scan snapshot rows e := by
  unfold uptimeQueries
  rw [fit_append]
  refine and_congr ?_ ?_
  · rw [fit_combineUpdate_iff 2, List.length_map, (scan.perm _).length_eq, length_extensions hids]
    · unfold AtMost maxParams
      omega
    · exact List.forall_mem_map.mpr fun _ _ => rfl
  · rw [fit_combineInsert_iff 5, List.length_map, length_filter_order,
      length_filter_notMem fun e he => extended_iff_statusContinues he]
    · unfold AtMost maxParams
      omega
    · exact List.forall_mem_map.mpr fun _ _ => rfl

theorem fit_changeQueries_iff {β : Type} [DecidableEq β] (tableName column : String)
    (toSql : β → SqlValue) (value : ValidatorPerformance → β) (table : List (ChangeRow β)) :
    Fit (changeQueries scan snapshot tableName column toSql value table) ↔
      AtMost snapshot 13107 fun e => !valueStays scan snapshot value table e := by
  unfold changeQueries
  rw [fit_combineInsert_iff 5, List.length_map, length_filter_order,
    length_filter_notMem fun e he => skipped_iff_valueStays he]
  · unfold AtMost maxParams
    omega
  · exact List.forall_mem_map.mpr fun _ _ => rfl

/-- **At a new epoch** all validators have changed. -/
theorem fit_changeQueries_newEpoch {β : Type} [DecidableEq β] (tableName column : String)
    (toSql : β → SqlValue) (value : ValidatorPerformance → β) {table : List (ChangeRow β)}
    (hnew : ∀ row ∈ table, row.epoch ≠ snapshot.epoch) :
    Fit (changeQueries scan snapshot tableName column toSql value table) ↔
      snapshot.validators.entries.length ≤ 13107 := by
  rw [fit_changeQueries_iff]
  unfold AtMost
  rw [List.filter_eq_self.mpr]
  intro e _
  rw [Bool.not_eq_true', Bool.eq_false_iff]
  intro hstays
  obtain ⟨row, hrow, -, hsame⟩ := any_latest_iff.mp hstays
  have hmem := scan.mem_order.mp (latest_spec (mem_distinctOn.mp hrow)).1
  exact hnew row hmem (of_decide_eq_true hsame).1

/-- **`store_uptime` succeeds** exactly if its statements fit. -/
theorem isOk_storeUptime_iff {table : UptimesTable}
    (hids : (table.rows.map UptimeRow.id).Nodup) :
    (∃ table', storeUptime scan snapshot table = .ok table') ↔
      Fit (uptimeQueries scan snapshot table.rows) := by
  rw [fit_uptimeQueries_iff hids, exists_congr fun _ => storeUptime_eq_ok, length_extensions hids]
  unfold openedRows
  rw [List.length_map, List.length_zipIdx,
    length_filter_notMem fun e he => extended_iff_statusContinues he]
  unfold AtMost maxParams
  constructor
  · rintro ⟨_, hupdate, hinsert, rfl⟩
    omega
  · rintro ⟨hupdate, hinsert⟩
    exact ⟨_, by omega, by omega, rfl⟩

/-- **`store_commissions` and `store_versions` succeed** exactly if their statements fit. -/
theorem isOk_storeChanges_iff {β : Type} [DecidableEq β] {tableName column : String}
    {toSql : β → SqlValue} {value : ValidatorPerformance → β} {table : List (ChangeRow β)} :
    (∃ table', storeChanges value scan snapshot table = .ok table') ↔
      Fit (changeQueries scan snapshot tableName column toSql value table) := by
  have hlength : (changedRows value snapshot
      (skippedVoteAccounts value scan snapshot table)).length =
        (snapshot.validators.entries.filter fun e =>
          !valueStays scan snapshot value table e).length := by
    unfold changedRows
    rw [List.length_map, length_filter_notMem fun e he => skipped_iff_valueStays he]
  rw [fit_changeQueries_iff]
  unfold AtMost
  rw [← hlength]
  constructor
  · rintro ⟨table', h⟩
    have hle : _ ≤ 65535 := le_of_withParams_eq_ok h
    omega
  · intro h
    refine ⟨_, withParams_of_le ?_ _⟩
    unfold maxParams
    omega

/-- At most 500 rows of at most 131 values. -/
theorem chunk_le_maxParams {rows width : Nat} (hrows : rows ≤ 500) (hwidth : width ≤ 131) :
    rows * width ≤ maxParams :=
  Nat.le_trans (Nat.mul_le_mul hrows hwidth) (by decide)

/-- An `INSERT` of at most 500 rows. -/
theorem fit_combineInsert {tableName columns : String} {rows : List (List BoundValue)}
    (width : Nat) (hrows : rows.length ≤ 500) (hwidth : ∀ row ∈ rows, row.length = width)
    (hle : width ≤ 131) : Fit (combineInsert tableName columns rows) :=
  (fit_combineInsert_iff width hwidth).mpr (chunk_le_maxParams hrows hle)

/-- An `UPDATE` from at most 500 rows. -/
theorem fit_combineUpdate {tableName updates valuesNames whereCondition : String}
    {rows : List (TypedValues BoundValue)} (width : Nat) (hrows : rows.length ≤ 500)
    (hwidth : ∀ row ∈ rows, row.values.length = width) (hle : width ≤ 131) :
    Fit (combineUpdate tableName updates valuesNames whereCondition rows) :=
  (fit_combineUpdate_iff width hwidth).mpr (chunk_le_maxParams hrows hle)

theorem fit_combineValidatorsUpdate {q : UpdateQuery ValidatorsColumn}
    {tuples : List (List Param)} (width : Nat) (hrows : tuples.length ≤ 500)
    (hwidth : ∀ tuple ∈ tuples, tuple.length = width) (hle : width ≤ 131) :
    Fit (combineValidatorsUpdate q tuples) := by
  refine fit_combineUpdate width ?_ ?_ hle
  · rw [List.length_map]
    exact hrows
  · intro row hrow
    obtain ⟨tuple, htuple, rfl⟩ := List.mem_map.mp hrow
    exact (List.length_map _).trans (hwidth tuple htuple)

theorem fit_validatorsQueries (snapshot : Snapshot) (table : List ValidatorsRow) :
    Fit (validatorsQueries scan snapshot table) := by
  refine fit_append.mpr ⟨fit_flatMap_chunks fun chunk hchunk => ?_,
    fit_flatMap_chunks fun chunk hchunk => ?_⟩
  · refine fit_combineValidatorsUpdate 31 ?_ ?_ (by decide)
    · rw [List.length_map]
      exact (List.length_filterMap_le _ _).trans hchunk
    · exact List.forall_mem_map.mpr fun _ _ => rfl
  · refine fit_combineInsert 37 ?_ ?_ (by decide)
    · rw [List.length_map]
      exact (List.length_filter_le _ _).trans hchunk
    · exact List.forall_mem_map.mpr fun _ _ => rfl

theorem fit_closeEpochQueries (snapshot : ValidatorsPerformanceSnapshot) :
    Fit (closeEpochQueries scan snapshot) := by
  unfold closeEpochQueries
  split
  · refine fit_flatMap_chunks fun chunk hchunk => ?_
    refine fit_combineValidatorsUpdate 8 ?_ ?_ (by decide)
    · rw [List.length_map]
      exact hchunk
    · exact List.forall_mem_map.mpr fun _ _ => rfl
  · exact fun _ => nofun

theorem fit_jitoQueries {C : Type} {texts : JitoTexts C} {args : JitoArgs C}
    {table : List (JitoRow C)} (width : Nat)
    (hwidth : ∀ v, (texts.params v).length = width) (hle : width + 4 ≤ 131) :
    Fit (jitoQueries scan texts args table) := by
  have hvalues : ∀ epoch (v : JitoInfo C),
      (jitoValues texts args epoch v).length = width + 4 := by
    intro epoch v
    unfold jitoValues
    rw [List.length_cons, List.length_append, hwidth]
    rfl
  refine fit_append.mpr ⟨fit_flatMap_chunks fun chunk hchunk => ?_,
    fit_flatMap_chunks fun chunk hchunk => ?_⟩
  · refine fit_combineUpdate (width + 4) ?_ ?_ hle
    · rw [List.length_map]
      exact (List.length_filterMap_le _ _).trans hchunk
    · intro row hrow
      obtain ⟨v, -, rfl⟩ := List.mem_map.mp hrow
      exact hvalues v.epoch v
  · refine fit_combineInsert (width + 4) ?_ ?_ hle
    · rw [List.length_map]
      exact (List.length_filter_le _ _).trans hchunk
    · intro row hrow
      obtain ⟨e, -, rfl⟩ := List.mem_map.mp hrow
      exact hvalues args.snapshotEpoch e.2

theorem fit_scoringQueries (f64ToString : Rat → String) (upload : ScoringUpload)
    (tables : ScoringTables) : Fit (scoringQueries f64ToString upload tables) := by
  refine fit_flatMap_chunks fun chunk hchunk => ?_
  refine fit_combineInsert 16 ?_ ?_ (by decide)
  · rw [List.length_map]
    unfold scoreRows
    rw [List.length_map, List.length_zipIdx]
    exact hchunk
  · exact List.forall_mem_map.mpr fun _ _ => rfl

/-- **The statements of a command fit** exactly if it has chunks or few validators have
changed. -/
theorem statementsFit_iff (scan : Scan) (tables : StoreTables) (command : StoreCommand) :
    (∀ query ∈ command.queries scan tables, query.params.length ≤ maxParams) ↔
      command.FewChanges scan tables := by
  cases command with
  | storeUptime snapshot => exact fit_uptimeQueries_iff tables.uptimesKey
  | storeCommissions snapshot =>
    exact fit_changeQueries_iff "commissions" "commission" .integer
      (fun v => (v.commission.toNat : Int)) tables.commissions
  | storeVersions snapshot =>
    exact fit_changeQueries_iff "versions" "version" (SqlCodec.toSql .text)
      (fun v => v.version) tables.versions
  | storeValidators snapshot =>
    exact iff_of_true (fit_validatorsQueries snapshot tables.validators) trivial
  | closeEpoch snapshot => exact iff_of_true (fit_closeEpochQueries snapshot) trivial
  | storeJito snapshot accountType =>
    refine iff_of_true ?_ trivial
    cases accountType with
    | mevTipDistribution => exact fit_jitoQueries 5 (fun _ => rfl) (by decide)
    | priorityFeeDistribution => exact fit_jitoQueries 6 (fun _ => rfl) (by decide)
  | storeScoring f64ToString upload =>
    exact iff_of_true (fit_scoringQueries f64ToString upload tables.scoring) trivial

/-- Tables without rows, as the migrations leave them. -/
def StoreTables.empty : StoreTables where
  uptimes := []
  uptimesKey := List.nodup_nil
  commissions := []
  versions := []
  validators := []
  mev := []
  jitoPriorityFee := []
  scoring := ScoringTables.empty

/-- A snapshot of `n` validators. -/
def snapshotOfMany (n : Nat) : ValidatorsPerformanceSnapshot where
  epoch := 500
  epochSlot := 1000
  transactionCount := 10
  createdAt := 0
  clusterInflation := none
  validators :=
    { entries := (List.range n).map fun i => (String.ofList (List.replicate i 'V'), {
        commission := 5
        version := some "1.17.5"
        credits := 10
        leaderSlots := 4
        blocksProduced := 4
        skipRate := 0
        delinquent := false })
      nodup := by
        rw [List.map_map]
        refine List.nodup_range.map fun i j hij => ?_
        have hlength := congrArg String.length hij
        simpa [String.length_ofList] using hlength }
  rewards := none

theorem length_snapshotOfMany (n : Nat) : (snapshotOfMany n).validators.entries.length = n := by
  unfold snapshotOfMany
  rw [List.length_map, List.length_range]

theorem not_fit_storeVersions :
    ¬ (∀ query ∈ (StoreCommand.storeVersions (snapshotOfMany 13108)).queries Scan.sequential
        StoreTables.empty, query.params.length ≤ maxParams) ∧
      ¬ ∃ table', storeVersions Scan.sequential (snapshotOfMany 13108) [] = .ok table' := by
  have hnot : ¬ Fit (versionQueries Scan.sequential (snapshotOfMany 13108) []) := by
    have hnew : ∀ row ∈ ([] : List VersionRow), row.epoch ≠ (snapshotOfMany 13108).epoch :=
      fun _ => nofun
    unfold versionQueries
    rw [fit_changeQueries_newEpoch _ _ _ _ hnew, length_snapshotOfMany]
    decide
  exact ⟨hnot, fun hok => hnot (isOk_storeChanges_iff.mp hok)⟩

end Fits

/-! ## Their placeholders -/

section Placeholders

/-- The text has `$1` to `$n` for its `n` parameters. -/
def Numbered (queries : List (CombinedQuery BoundValue)) : Prop :=
  ∀ query ∈ queries, placeholdersIn query.statement.toList = List.range' 1 query.params.length

theorem numbered_append {queries queries' : List (CombinedQuery BoundValue)}
    (h : Numbered queries) (h' : Numbered queries') : Numbered (queries ++ queries') :=
  List.forall_mem_append.mpr ⟨h, h'⟩

theorem numbered_flatMap {β : Type} {parts : List (List β)}
    {queries : List β → List (CombinedQuery BoundValue)} (h : ∀ part, Numbered (queries part)) :
    Numbered (parts.flatMap queries) := by
  intro query hquery
  obtain ⟨chunk, -, hmem⟩ := List.mem_flatMap.mp hquery
  exact h chunk query hmem

theorem numbered_toList {count : Nat} {query : CombinedQuery BoundValue}
    (h : placeholdersIn query.statement.toList = List.range' 1 query.params.length) :
    Numbered (if count = 0 then none else some query).toList := by
  intro query' hquery
  split at hquery
  · cases hquery
  · obtain rfl := List.mem_singleton.mp hquery
    exact h

theorem numbered_combineInsert {tableName columns : String} (htable : Plain tableName)
    (hcolumns : Plain columns) (rows : List (List BoundValue)) :
    Numbered (combineInsert tableName columns rows) := by
  have hencoded := encodedAs_empty (InsertQueryCombiner.combines tableName columns rows)
  refine numbered_toList (hencoded.read ?_ nofun fun call hcall => ?_)
  · have hinsert : Plain "INSERT INTO " := Plain.literal rfl
    exact (((hinsert.append htable).append_literal rfl).append hcolumns).append_literal rfl
  · obtain ⟨row, -, rfl⟩ := List.mem_map.mp hcall
    exact fun _ => nofun

theorem numbered_combineUpdate {tableName updates valuesNames whereCondition : String}
    (htable : Plain tableName) (hupdates : Plain updates) (hnames : Plain valuesNames)
    (hwhere : Plain whereCondition) {rows : List (TypedValues BoundValue)}
    (hcasts : ∀ row ∈ rows, ∀ e ∈ row.types.entries, Plain e.2) :
    Numbered (combineUpdate tableName updates valuesNames whereCondition rows) := by
  have hencoded := encodedAs_of_combines
    (UpdateQueryCombiner.combines tableName updates valuesNames whereCondition rows)
    (endsNumber_updateTail valuesNames whereCondition)
  obtain ⟨hnames', hwhere'⟩ :=
    UpdateQueryCombiner.texts tableName updates valuesNames whereCondition rows
  unfold combineUpdate
  rw [UpdateQueryCombiner.execute_snd, hnames', hwhere']
  refine numbered_toList (hencoded.read ?_ ?_ hcasts)
  · have hupdate : Plain "UPDATE " := Plain.literal rfl
    exact (((hupdate.append htable).append_literal rfl).append hupdates).append_literal rfl
  · have has : Plain ") AS " := Plain.literal rfl
    exact ((has.append hnames).append_literal rfl).append hwhere

theorem numbered_changeQueries {β : Type} [DecidableEq β] {tableName column : String}
    (htable : Plain tableName) (hcolumn : Plain column) (scan : Scan)
    (snapshot : ValidatorsPerformanceSnapshot) (toSql : β → SqlValue)
    (value : ValidatorPerformance → β) (table : List (ChangeRow β)) :
    Numbered (changeQueries scan snapshot tableName column toSql value table) := by
  have hvote : Plain "vote_account, " := Plain.literal rfl
  exact numbered_combineInsert htable ((hvote.append hcolumn).append_literal rfl) _

theorem plain_name (c : ValidatorsColumn) : Plain c.name := by
  cases c <;> exact Plain.literal rfl

theorem plain_castName (type : SqlType) : Plain (castName type) := by
  cases type <;> exact Plain.literal rfl

theorem plain_columnNames (columns : List ValidatorsColumn) : Plain (columnNames columns) := by
  refine Plain.intercalate (Plain.literal rfl) fun text htext => ?_
  obtain ⟨c, -, rfl⟩ := List.mem_map.mp htext
  exact plain_name c

theorem plain_assignmentText (assignment : ValidatorsColumn × SetExpr ValidatorsColumn) :
    Plain (assignmentText assignment) := by
  obtain ⟨c, v | v⟩ := assignment
  · exact ((plain_name c).append_literal rfl).append (plain_name v)
  · have hcoalesce : Plain (c.name ++ " = COALESCE(u.") := (plain_name c).append_literal rfl
    exact (((hcoalesce.append (plain_name v)).append_literal rfl).append
      (plain_name v)).append_literal rfl

theorem numbered_combineValidatorsUpdate (q : UpdateQuery ValidatorsColumn)
    (tuples : List (List Param)) : Numbered (combineValidatorsUpdate q tuples) := by
  refine numbered_combineUpdate (Plain.literal rfl) ?_ ?_ ?_ ?_
  · refine Plain.intercalate (Plain.literal rfl) fun text htext => ?_
    obtain ⟨assignment, -, rfl⟩ := List.mem_map.mp htext
    exact plain_assignmentText assignment
  · have hu : Plain "u(" := Plain.literal rfl
    exact (hu.append (plain_columnNames _)).append_literal rfl
  · refine Plain.intercalate (Plain.literal rfl) fun text htext => ?_
    obtain ⟨c, -, rfl⟩ := List.mem_map.mp htext
    have hvalidators : Plain "validators." := Plain.literal rfl
    exact ((hvalidators.append (plain_name c)).append_literal rfl).append (plain_name c)
  · intro row hrow e he
    obtain ⟨tuple, -, rfl⟩ := List.mem_map.mp hrow
    obtain ⟨⟨i, type⟩, -, rfl⟩ := List.mem_map.mp (Dict.mem_of_mem_ofList he)
    exact plain_castName type

/-- The texts of a Jito table. -/
structure JitoTexts.Plain {C : Type} (texts : JitoTexts C) : Prop where
  tableName : Lib.Plain texts.tableName
  columns : ∀ c ∈ texts.columns, Lib.Plain c
  casts : ∀ cast ∈ texts.casts, Lib.Plain cast

theorem numbered_jitoQueries {C : Type} {texts : JitoTexts C} (htexts : texts.Plain)
    (scan : Scan) (args : JitoArgs C) (table : List (JitoRow C)) :
    Numbered (jitoQueries scan texts args table) := by
  have hcolumns : ∀ c ∈ ["vote_account"] ++ texts.columns ++ ["epoch_slot", "epoch"],
      Plain c := by
    refine List.forall_mem_append.mpr ⟨List.forall_mem_append.mpr ⟨?_, htexts.columns⟩, ?_⟩
    · decide
    · decide
  refine numbered_append (numbered_flatMap fun chunk => ?_) (numbered_flatMap fun chunk => ?_)
  · refine numbered_combineUpdate htexts.tableName ?_ ?_ ?_ ?_
    · refine Plain.intercalate (Plain.literal rfl) fun text htext => ?_
      obtain ⟨c, hc, rfl⟩ := List.mem_map.mp htext
      exact ((hcolumns c hc).append_literal rfl).append (hcolumns c hc)
    · have hu : Plain "u(" := Plain.literal rfl
      exact (hu.append (Plain.intercalate (Plain.literal rfl) hcolumns)).append_literal rfl
    · exact ((htexts.tableName.append_literal rfl).append htexts.tableName).append_literal rfl
    · intro row hrow e he
      obtain ⟨v, -, rfl⟩ := List.mem_map.mp hrow
      obtain ⟨⟨cast, i⟩, hcast, rfl⟩ := List.mem_map.mp (Dict.mem_of_mem_ofList he)
      exact htexts.casts cast (List.fst_mem_of_mem_zipIdx hcast)
  · refine numbered_combineInsert htexts.tableName (Plain.intercalate (Plain.literal rfl) ?_) _
    refine List.forall_mem_append.mpr ⟨hcolumns, ?_⟩
    decide

/-- **Every command** numbers the parameters of its statements. -/
theorem numbered_queries (scan : Scan) (tables : StoreTables) (command : StoreCommand) :
    Numbered (command.queries scan tables) := by
  cases command with
  | storeUptime snapshot =>
    refine numbered_append (numbered_combineUpdate (Plain.literal rfl) (Plain.literal rfl)
      (Plain.literal rfl) (Plain.literal rfl) fun row hrow => ?_)
      (numbered_combineInsert (Plain.literal rfl) (Plain.literal rfl) _)
    obtain ⟨_, -, rfl⟩ := List.mem_map.mp hrow
    show ∀ e ∈ (Dict.ofList [(0, "BIGINT"), (1, "TIMESTAMP WITH TIME ZONE")]).entries, Plain e.2
    decide
  | storeCommissions snapshot =>
    exact numbered_changeQueries (Plain.literal rfl) (Plain.literal rfl) scan snapshot .integer
      (fun v => (v.commission.toNat : Int)) tables.commissions
  | storeVersions snapshot =>
    exact numbered_changeQueries (Plain.literal rfl) (Plain.literal rfl) scan snapshot
      (SqlCodec.toSql .text) (fun v => v.version) tables.versions
  | storeValidators snapshot =>
    exact numbered_append (numbered_flatMap fun _ => numbered_combineValidatorsUpdate _ _)
      (numbered_flatMap fun _ => numbered_combineInsert (Plain.literal rfl) (plain_columnNames _) _)
  | closeEpoch snapshot =>
    show Numbered (closeEpochQueries scan snapshot)
    unfold closeEpochQueries
    split
    · exact numbered_flatMap fun _ => numbered_combineValidatorsUpdate _ _
    · exact fun _ => nofun
  | storeJito snapshot accountType =>
    cases accountType with
    | mevTipDistribution =>
      exact numbered_jitoQueries ⟨by decide, by decide, by decide⟩ scan _ tables.mev
    | priorityFeeDistribution =>
      exact numbered_jitoQueries ⟨by decide, by decide, by decide⟩ scan _ tables.jitoPriorityFee
  | storeScoring f64ToString upload =>
    refine numbered_flatMap fun _ => numbered_combineInsert (Plain.literal rfl) ?_ _
    exact ((Plain.append_literal (Plain.literal rfl) rfl).append_literal rfl).append_literal rfl

end Placeholders

end DelegationStrategy.Store
