import DelegationStrategy.Lib.Autocommit
import DelegationStrategy.Store.Run
import DelegationStrategy.Store.ValidatorsTable
import Mathlib.Algebra.Ring.Nat

/-!
# `store_validators`

`store_validators` (`store/src/validators.rs`) updates the rows of the snapshot's
epoch that exist, 500 rows a statement, and inserts the others, 500 rows a
statement. Both statements are positional lists of columns and parameters
(`validatorsUpdate`, `insertColumns`), checked here column by column against what
they are for (`Validator.refresh`, `Validator.newRow`).

- `storeValidators_eq_ok`: a run never fails on a table that obeys its primary key,
  and leaves the table `upserted`;
- `storeValidators_upsert`: what this table holds.
-/

namespace DelegationStrategy.Store

open DelegationStrategy.Lib DelegationStrategy.Collect

/-! ## `dto::Validator` -/

structure Validator where
  identity : String
  voteAccount : String
  epoch : Nat
  infoName : Option String
  infoUrl : Option String
  infoKeybase : Option String
  infoIconUrl : Option String
  nodeIp : Option String
  dcCoordinatesLat : Option Rat
  dcCoordinatesLon : Option Rat
  dcContinent : Option String
  dcCountryIso : Option String
  dcCountry : Option String
  dcCity : Option String
  dcAsn : Option Int
  dcAso : Option String
  commissionMaxObserved : Option Int
  commissionMinObserved : Option Int
  commissionAdvertised : Option Int
  commissionEffective : Option Int
  version : Option String
  activatedStake : Nat
  marinadeStake : Nat
  foundationStake : Nat
  marinadeNativeStake : Nat
  institutionalStake : Nat
  selfStake : Nat
  superminority : Bool
  stakeToBecomeSuperminority : Nat
  credits : Nat
  leaderSlots : Nat
  blocksProduced : Nat
  skipRate : Rat
  uptimePct : Option Rat
  uptime : Option Rat
  downtime : Option Rat
  updatedAt : Option Timestamp
  deriving DecidableEq, Repr

/-- `asn as i32` -/
def asI32 (asn : UInt32) : Int := asn.toInt32.toInt

/-- `Validator::new_from_snapshot`. The tuple of coordinates is read as latitude and
longitude. -/
def Validator.newFromSnapshot (epoch : Nat) (v : ValidatorSnapshot) : Validator :=
  let dataCenter := v.dataCenter.getD {}
  { identity := v.identity
    voteAccount := v.voteAccount
    epoch := epoch
    infoName := v.infoName
    infoUrl := v.infoUrl
    infoKeybase := v.infoKeybase
    infoIconUrl := v.infoIconUrl
    nodeIp := v.nodeIp
    dcCoordinatesLon := dataCenter.coordinates.map fun (_, lon) => lon
    dcCoordinatesLat := dataCenter.coordinates.map fun (lat, _) => lat
    dcContinent := dataCenter.continent
    dcCountryIso := dataCenter.countryIso
    dcCountry := dataCenter.country
    dcCity := dataCenter.city
    dcAsn := dataCenter.asn.map asI32
    dcAso := dataCenter.aso
    commissionMaxObserved := none
    commissionMinObserved := none
    commissionAdvertised := some v.performance.commission.toNat
    commissionEffective := none
    version := v.performance.version
    activatedStake := v.activatedStake
    marinadeStake := v.marinadeStake
    foundationStake := v.foundationStake
    marinadeNativeStake := v.marinadeNativeStake
    institutionalStake := v.institutionalStake
    selfStake := v.selfStake
    superminority := v.superminority
    stakeToBecomeSuperminority := v.stakeToBecomeSuperminority
    credits := v.performance.credits
    leaderSlots := v.performance.leaderSlots
    blocksProduced := v.performance.blocksProduced
    skipRate := v.performance.skipRate
    uptimePct := none
    uptime := none
    downtime := none
    updatedAt := none }

/-! ## The statements -/

/-- The `UPDATE` of the rows of the snapshot's epoch. -/
def validatorsUpdate : UpdateQuery ValidatorsColumn where
  updates :=
    [(.identity, .value .identity), (.voteAccount, .value .voteAccount),
     (.epoch, .value .epoch), (.infoName, .value .infoName), (.infoUrl, .value .infoUrl),
     (.infoKeybase, .value .infoKeybase), (.nodeIp, .value .nodeIp),
     (.dcCoordinatesLat, .value .dcCoordinatesLat),
     (.dcCoordinatesLon, .value .dcCoordinatesLon), (.dcContinent, .value .dcContinent),
     (.dcCountryIso, .value .dcCountryIso), (.dcCountry, .value .dcCountry),
     (.dcCity, .value .dcCity), (.dcAsn, .value .dcAsn), (.dcAso, .value .dcAso),
     (.commissionAdvertised, .value .commissionAdvertised), (.version, .coalesce .version),
     (.activatedStake, .value .activatedStake), (.marinadeStake, .value .marinadeStake),
     (.foundationStake, .value .foundationStake),
     (.marinadeNativeStake, .value .marinadeNativeStake),
     (.institutionalStake, .value .institutionalStake), (.selfStake, .value .selfStake),
     (.superminority, .value .superminority),
     (.stakeToBecomeSuperminority, .value .stakeToBecomeSuperminority),
     (.credits, .value .credits), (.leaderSlots, .value .leaderSlots),
     (.blocksProduced, .value .blocksProduced), (.skipRate, .value .skipRate),
     (.updatedAt, .value .updatedAt), (.infoIconUrl, .value .infoIconUrl)]
  valuesNames :=
    [.identity, .voteAccount, .epoch, .infoName, .infoUrl, .infoKeybase, .nodeIp,
     .dcCoordinatesLat, .dcCoordinatesLon, .dcContinent, .dcCountryIso, .dcCountry,
     .dcCity, .dcAsn, .dcAso, .commissionAdvertised, .version, .activatedStake,
     .marinadeStake, .foundationStake, .marinadeNativeStake, .institutionalStake,
     .selfStake, .superminority, .stakeToBecomeSuperminority, .credits, .leaderSlots,
     .blocksProduced, .skipRate, .updatedAt, .infoIconUrl]
  whereCondition := [.voteAccount, .epoch]
  types :=
    [(2, .numeric), (7, .doublePrecision), (8, .doublePrecision), (13, .integer),
     (15, .integer), (17, .numeric), (18, .numeric), (19, .numeric), (20, .numeric),
     (21, .numeric), (22, .numeric), (23, .bool), (24, .numeric), (25, .numeric),
     (26, .numeric), (27, .numeric), (28, .doublePrecision), (29, .timestamp), (30, .text)]

/-- The parameters of one tuple of the `UPDATE`. -/
def updateParams (createdAt : Timestamp) (v : Validator) : List Param :=
  [param .text v.identity, param .text v.voteAccount, param .numeric v.epoch,
   param .text v.infoName, param .text v.infoUrl, param .text v.infoKeybase,
   param .text v.nodeIp, param .doublePrecision v.dcCoordinatesLon,
   param .doublePrecision v.dcCoordinatesLat, param .text v.dcContinent,
   param .text v.dcCountryIso, param .text v.dcCountry, param .text v.dcCity,
   param .integer v.dcAsn, param .text v.dcAso, param .integer v.commissionAdvertised,
   param .text v.version, param .numeric v.activatedStake, param .numeric v.marinadeStake,
   param .numeric v.foundationStake, param .numeric v.marinadeNativeStake,
   param .numeric v.institutionalStake, param .numeric v.selfStake,
   param .bool v.superminority, param .numeric v.stakeToBecomeSuperminority,
   param .numeric v.credits, param .numeric v.leaderSlots, param .numeric v.blocksProduced,
   param .doublePrecision v.skipRate, param .timestamp createdAt, param .text v.infoIconUrl]

/-- The columns of the `INSERT`. -/
def insertColumns : List ValidatorsColumn :=
  [.identity, .voteAccount, .epoch, .infoName, .infoUrl, .infoKeybase, .nodeIp,
   .dcCoordinatesLat, .dcCoordinatesLon, .dcContinent, .dcCountryIso, .dcCountry, .dcCity,
   .dcAsn, .dcAso, .commissionMaxObserved, .commissionMinObserved, .commissionAdvertised,
   .commissionEffective, .version, .activatedStake, .marinadeStake, .foundationStake,
   .marinadeNativeStake, .institutionalStake, .selfStake, .superminority,
   .stakeToBecomeSuperminority, .credits, .leaderSlots, .blocksProduced, .skipRate,
   .uptimePct, .uptime, .downtime, .updatedAt, .infoIconUrl]

/-- The parameters of one row of the `INSERT`. -/
def insertParams (createdAt : Timestamp) (v : Validator) : List Param :=
  [param .text v.identity, param .text v.voteAccount, param .numeric v.epoch,
   param .text v.infoName, param .text v.infoUrl, param .text v.infoKeybase,
   param .text v.nodeIp, param .doublePrecision v.dcCoordinatesLon,
   param .doublePrecision v.dcCoordinatesLat, param .text v.dcContinent,
   param .text v.dcCountryIso, param .text v.dcCountry, param .text v.dcCity,
   param .integer v.dcAsn, param .text v.dcAso, param .integer v.commissionMaxObserved,
   param .integer v.commissionMinObserved, param .integer v.commissionAdvertised,
   param .integer v.commissionEffective, param .text v.version,
   param .numeric v.activatedStake, param .numeric v.marinadeStake,
   param .numeric v.foundationStake, param .numeric v.marinadeNativeStake,
   param .numeric v.institutionalStake, param .numeric v.selfStake,
   param .bool v.superminority, param .numeric v.stakeToBecomeSuperminority,
   param .numeric v.credits, param .numeric v.leaderSlots, param .numeric v.blocksProduced,
   param .doublePrecision v.skipRate, param .doublePrecision v.uptimePct,
   param .numeric v.uptime, param .numeric v.downtime, param .timestamp createdAt,
   param .text v.infoIconUrl]

/-! ## The rows they leave -/

/-- A row of the validator after the `UPDATE`. The statement takes latitude and
longitude in the order of the columns from the fields of the opposite names. -/
def Validator.refresh (createdAt : Timestamp) (v : Validator) (row : ValidatorsRow) :
    ValidatorsRow :=
  { row with
    identity := v.identity
    voteAccount := v.voteAccount
    epoch := v.epoch
    infoName := v.infoName
    infoUrl := v.infoUrl
    infoKeybase := v.infoKeybase
    nodeIp := v.nodeIp
    dcCoordinatesLat := v.dcCoordinatesLon
    dcCoordinatesLon := v.dcCoordinatesLat
    dcContinent := v.dcContinent
    dcCountryIso := v.dcCountryIso
    dcCountry := v.dcCountry
    dcCity := v.dcCity
    dcAsn := v.dcAsn
    dcAso := v.dcAso
    commissionAdvertised := v.commissionAdvertised
    version := v.version.or row.version
    activatedStake := v.activatedStake
    marinadeStake := v.marinadeStake
    foundationStake := v.foundationStake
    marinadeNativeStake := v.marinadeNativeStake
    institutionalStake := v.institutionalStake
    selfStake := v.selfStake
    superminority := v.superminority
    stakeToBecomeSuperminority := v.stakeToBecomeSuperminority
    credits := v.credits
    leaderSlots := v.leaderSlots
    blocksProduced := v.blocksProduced
    skipRate := v.skipRate
    updatedAt := createdAt
    infoIconUrl := v.infoIconUrl }

/-- The row of the validator after the `INSERT`. -/
def Validator.newRow (createdAt : Timestamp) (v : Validator) : ValidatorsRow where
  identity := v.identity
  voteAccount := v.voteAccount
  epoch := v.epoch
  infoName := v.infoName
  infoUrl := v.infoUrl
  infoKeybase := v.infoKeybase
  nodeIp := v.nodeIp
  dcCoordinatesLat := v.dcCoordinatesLon
  dcCoordinatesLon := v.dcCoordinatesLat
  dcContinent := v.dcContinent
  dcCountryIso := v.dcCountryIso
  dcCountry := v.dcCountry
  dcCity := v.dcCity
  dcAsn := v.dcAsn
  dcAso := v.dcAso
  commissionMaxObserved := v.commissionMaxObserved
  commissionMinObserved := v.commissionMinObserved
  commissionAdvertised := v.commissionAdvertised
  commissionEffective := v.commissionEffective
  version := v.version
  mndeVotes := none
  activatedStake := v.activatedStake
  marinadeStake := v.marinadeStake
  marinadeNativeStake := v.marinadeNativeStake
  superminority := v.superminority
  stakeToBecomeSuperminority := v.stakeToBecomeSuperminority
  credits := v.credits
  leaderSlots := v.leaderSlots
  blocksProduced := v.blocksProduced
  skipRate := v.skipRate
  uptimePct := v.uptimePct
  uptime := v.uptime
  downtime := v.downtime
  updatedAt := createdAt
  foundationStake := v.foundationStake
  selfStake := v.selfStake
  institutionalStake := v.institutionalStake
  infoIconUrl := v.infoIconUrl

theorem valueTypes_update (createdAt : Timestamp) (v : Validator) :
    (updateParams createdAt v).map Param.type = validatorsUpdate.valueTypes := rfl

theorem assignable_update : validatorsUpdate.Assignable ValidatorsRow := by decide

theorem columnTypes_insert (createdAt : Timestamp) (v : Validator) :
    (insertParams createdAt v).map Param.type =
      insertColumns.map (Relation.type ValidatorsRow) := rfl

/-- `COALESCE` of two columns is the first value that is there. -/
theorem eval_coalesce_version (createdAt : Timestamp) (v : Validator) (row : ValidatorsRow) :
    (SetExpr.coalesce ValidatorsColumn.version).eval
        (validatorsUpdate.tuple ((updateParams createdAt v).map Param.value)) row =
      SqlCodec.toSql .text (v.version.or row.version) := by
  have hu : validatorsUpdate.tuple ((updateParams createdAt v).map Param.value) .version =
      SqlCodec.toSql .text v.version := rfl
  show (if validatorsUpdate.tuple _ .version = .null then Relation.get row .version
    else validatorsUpdate.tuple _ .version) = _
  rw [hu]
  cases v.version <;> rfl

/-- **The `UPDATE`, column by column.** -/
theorem assigned_update (createdAt : Timestamp) (v : Validator) (row : ValidatorsRow)
    (c : ValidatorsColumn) :
    validatorsUpdate.assigned
        (validatorsUpdate.tuple ((updateParams createdAt v).map Param.value)) row c =
      Relation.get (v.refresh createdAt row) c := by
  cases c with
  | version => exact eval_coalesce_version createdAt v row
  | _ => rfl

/-- **The `INSERT`, column by column.** -/
theorem values_insert (createdAt : Timestamp) (v : Validator) (c : ValidatorsColumn) :
    (valueUnder insertColumns ((insertParams createdAt v).map Param.value) c).getD
        (Relation.default ValidatorsRow c) =
      Relation.get (v.newRow createdAt) c := by
  cases c <;> rfl

/-! ## The program -/

section Program

variable (scan : Scan) (snapshot : Snapshot)

/-- The hash map `validators`: of entries with the same vote account the last one
counts. -/
def snapshotValidators : Dict String Validator :=
  Dict.ofList (snapshot.validators.map fun v =>
    (v.voteAccount, Validator.newFromSnapshot snapshot.epoch v))

/-- `SELECT vote_account FROM validators WHERE epoch = $1`. -/
def selectedVoteAccounts (table : List ValidatorsRow) : List String :=
  ((scan.order table).filter fun row => row.epoch = snapshot.epoch).map
    ValidatorsRow.voteAccount

/-- The `UPDATE` for a chunk of the selected rows. -/
def updateChunk (chunk : List String) : Statement DbError (List ValidatorsRow) :=
  executeUpdate validatorsUpdate ((chunk.filterMap (snapshotValidators snapshot).get?).map
    (updateParams snapshot.createdAt))

/-- The set `updated_vote_accounts` after the updates. -/
def updatedVoteAccounts (table : List ValidatorsRow) : List String :=
  (selectedVoteAccounts scan snapshot table).filter fun voteAccount =>
    voteAccount ∈ (snapshotValidators snapshot).keys

/-- The validators to insert, in the order of an iteration over the hash map. -/
def insertedValidators (table : List ValidatorsRow) : List (String × Validator) :=
  scan.order ((snapshotValidators snapshot).entries.filter fun e =>
    e.1 ∉ updatedVoteAccounts scan snapshot table)

/-- The `INSERT` for a chunk; it skips updated vote accounts once more. -/
def insertChunk (updated : List String) (chunk : List (String × Validator)) :
    Statement DbError (List ValidatorsRow) :=
  executeInsert insertColumns ((chunk.filter fun e => e.1 ∉ updated).map fun e =>
    insertParams snapshot.createdAt e.2)

/-- The statements of `store_validators`. -/
def validatorsStatements (table : List ValidatorsRow) :
    List (Statement DbError (List ValidatorsRow)) :=
  (chunks defaultChunkSize (selectedVoteAccounts scan snapshot table)).map
      (updateChunk snapshot) ++
    (chunks defaultChunkSize (insertedValidators scan snapshot table)).map
      (insertChunk snapshot (updatedVoteAccounts scan snapshot table))

/-- `store_validators`, without faults of the environment. -/
def storeValidators (table : List ValidatorsRow) : Except DbError (List ValidatorsRow) :=
  commitAll (validatorsStatements scan snapshot table) table

end Program

/-! ## What a run does -/

section Run

variable {scan : Scan} {snapshot : Snapshot} {table : List ValidatorsRow}

/-- The entries of the hash map come from the snapshot. -/
theorem mem_snapshotValidators {e : String × Validator}
    (h : e ∈ (snapshotValidators snapshot).entries) :
    ∃ v ∈ snapshot.validators, e = (v.voteAccount, .newFromSnapshot snapshot.epoch v) := by
  obtain ⟨v, hv, rfl⟩ := List.mem_map.mp (Dict.mem_of_mem_ofList h)
  exact ⟨v, hv, rfl⟩

theorem get?_snapshotValidators {voteAccount : String} {v : Validator}
    (h : (snapshotValidators snapshot).get? voteAccount = some v) :
    v.voteAccount = voteAccount ∧ v.epoch = snapshot.epoch := by
  obtain ⟨_, -, heq⟩ := mem_snapshotValidators (Dict.mem_of_get? h)
  obtain ⟨rfl, rfl⟩ := Prod.mk.inj heq
  exact ⟨rfl, rfl⟩

/-- What the `UPDATE` of a chunk makes of a row. -/
def refreshRow (snapshot : Snapshot) : List String → ValidatorsRow → ValidatorsRow :=
  editRow snapshot.epoch (snapshotValidators snapshot).get?
    (Validator.refresh snapshot.createdAt)

/-- The tuple of a validator selects its row of the epoch. -/
theorem selects_update {v : Validator} {row : ValidatorsRow} :
    validatorsUpdate.Selects
        (validatorsUpdate.tuple ((updateParams snapshot.createdAt v).map Param.value)) row ↔
      row.voteAccount = v.voteAccount ∧ row.epoch = v.epoch :=
  selects_iff rfl rfl rfl

/-- Refreshing a row twice is refreshing it once. -/
theorem refresh_refresh (createdAt : Timestamp) (v : Validator) (row : ValidatorsRow) :
    v.refresh createdAt (v.refresh createdAt row) = v.refresh createdAt row := by
  have hversion : v.version.or (v.version.or row.version) = v.version.or row.version := by
    cases v.version <;> rfl
  unfold Validator.refresh
  simp only [hversion]

/-- **The `UPDATE`** refreshes the rows of the snapshot's validators. -/
theorem edits_update (snapshot : Snapshot) :
    Edits validatorsUpdate (updateParams snapshot.createdAt) snapshot.epoch
      (snapshotValidators snapshot).get? (Validator.refresh snapshot.createdAt) where
  assignable := assignable_update
  types := valueTypes_update _
  selects voteAccount v row hget := by
    obtain ⟨hvote, hepoch⟩ := get?_snapshotValidators hget
    rw [selects_update, hvote, hepoch]
  assigned := assigned_update _
  key row v hget hepoch := by
    obtain ⟨hvote, hepoch'⟩ := get?_snapshotValidators hget
    exact ⟨hvote, hepoch'.trans hepoch.symm⟩
  idempotent := refresh_refresh _

/-- The rows of inserted validators. -/
def newRows (snapshot : Snapshot) (inserted : List (String × Validator)) :
    List ValidatorsRow :=
  inserted.map fun e => e.2.newRow snapshot.createdAt

/-- **The `INSERT` of a chunk** appends the rows of its validators. -/
theorem insertChunk_eq_ok {updated : List String} {chunk : List (String × Validator)}
    (hnew : ∀ e ∈ chunk, e.1 ∉ updated) (hlen : chunk.length ≤ defaultChunkSize)
    (hkey : PrimaryKey (table ++ newRows snapshot chunk)) :
    insertChunk snapshot updated chunk table = .ok (table ++ newRows snapshot chunk) := by
  have hall : (chunk.filter fun e => e.1 ∉ updated) = chunk :=
    List.filter_eq_self.mpr fun e he => decide_eq_true (hnew e he)
  unfold insertChunk
  rw [hall]
  refine executeInsert_eq_ok (fun e _ => columnTypes_insert _ e.2) ?_
    (fun e _ c => values_insert _ e.2 c) (nodup_keyOf.mpr hkey)
  exact le_trans (Nat.mul_le_mul_right _ hlen) (by decide)

/-- An `INSERT` of a chunk that succeeds appends the rows of its new validators. -/
theorem insertChunk_append {updated : List String} {chunk : List (String × Validator)}
    {table' : List ValidatorsRow} (hlen : chunk.length ≤ defaultChunkSize)
    (hkey : PrimaryKey table) (h : insertChunk snapshot updated chunk table = .ok table') :
    table' = table ++ newRows snapshot (chunk.filter fun e => e.1 ∉ updated) ∧
      PrimaryKey table' := by
  have hsize : (chunk.filter fun e => e.1 ∉ updated).length * insertColumns.length ≤
      maxParams :=
    (Nat.mul_le_mul_right _ ((List.length_filter_le ..).trans hlen)).trans (by decide)
  obtain ⟨htable, hkey'⟩ := eq_append_of_executeInsert
    (fun e _ => columnTypes_insert snapshot.createdAt e.2) hsize
    (fun e _ c => values_insert snapshot.createdAt e.2 c) (nodup_keyOf.mpr hkey) h
  exact ⟨htable, nodup_keyOf.mp hkey'⟩

/-- **All inserts** append the rows of all chunks. -/
theorem commitAll_insertChunk {updated : List String}
    {chunkList : List (List (String × Validator))}
    (hnew : ∀ e ∈ chunkList.flatten, e.1 ∉ updated)
    (hlen : ∀ chunk ∈ chunkList, chunk.length ≤ defaultChunkSize)
    (hkey : PrimaryKey (table ++ newRows snapshot chunkList.flatten)) :
    commitAll (chunkList.map (insertChunk snapshot updated)) table =
      .ok (table ++ newRows snapshot chunkList.flatten) := by
  induction chunkList generalizing table with
  | nil => exact congrArg Except.ok (List.append_nil table).symm
  | cons chunk chunkList ih =>
    have hsplit : table ++ newRows snapshot (chunk :: chunkList).flatten =
        (table ++ newRows snapshot chunk) ++ newRows snapshot chunkList.flatten := by
      unfold newRows
      rw [List.flatten_cons, List.map_append, List.append_assoc]
    rw [hsplit] at hkey ⊢
    refine commitAll_cons.mpr ⟨_, insertChunk_eq_ok (fun e he => hnew e ?_)
      (hlen chunk List.mem_cons_self) ?_, ih (fun e he => hnew e ?_)
      (fun c hc => hlen c (List.mem_cons_of_mem _ hc)) hkey⟩
    · exact List.mem_append_left _ he
    · unfold PrimaryKey at hkey ⊢
      rw [List.map_append] at hkey
      exact (List.nodup_append.mp hkey).1
    · exact List.mem_append_right _ he

theorem mem_selectedVoteAccounts {voteAccount : String} :
    voteAccount ∈ selectedVoteAccounts scan snapshot table ↔
      ∃ row ∈ table, row.epoch = snapshot.epoch ∧ row.voteAccount = voteAccount := by
  unfold selectedVoteAccounts
  rw [List.mem_map]
  constructor
  · rintro ⟨row, hrow, rfl⟩
    obtain ⟨hmem, hepoch⟩ := List.mem_filter.mp hrow
    exact ⟨row, (scan.mem_order).mp hmem, of_decide_eq_true hepoch, rfl⟩
  · rintro ⟨row, hrow, hepoch, rfl⟩
    exact ⟨row, List.mem_filter.mpr ⟨scan.mem_order.mpr hrow, decide_eq_true hepoch⟩, rfl⟩

theorem mem_insertedValidators {e : String × Validator} :
    e ∈ insertedValidators scan snapshot table ↔
      e ∈ (snapshotValidators snapshot).entries ∧
        e.1 ∉ selectedVoteAccounts scan snapshot table := by
  unfold insertedValidators updatedVoteAccounts
  rw [Scan.mem_order, List.mem_filter, decide_eq_true_iff, List.mem_filter]
  refine and_congr_right fun he => ?_
  have hkey : e.1 ∈ (snapshotValidators snapshot).keys := List.mem_map_of_mem he
  simp [hkey]

/-- The key of a row that is inserted. -/
theorem newRow_key {e : String × Validator} (h : e ∈ (snapshotValidators snapshot).entries) :
    (e.2.newRow snapshot.createdAt).voteAccount = e.1 ∧
      (e.2.newRow snapshot.createdAt).epoch = snapshot.epoch :=
  get?_snapshotValidators (Dict.get?_of_mem h)

/-- Inserted rows have keys of their own. -/
theorem primaryKey_insert (hkey : PrimaryKey table) :
    PrimaryKey (table ++ newRows snapshot (insertedValidators scan snapshot table)) := by
  have hnew : (newRows snapshot (insertedValidators scan snapshot table)).map
      (fun row => (row.voteAccount, row.epoch)) =
      ((insertedValidators scan snapshot table).map Prod.fst).map
        fun voteAccount => (voteAccount, snapshot.epoch) := by
    unfold newRows
    rw [List.map_map, List.map_map]
    refine List.map_congr_left fun e he => ?_
    obtain ⟨hvote, hepoch⟩ := newRow_key (mem_insertedValidators.mp he).1
    exact Prod.ext hvote hepoch
  have hdistinct : ((insertedValidators scan snapshot table).map Prod.fst).Nodup := by
    unfold insertedValidators
    refine (((scan.perm _).map Prod.fst).nodup_iff).mpr ?_
    exact (snapshotValidators snapshot).nodup.sublist (List.filter_sublist.map _)
  unfold PrimaryKey at hkey ⊢
  rw [List.map_append, hnew]
  refine List.nodup_append.mpr
    ⟨hkey, hdistinct.map fun _ _ h => (Prod.mk.inj h).1, fun k hk k' hk' heq => ?_⟩
  obtain ⟨row, hrow, rfl⟩ := List.mem_map.mp hk
  obtain ⟨voteAccount, hvote, rfl⟩ := List.mem_map.mp hk'
  obtain ⟨e, he, rfl⟩ := List.mem_map.mp hvote
  obtain ⟨hrow', hepoch⟩ := Prod.mk.inj heq
  exact (mem_insertedValidators.mp he).2
    (mem_selectedVoteAccounts.mpr ⟨row, hrow, hepoch, hrow'⟩)

/-- Rows of the epoch are all selected, and the others are not in the snapshot's
hash map under this key. -/
theorem refreshRow_selected {row : ValidatorsRow} (h : row ∈ table) :
    refreshRow snapshot (selectedVoteAccounts scan snapshot table) row =
      refreshRow snapshot (snapshotValidators snapshot).keys row := by
  unfold refreshRow editRow
  by_cases hepoch : row.epoch = snapshot.epoch
  · have hsel : row.voteAccount ∈ selectedVoteAccounts scan snapshot table :=
      mem_selectedVoteAccounts.mpr ⟨row, h, hepoch, rfl⟩
    rw [if_pos ⟨hepoch, hsel⟩]
    by_cases hkey : row.voteAccount ∈ (snapshotValidators snapshot).keys
    · rw [if_pos ⟨hepoch, hkey⟩]
    · rw [if_neg fun h => hkey h.2, Dict.get?_eq_none_iff.mpr hkey]
  · rw [if_neg fun h => hepoch h.1, if_neg fun h => hepoch h.1]

/-- The table after a run. -/
def upserted (scan : Scan) (snapshot : Snapshot) (table : List ValidatorsRow) :
    List ValidatorsRow :=
  table.map (refreshRow snapshot (snapshotValidators snapshot).keys) ++
    newRows snapshot (insertedValidators scan snapshot table)

theorem primaryKey_upserted (hkey : PrimaryKey table) :
    PrimaryKey (upserted scan snapshot table) := by
  have hinsert : PrimaryKey (table ++ newRows snapshot (insertedValidators scan snapshot table)) :=
    primaryKey_insert hkey
  unfold upserted PrimaryKey at *
  rw [List.map_append] at hinsert ⊢
  rw [List.map_map, refreshRow, (edits_update snapshot).key_comp]
  exact hinsert

/-- **A run of `store_validators`** succeeds: it refreshes the rows of the snapshot's
validators in its epoch and appends a row for every other validator. -/
theorem storeValidators_eq_ok (hkey : PrimaryKey table) :
    storeValidators scan snapshot table = .ok (upserted scan snapshot table) := by
  have hupdate : commitAll
      ((chunks defaultChunkSize (selectedVoteAccounts scan snapshot table)).map
        (updateChunk snapshot)) table =
      .ok (table.map (refreshRow snapshot (snapshotValidators snapshot).keys)) := by
    have hrun := (edits_update snapshot).commitAll_eq_ok
      (chunks defaultChunkSize (selectedVoteAccounts scan snapshot table)) hkey
      fun chunk hchunk => (Nat.mul_le_mul_right _ (length_of_mem_chunks hchunk)).trans
        (by decide)
    rw [chunks_flatten (by decide)] at hrun
    exact hrun.trans (congrArg Except.ok (List.map_congr_left fun row hrow =>
      refreshRow_selected hrow))
  refine commitAll_append.mpr ⟨_, hupdate, ?_⟩
  have hflat : (chunks defaultChunkSize (insertedValidators scan snapshot table)).flatten =
      insertedValidators scan snapshot table := chunks_flatten (by decide) _
  rw [commitAll_insertChunk ?_ (fun _ => length_of_mem_chunks) ?_, hflat]
  · rfl
  · intro e he
    rw [hflat] at he
    intro hupdated
    exact (mem_insertedValidators.mp he).2 (List.mem_filter.mp hupdated).1
  · rw [hflat]
    exact primaryKey_upserted hkey

end Run

/-! ## The table as an upsert of the snapshot -/

/-- The columns that closing an epoch fills. -/
def closingColumns (row : ValidatorsRow) :
    Option Int × Option Int × Option Int × Option Rat × Option Rat × Option Rat :=
  (row.commissionEffective, row.commissionMinObserved, row.commissionMaxObserved,
    row.uptime, row.downtime, row.uptimePct)

/-- The collected columns of a row hold the fields of a validator of the snapshot;
without a version in the snapshot the row keeps the one it had. -/
structure Collected (snapshot : Snapshot) (v : ValidatorSnapshot)
    (oldVersion : Option String) (row : ValidatorsRow) : Prop where
  identity : row.identity = v.identity
  voteAccount : row.voteAccount = v.voteAccount
  epoch : row.epoch = snapshot.epoch
  infoName : row.infoName = v.infoName
  infoUrl : row.infoUrl = v.infoUrl
  infoKeybase : row.infoKeybase = v.infoKeybase
  infoIconUrl : row.infoIconUrl = v.infoIconUrl
  nodeIp : row.nodeIp = v.nodeIp
  dcCoordinates : ∀ ipInfo, v.dataCenter = some (.new ipInfo) →
    row.dcCoordinatesLat = ipInfo.coordinates.map Coordinates.lat ∧
      row.dcCoordinatesLon = ipInfo.coordinates.map Coordinates.lon
  noCoordinates : v.dataCenter = none →
    row.dcCoordinatesLat = none ∧ row.dcCoordinatesLon = none
  dcContinent : row.dcContinent = v.dataCenter.bind ValidatorDataCenter.continent
  dcCountryIso : row.dcCountryIso = v.dataCenter.bind ValidatorDataCenter.countryIso
  dcCountry : row.dcCountry = v.dataCenter.bind ValidatorDataCenter.country
  dcCity : row.dcCity = v.dataCenter.bind ValidatorDataCenter.city
  dcAsn : row.dcAsn =
    (v.dataCenter.bind ValidatorDataCenter.asn).map fun asn => (asn.toNat : Int)
  dcAso : row.dcAso = v.dataCenter.bind ValidatorDataCenter.aso
  commissionAdvertised :
    row.commissionAdvertised = some (v.performance.commission.toNat : Int)
  version : row.version = v.performance.version.or oldVersion
  activatedStake : row.activatedStake = v.activatedStake
  marinadeStake : row.marinadeStake = v.marinadeStake
  foundationStake : row.foundationStake = v.foundationStake
  marinadeNativeStake : row.marinadeNativeStake = v.marinadeNativeStake
  institutionalStake : row.institutionalStake = v.institutionalStake
  selfStake : row.selfStake = v.selfStake
  superminority : row.superminority = v.superminority
  stakeToBecomeSuperminority :
    row.stakeToBecomeSuperminority = v.stakeToBecomeSuperminority
  credits : row.credits = v.performance.credits
  leaderSlots : row.leaderSlots = v.performance.leaderSlots
  blocksProduced : row.blocksProduced = v.performance.blocksProduced
  skipRate : row.skipRate = v.performance.skipRate
  updatedAt : row.updatedAt = snapshot.createdAt

/-- AS numbers fit in the `INTEGER` column. -/
def AsnsFit (snapshot : Snapshot) : Prop :=
  ∀ v ∈ snapshot.validators, ∀ dataCenter ∈ v.dataCenter, ∀ asn ∈ dataCenter.asn,
    asn.toNat < 2 ^ 31

theorem asI32_eq {asn : UInt32} (h : asn.toNat < 2 ^ 31) : asI32 asn = asn.toNat := by
  show asn.toBitVec.toInt = _
  rw [BitVec.toInt_eq_toNat_of_lt (by simpa using by omega)]
  rfl

/-- A field of the data center; the default has none. -/
theorem getD_dataCenter {α : Type} (field : ValidatorDataCenter → Option α)
    (h : field {} = none) (dataCenter : Option ValidatorDataCenter) :
    field (dataCenter.getD {}) = dataCenter.bind field := by
  cases dataCenter with
  | none => exact h
  | some dataCenter => rfl

section Upsert

variable {scan : Scan} {snapshot : Snapshot} {table : List ValidatorsRow}

/-- **An updated row** holds what was collected. -/
theorem collected_refresh {v : ValidatorSnapshot} (hasn : AsnsFit snapshot)
    (hv : v ∈ snapshot.validators) (row : ValidatorsRow) :
    Collected snapshot v row.version
      ((Validator.newFromSnapshot snapshot.epoch v).refresh snapshot.createdAt row) where
  identity := rfl
  voteAccount := rfl
  epoch := rfl
  infoName := rfl
  infoUrl := rfl
  infoKeybase := rfl
  infoIconUrl := rfl
  nodeIp := rfl
  dcCoordinates ipInfo h := by
    -- the tuple is built as longitude and latitude, read the other way round, and
    -- the statement exchanges the two once more
    unfold Validator.refresh Validator.newFromSnapshot ValidatorDataCenter.new at *
    simp only [h, Option.getD_some, Option.map_map]
    exact ⟨rfl, rfl⟩
  noCoordinates h := by
    unfold Validator.refresh Validator.newFromSnapshot
    rw [h]
    exact ⟨rfl, rfl⟩
  dcContinent := getD_dataCenter ValidatorDataCenter.continent rfl v.dataCenter
  dcCountryIso := getD_dataCenter ValidatorDataCenter.countryIso rfl v.dataCenter
  dcCountry := getD_dataCenter ValidatorDataCenter.country rfl v.dataCenter
  dcCity := getD_dataCenter ValidatorDataCenter.city rfl v.dataCenter
  dcAsn := by
    show (v.dataCenter.getD {}).asn.map asI32 = _
    rw [getD_dataCenter ValidatorDataCenter.asn rfl]
    refine Option.map_congr fun asn hasn' => asI32_eq ?_
    obtain ⟨dataCenter, hdc, hasn'⟩ := Option.mem_bind_iff.mp hasn'
    exact hasn v hv dataCenter hdc asn hasn'
  dcAso := getD_dataCenter ValidatorDataCenter.aso rfl v.dataCenter
  commissionAdvertised := rfl
  version := rfl
  activatedStake := rfl
  marinadeStake := rfl
  foundationStake := rfl
  marinadeNativeStake := rfl
  institutionalStake := rfl
  selfStake := rfl
  superminority := rfl
  stakeToBecomeSuperminority := rfl
  credits := rfl
  leaderSlots := rfl
  blocksProduced := rfl
  skipRate := rfl
  updatedAt := rfl

/-- Both statements write the same collected columns. -/
theorem newRow_eq_refresh (createdAt : Timestamp) (v : Validator) :
    v.newRow createdAt = v.refresh createdAt { v.newRow createdAt with version := none } := by
  unfold Validator.refresh Validator.newRow
  simp only [Option.or_none]

/-- **An inserted row** holds what was collected. -/
theorem collected_newRow {v : ValidatorSnapshot} (hasn : AsnsFit snapshot)
    (hv : v ∈ snapshot.validators) :
    Collected snapshot v none
      ((Validator.newFromSnapshot snapshot.epoch v).newRow snapshot.createdAt) := by
  rw [newRow_eq_refresh]
  exact collected_refresh hasn hv
    { (Validator.newFromSnapshot snapshot.epoch v).newRow snapshot.createdAt with
      version := none }

/-- Refreshing an inserted row changes nothing. -/
theorem refresh_newRow (v : Validator) :
    v.refresh snapshot.createdAt (v.newRow snapshot.createdAt) =
      v.newRow snapshot.createdAt := by
  rw [newRow_eq_refresh, refresh_refresh]

theorem mem_keys_snapshotValidators {voteAccount : String} :
    voteAccount ∈ (snapshotValidators snapshot).keys ↔
      voteAccount ∈ snapshot.validators.map ValidatorSnapshot.voteAccount := by
  unfold snapshotValidators
  rw [Dict.mem_keys_ofList, List.map_map]
  rfl

/-- With distinct vote accounts the hash map has every validator. -/
theorem get?_of_distinct
    (hdistinct : (snapshot.validators.map ValidatorSnapshot.voteAccount).Nodup)
    {v : ValidatorSnapshot} (hv : v ∈ snapshot.validators) :
    (snapshotValidators snapshot).get? v.voteAccount =
      some (.newFromSnapshot snapshot.epoch v) := by
  refine Dict.get?_ofList (List.mem_map.mpr ⟨v, hv, rfl⟩) fun a ha => ?_
  obtain ⟨v', hv', heq⟩ := List.mem_map.mp ha
  obtain ⟨hvote, rfl⟩ := Prod.mk.inj heq
  rw [List.inj_on_of_nodup_map hdistinct hv' hv hvote]

/-- The row of a validator that has one is updated. -/
theorem refresh_mem_upserted {row : ValidatorsRow} {v : Validator} (hrow : row ∈ table)
    (hepoch : row.epoch = snapshot.epoch)
    (hget : (snapshotValidators snapshot).get? row.voteAccount = some v) :
    v.refresh snapshot.createdAt row ∈ upserted scan snapshot table := by
  refine List.mem_append_left _ (List.mem_map.mpr ⟨row, hrow, ?_⟩)
  unfold refreshRow editRow
  rw [if_pos ⟨hepoch, List.mem_map_of_mem (Dict.mem_of_get? hget)⟩, hget]

/-- A validator without a row gets one. -/
theorem newRow_mem_upserted {voteAccount : String} {v : Validator}
    (hget : (snapshotValidators snapshot).get? voteAccount = some v)
    (hnone : ∀ row ∈ table, ¬ (row.voteAccount = voteAccount ∧ row.epoch = snapshot.epoch)) :
    v.newRow snapshot.createdAt ∈ upserted scan snapshot table := by
  refine List.mem_append_right _ (List.mem_map.mpr ⟨(voteAccount, v), ?_, rfl⟩)
  refine mem_insertedValidators.mpr ⟨Dict.mem_of_get? hget, fun hsel => ?_⟩
  obtain ⟨row, hrow, hepoch, hvote⟩ := mem_selectedVoteAccounts.mp hsel
  exact hnone row hrow ⟨hvote, hepoch⟩

/-- **The row of a validator of the snapshot** holds what was collected, and what
closing the epoch left in it. -/
theorem rowsAt_upserted (hkey : PrimaryKey table)
    (hdistinct : (snapshot.validators.map ValidatorSnapshot.voteAccount).Nodup)
    (hasn : AsnsFit snapshot) {v : ValidatorSnapshot} (hv : v ∈ snapshot.validators) :
    ∃ row, rowsAt (upserted scan snapshot table) v.voteAccount snapshot.epoch = [row] ∧
      Collected snapshot v
        ((rowsAt table v.voteAccount snapshot.epoch).head?.bind ValidatorsRow.version) row ∧
      ∀ old ∈ rowsAt table v.voteAccount snapshot.epoch,
        closingColumns row = closingColumns old := by
  have hget := get?_of_distinct hdistinct hv
  by_cases hold : ∃ row ∈ table,
      row.voteAccount = v.voteAccount ∧ row.epoch = snapshot.epoch
  · obtain ⟨row, hrow, hvote, hepoch⟩ := hold
    have hone := rowsAt_eq_singleton hkey hrow
    rw [hvote, hepoch] at hone
    rw [← hvote] at hget
    rw [hone]
    refine ⟨_, rowsAt_eq_singleton (primaryKey_upserted hkey)
      (refresh_mem_upserted hrow hepoch hget), collected_refresh hasn hv row, ?_⟩
    intro old hmem
    obtain rfl := List.mem_singleton.mp hmem
    rfl
  · have hnone : ∀ row ∈ table,
        ¬ (row.voteAccount = v.voteAccount ∧ row.epoch = snapshot.epoch) :=
      fun row hrow h => hold ⟨row, hrow, h⟩
    have hnil : rowsAt table v.voteAccount snapshot.epoch = [] :=
      List.filter_eq_nil_iff.mpr fun row hrow h => hnone row hrow (of_decide_eq_true h)
    rw [hnil]
    exact ⟨_, rowsAt_eq_singleton (primaryKey_upserted hkey)
      (newRow_mem_upserted hget hnone), collected_newRow hasn hv, fun _ h => (nomatch h)⟩

/-- **Rows of other epochs and validators** are as they were. -/
theorem rowsAt_upserted_other {voteAccount : String} {epoch : Nat}
    (h : epoch ≠ snapshot.epoch ∨
      voteAccount ∉ snapshot.validators.map ValidatorSnapshot.voteAccount) :
    rowsAt (upserted scan snapshot table) voteAccount epoch =
      rowsAt table voteAccount epoch := by
  have hselected : ¬ (epoch = snapshot.epoch ∧
      voteAccount ∈ (snapshotValidators snapshot).keys) := by
    rintro ⟨he, hmem⟩
    exact h.elim (absurd he) (absurd (mem_keys_snapshotValidators.mp hmem))
  have hnew : rowsAt (newRows snapshot (insertedValidators scan snapshot table))
      voteAccount epoch = [] := by
    refine List.filter_eq_nil_iff.mpr fun row hrow hk => ?_
    obtain ⟨e, he, rfl⟩ := List.mem_map.mp hrow
    have hentry := (mem_insertedValidators.mp he).1
    obtain ⟨hvote, hepoch⟩ := newRow_key hentry
    obtain ⟨hvote', hepoch'⟩ := of_decide_eq_true hk
    refine hselected ⟨hepoch'.symm.trans hepoch, ?_⟩
    rw [← hvote', hvote]
    exact List.mem_map_of_mem hentry
  unfold upserted
  rw [rowsAt_append, hnew, List.append_nil, refreshRow,
    rowsAt_map ((edits_update snapshot).editRow_key _)]
  refine (List.map_congr_left fun row hrow => ?_).trans (List.map_id _)
  obtain ⟨rfl, rfl⟩ := of_decide_eq_true (List.mem_filter.mp hrow).2
  exact if_neg hselected

/-- After a run every validator of the snapshot has a row. -/
theorem inserted_upserted (scan' : Scan) :
    insertedValidators scan' snapshot (upserted scan snapshot table) = [] := by
  refine List.eq_nil_iff_forall_not_mem.mpr fun e he => ?_
  obtain ⟨hentry, hnone⟩ := mem_insertedValidators.mp he
  obtain ⟨hvote, hepoch⟩ := newRow_key hentry
  refine hnone (mem_selectedVoteAccounts.mpr ?_)
  by_cases hold : ∃ row ∈ table, row.voteAccount = e.1 ∧ row.epoch = snapshot.epoch
  · obtain ⟨row, hrow, hrowVote, hrowEpoch⟩ := hold
    have hget : (snapshotValidators snapshot).get? row.voteAccount = some e.2 :=
      hrowVote ▸ Dict.get?_of_mem hentry
    exact ⟨_, refresh_mem_upserted hrow hrowEpoch hget, hepoch, hvote⟩
  · exact ⟨_, newRow_mem_upserted (Dict.get?_of_mem hentry)
      fun row hrow h => hold ⟨row, hrow, h⟩, hepoch, hvote⟩

/-- **Running again** changes nothing, in whatever order rows are returned. -/
theorem upserted_upserted (scan' : Scan) :
    upserted scan' snapshot (upserted scan snapshot table) = upserted scan snapshot table := by
  have hfix : ∀ row ∈ upserted scan snapshot table,
      refreshRow snapshot (snapshotValidators snapshot).keys row = row := by
    intro row hrow
    rcases List.mem_append.mp hrow with hold | hnew
    · obtain ⟨row, -, rfl⟩ := List.mem_map.mp hold
      rw [refreshRow, (edits_update snapshot).editRow_append]
      unfold editRow
      simp only [List.mem_append, or_self]
    · obtain ⟨e, he, rfl⟩ := List.mem_map.mp hnew
      have hentry := (mem_insertedValidators.mp he).1
      unfold refreshRow editRow
      rw [(newRow_key hentry).1, Dict.get?_of_mem hentry]
      show (if _ then e.2.refresh snapshot.createdAt _ else _) = _
      rw [refresh_newRow, ite_self]
  rw [upserted, inserted_upserted, newRows, List.map_nil, List.append_nil]
  exact (List.map_congr_left hfix).trans (List.map_id _)

end Upsert

/-- **`store_validators` is an upsert.** After a run every validator of the snapshot
has one row for its epoch, with the collected columns of the snapshot and the closing
columns it had; the other rows are as they were; a second run changes nothing. -/
theorem storeValidators_upsert (scan : Scan) (snapshot : Snapshot)
    (table : List ValidatorsRow) (hkey : PrimaryKey table)
    (hdistinct : (snapshot.validators.map ValidatorSnapshot.voteAccount).Nodup)
    (hasn : AsnsFit snapshot) :
    ∃ table', storeValidators scan snapshot table = .ok table' ∧ PrimaryKey table' ∧
      (∀ v ∈ snapshot.validators, ∃ row,
        rowsAt table' v.voteAccount snapshot.epoch = [row] ∧
        Collected snapshot v
          ((rowsAt table v.voteAccount snapshot.epoch).head?.bind ValidatorsRow.version) row ∧
        ∀ old ∈ rowsAt table v.voteAccount snapshot.epoch,
          closingColumns row = closingColumns old) ∧
      (∀ voteAccount epoch,
        (epoch ≠ snapshot.epoch ∨
          voteAccount ∉ snapshot.validators.map ValidatorSnapshot.voteAccount) →
        rowsAt table' voteAccount epoch = rowsAt table voteAccount epoch) ∧
      ∀ scan', storeValidators scan' snapshot table' = .ok table' := by
  refine ⟨_, storeValidators_eq_ok hkey, primaryKey_upserted hkey,
    fun v hv => rowsAt_upserted hkey hdistinct hasn hv,
    fun _ _ h => rowsAt_upserted_other h, fun scan' => ?_⟩
  rw [storeValidators_eq_ok (primaryKey_upserted hkey), upserted_upserted]

/-- The whois service's answer for a validator in Frankfurt. -/
def frankfurt : IpInfo where
  asn := some 24940
  aso := some "aso"
  coordinates := some ⟨50, 8⟩
  continent := some "EU"
  countryIso := some "DE"
  country := some "Germany"
  city := some "Frankfurt"

/-- A snapshot of a single validator. -/
def singleValidators (createdAt : Timestamp) (credits : Nat) : Snapshot where
  epoch := 500
  createdAt := createdAt
  validators := [{
    identity := "identity"
    voteAccount := "vote"
    nodeIp := some "10.0.0.1"
    infoName := some "name"
    infoUrl := none
    infoKeybase := none
    infoIconUrl := none
    dataCenter := some (.new frankfurt)
    activatedStake := 1000
    foundationStake := 0
    selfStake := 10
    marinadeStake := 100
    marinadeNativeStake := 50
    institutionalStake := 0
    superminority := false
    stakeToBecomeSuperminority := 5000
    performance := {
      commission := 5
      version := some "1.17.5"
      credits := credits
      leaderSlots := 4
      blocksProduced := 4
      skipRate := 0
      delinquent := false } }]

/-- The rows of the validator in two epochs; one of epoch 500 is closed. -/
def storedRows : List ValidatorsRow :=
  (upserted .sequential (singleValidators 0 10) []).flatMap fun row =>
    [{ row with epoch := 499 }, { row with commissionEffective := some 7 }]

/-- The next snapshot has a new validator, and no version of the other one. -/
def nextValidators : Snapshot :=
  { singleValidators minute 20 with
    validators := (singleValidators minute 20).validators.flatMap fun v =>
      [{ v with performance := { v.performance with version := none } },
        { v with voteAccount := "new" }] }

theorem asnsFit_nextValidators : AsnsFit nextValidators := by
  intro v hv dataCenter hdc asn hasn
  simp only [nextValidators, singleValidators, List.flatMap_cons, List.flatMap_nil,
    List.append_nil, List.mem_cons, List.not_mem_nil, or_false] at hv
  rcases hv with rfl | rfl
  all_goals
    obtain rfl := Option.some.inj hdc
    obtain rfl := Option.some.inj hasn
    decide

/-- The row that is there gets the new credits and keeps its version and what closing the epoch
left in it; the new row has the coordinates as the service returned them. -/
theorem storeValidators_upsert_next :
    ∃ table', storeValidators .sequential nextValidators storedRows = .ok table' ∧
      PrimaryKey table' ∧
      (∃ row, rowsAt table' "vote" 500 = [row] ∧ row.credits = 20 ∧
        row.version = some "1.17.5" ∧
        closingColumns row = (some 7, none, none, none, none, none)) ∧
      (∃ row, rowsAt table' "new" 500 = [row] ∧
        row.dcCoordinatesLat = some 50 ∧ row.dcCoordinatesLon = some 8) ∧
      rowsAt table' "vote" 499 = rowsAt storedRows "vote" 499 := by
  obtain ⟨table', hrun, hkey, hrows, hothers, -⟩ :=
    storeValidators_upsert .sequential nextValidators storedRows (by unfold PrimaryKey; decide)
      (by decide) asnsFit_nextValidators
  obtain ⟨row, hone, hcollected, hclosing⟩ := hrows _ List.mem_cons_self
  obtain ⟨new, hnew, hcollectedNew, -⟩ := hrows _ (List.mem_cons_of_mem _ List.mem_cons_self)
  exact ⟨table', hrun, hkey, ⟨row, hone, hcollected.credits, hcollected.version,
    hclosing _ List.mem_cons_self⟩, ⟨new, hnew, hcollectedNew.dcCoordinates frankfurt rfl⟩,
    hothers "vote" 499 (Or.inl (by decide))⟩

end DelegationStrategy.Store
