import DelegationStrategy.Collect.Snapshot
import DelegationStrategy.Lib.Autocommit
import DelegationStrategy.Lib.Sql

/-!
# The `validators` table

The rows and columns of `validators` after all migrations, and how they are read
and built as SQL values. `epoch`, the stakes and the counters are `NUMERIC` columns
that only ever hold a `u64`.
-/

namespace DelegationStrategy.Store

open DelegationStrategy.Lib DelegationStrategy.Collect

structure ValidatorsRow where
  identity : String
  voteAccount : String
  epoch : Nat
  infoName : Option String
  infoUrl : Option String
  infoKeybase : Option String
  nodeIp : Option String
  dcCoordinatesLat : Option Rat
  dcCoordinatesLon : Option Rat
  dcContinent : Option String
  dcCountryIso : Option String
  dcCountry : Option String
  dcCity : Option String
  dcAsn : Option Int
  dcAso : Option String
  commissionMaxObserved : Option Int
  commissionMinObserved : Option Int
  commissionAdvertised : Option Int
  commissionEffective : Option Int
  version : Option String
  mndeVotes : Option Rat
  activatedStake : Nat
  marinadeStake : Nat
  marinadeNativeStake : Nat
  superminority : Bool
  stakeToBecomeSuperminority : Nat
  credits : Nat
  leaderSlots : Nat
  blocksProduced : Nat
  skipRate : Rat
  uptimePct : Option Rat
  uptime : Option Rat
  downtime : Option Rat
  updatedAt : Timestamp
  foundationStake : Nat
  selfStake : Nat
  institutionalStake : Nat
  infoIconUrl : Option String
  deriving DecidableEq, Repr

inductive ValidatorsColumn where
  | identity
  | voteAccount
  | epoch
  | infoName
  | infoUrl
  | infoKeybase
  | nodeIp
  | dcCoordinatesLat
  | dcCoordinatesLon
  | dcContinent
  | dcCountryIso
  | dcCountry
  | dcCity
  | dcAsn
  | dcAso
  | commissionMaxObserved
  | commissionMinObserved
  | commissionAdvertised
  | commissionEffective
  | version
  | mndeVotes
  | activatedStake
  | marinadeStake
  | marinadeNativeStake
  | superminority
  | stakeToBecomeSuperminority
  | credits
  | leaderSlots
  | blocksProduced
  | skipRate
  | uptimePct
  | uptime
  | downtime
  | updatedAt
  | foundationStake
  | selfStake
  | institutionalStake
  | infoIconUrl
  deriving DecidableEq, Repr

namespace ValidatorsRow

open ValidatorsColumn

/-- The types of the columns. -/
def columnType : ValidatorsColumn → SqlType
  | .epoch | .mndeVotes | .activatedStake | .marinadeStake | .marinadeNativeStake
  | .stakeToBecomeSuperminority | .credits | .leaderSlots | .blocksProduced | .uptime
  | .downtime | .foundationStake | .selfStake | .institutionalStake => .numeric
  | .dcAsn | .commissionMaxObserved | .commissionMinObserved | .commissionAdvertised
  | .commissionEffective => .integer
  | .dcCoordinatesLat | .dcCoordinatesLon | .skipRate | .uptimePct => .doublePrecision
  | .superminority => .bool
  | .updatedAt => .timestamp
  | _ => .text

/-- The value of a column. -/
def get (row : ValidatorsRow) : ValidatorsColumn → SqlValue
  | .identity => SqlCodec.toSql .text row.identity
  | .voteAccount => SqlCodec.toSql .text row.voteAccount
  | .epoch => SqlCodec.toSql .numeric row.epoch
  | .infoName => SqlCodec.toSql .text row.infoName
  | .infoUrl => SqlCodec.toSql .text row.infoUrl
  | .infoKeybase => SqlCodec.toSql .text row.infoKeybase
  | .nodeIp => SqlCodec.toSql .text row.nodeIp
  | .dcCoordinatesLat => SqlCodec.toSql .doublePrecision row.dcCoordinatesLat
  | .dcCoordinatesLon => SqlCodec.toSql .doublePrecision row.dcCoordinatesLon
  | .dcContinent => SqlCodec.toSql .text row.dcContinent
  | .dcCountryIso => SqlCodec.toSql .text row.dcCountryIso
  | .dcCountry => SqlCodec.toSql .text row.dcCountry
  | .dcCity => SqlCodec.toSql .text row.dcCity
  | .dcAsn => SqlCodec.toSql .integer row.dcAsn
  | .dcAso => SqlCodec.toSql .text row.dcAso
  | .commissionMaxObserved => SqlCodec.toSql .integer row.commissionMaxObserved
  | .commissionMinObserved => SqlCodec.toSql .integer row.commissionMinObserved
  | .commissionAdvertised => SqlCodec.toSql .integer row.commissionAdvertised
  | .commissionEffective => SqlCodec.toSql .integer row.commissionEffective
  | .version => SqlCodec.toSql .text row.version
  | .mndeVotes => SqlCodec.toSql .numeric row.mndeVotes
  | .activatedStake => SqlCodec.toSql .numeric row.activatedStake
  | .marinadeStake => SqlCodec.toSql .numeric row.marinadeStake
  | .marinadeNativeStake => SqlCodec.toSql .numeric row.marinadeNativeStake
  | .superminority => SqlCodec.toSql .bool row.superminority
  | .stakeToBecomeSuperminority => SqlCodec.toSql .numeric row.stakeToBecomeSuperminority
  | .credits => SqlCodec.toSql .numeric row.credits
  | .leaderSlots => SqlCodec.toSql .numeric row.leaderSlots
  | .blocksProduced => SqlCodec.toSql .numeric row.blocksProduced
  | .skipRate => SqlCodec.toSql .doublePrecision row.skipRate
  | .uptimePct => SqlCodec.toSql .doublePrecision row.uptimePct
  | .uptime => SqlCodec.toSql .numeric row.uptime
  | .downtime => SqlCodec.toSql .numeric row.downtime
  | .updatedAt => SqlCodec.toSql .timestamp row.updatedAt
  | .foundationStake => SqlCodec.toSql .numeric row.foundationStake
  | .selfStake => SqlCodec.toSql .numeric row.selfStake
  | .institutionalStake => SqlCodec.toSql .numeric row.institutionalStake
  | .infoIconUrl => SqlCodec.toSql .text row.infoIconUrl

/-- The row with the given values. -/
def build (values : ValidatorsColumn → SqlValue) : Option ValidatorsRow := do
  let identity ← SqlCodec.ofSql .text (values .identity)
  let voteAccount ← SqlCodec.ofSql .text (values .voteAccount)
  let epoch ← SqlCodec.ofSql .numeric (values .epoch)
  let infoName ← SqlCodec.ofSql .text (values .infoName)
  let infoUrl ← SqlCodec.ofSql .text (values .infoUrl)
  let infoKeybase ← SqlCodec.ofSql .text (values .infoKeybase)
  let nodeIp ← SqlCodec.ofSql .text (values .nodeIp)
  let dcCoordinatesLat ← SqlCodec.ofSql .doublePrecision (values .dcCoordinatesLat)
  let dcCoordinatesLon ← SqlCodec.ofSql .doublePrecision (values .dcCoordinatesLon)
  let dcContinent ← SqlCodec.ofSql .text (values .dcContinent)
  let dcCountryIso ← SqlCodec.ofSql .text (values .dcCountryIso)
  let dcCountry ← SqlCodec.ofSql .text (values .dcCountry)
  let dcCity ← SqlCodec.ofSql .text (values .dcCity)
  let dcAsn ← SqlCodec.ofSql .integer (values .dcAsn)
  let dcAso ← SqlCodec.ofSql .text (values .dcAso)
  let commissionMaxObserved ← SqlCodec.ofSql .integer (values .commissionMaxObserved)
  let commissionMinObserved ← SqlCodec.ofSql .integer (values .commissionMinObserved)
  let commissionAdvertised ← SqlCodec.ofSql .integer (values .commissionAdvertised)
  let commissionEffective ← SqlCodec.ofSql .integer (values .commissionEffective)
  let version ← SqlCodec.ofSql .text (values .version)
  let mndeVotes ← SqlCodec.ofSql .numeric (values .mndeVotes)
  let activatedStake ← SqlCodec.ofSql .numeric (values .activatedStake)
  let marinadeStake ← SqlCodec.ofSql .numeric (values .marinadeStake)
  let marinadeNativeStake ← SqlCodec.ofSql .numeric (values .marinadeNativeStake)
  let superminority ← SqlCodec.ofSql .bool (values .superminority)
  let stakeToBecomeSuperminority ← SqlCodec.ofSql .numeric (values .stakeToBecomeSuperminority)
  let credits ← SqlCodec.ofSql .numeric (values .credits)
  let leaderSlots ← SqlCodec.ofSql .numeric (values .leaderSlots)
  let blocksProduced ← SqlCodec.ofSql .numeric (values .blocksProduced)
  let skipRate ← SqlCodec.ofSql .doublePrecision (values .skipRate)
  let uptimePct ← SqlCodec.ofSql .doublePrecision (values .uptimePct)
  let uptime ← SqlCodec.ofSql .numeric (values .uptime)
  let downtime ← SqlCodec.ofSql .numeric (values .downtime)
  let updatedAt ← SqlCodec.ofSql .timestamp (values .updatedAt)
  let foundationStake ← SqlCodec.ofSql .numeric (values .foundationStake)
  let selfStake ← SqlCodec.ofSql .numeric (values .selfStake)
  let institutionalStake ← SqlCodec.ofSql .numeric (values .institutionalStake)
  let infoIconUrl ← SqlCodec.ofSql .text (values .infoIconUrl)
  some
    { identity := identity
      voteAccount := voteAccount
      epoch := epoch
      infoName := infoName
      infoUrl := infoUrl
      infoKeybase := infoKeybase
      nodeIp := nodeIp
      dcCoordinatesLat := dcCoordinatesLat
      dcCoordinatesLon := dcCoordinatesLon
      dcContinent := dcContinent
      dcCountryIso := dcCountryIso
      dcCountry := dcCountry
      dcCity := dcCity
      dcAsn := dcAsn
      dcAso := dcAso
      commissionMaxObserved := commissionMaxObserved
      commissionMinObserved := commissionMinObserved
      commissionAdvertised := commissionAdvertised
      commissionEffective := commissionEffective
      version := version
      mndeVotes := mndeVotes
      activatedStake := activatedStake
      marinadeStake := marinadeStake
      marinadeNativeStake := marinadeNativeStake
      superminority := superminority
      stakeToBecomeSuperminority := stakeToBecomeSuperminority
      credits := credits
      leaderSlots := leaderSlots
      blocksProduced := blocksProduced
      skipRate := skipRate
      uptimePct := uptimePct
      uptime := uptime
      downtime := downtime
      updatedAt := updatedAt
      foundationStake := foundationStake
      selfStake := selfStake
      institutionalStake := institutionalStake
      infoIconUrl := infoIconUrl }

/-- The `DEFAULT`s of the columns. -/
def columnDefault : ValidatorsColumn → SqlValue
  | .foundationStake | .selfStake | .institutionalStake => .numeric 0
  | _ => .null

theorem build_get (row : ValidatorsRow) : build row.get = some row := by
  unfold build get
  simp only [SqlCodec.ofSql_toSql, Option.bind_eq_bind, Option.bind_some]

instance : Relation ValidatorsRow ValidatorsColumn where
  type := columnType
  default := columnDefault
  get := get
  build := build
  primaryKey := [.voteAccount, .epoch]
  build_get := build_get

end ValidatorsRow

/-! ## Keys -/

/-- `PRIMARY KEY (vote_account, epoch)`. -/
def PrimaryKey (table : List ValidatorsRow) : Prop :=
  (table.map fun row => (row.voteAccount, row.epoch)).Nodup

theorem nodup_keyOf {table : List ValidatorsRow} :
    (table.map keyOf).Nodup ↔ PrimaryKey table := by
  have hkey : table.map keyOf =
      (table.map fun row => (row.voteAccount, row.epoch)).map fun k =>
        [SqlCodec.toSql .text k.1, SqlCodec.toSql .numeric k.2] := by
    rw [List.map_map]
    rfl
  rw [hkey]
  refine List.nodup_map_iff fun k k' h => ?_
  obtain ⟨htext, hnumeric⟩ := List.cons_eq_cons.mp h
  refine Prod.ext (SqlValue.text.inj htext) ?_
  exact Rat.natCast_injective (SqlValue.numeric.inj (List.cons_eq_cons.mp hnumeric).1)

/-- The rows of a validator in an epoch. -/
def rowsAt (table : List ValidatorsRow) (voteAccount : String) (epoch : Nat) :
    List ValidatorsRow :=
  table.filter fun row => row.voteAccount = voteAccount ∧ row.epoch = epoch

theorem rowsAt_append (table table' : List ValidatorsRow) (voteAccount : String)
    (epoch : Nat) :
    rowsAt (table ++ table') voteAccount epoch =
      rowsAt table voteAccount epoch ++ rowsAt table' voteAccount epoch :=
  List.filter_append ..

/-- What changes no key changes every row in its place. -/
theorem rowsAt_map {f : ValidatorsRow → ValidatorsRow}
    (hf : ∀ row, (f row).voteAccount = row.voteAccount ∧ (f row).epoch = row.epoch)
    (table : List ValidatorsRow) (voteAccount : String) (epoch : Nat) :
    rowsAt (table.map f) voteAccount epoch = (rowsAt table voteAccount epoch).map f := by
  unfold rowsAt
  rw [List.filter_map]
  refine congrArg (List.map f) (List.filter_congr fun row _ => ?_)
  show decide ((f row).voteAccount = voteAccount ∧ (f row).epoch = epoch) = _
  rw [(hf row).1, (hf row).2]

/-- The primary key gives every row its own place. -/
theorem rowsAt_eq_singleton {table : List ValidatorsRow} (hkey : PrimaryKey table)
    {row : ValidatorsRow} (hrow : row ∈ table) :
    rowsAt table row.voteAccount row.epoch = [row] := by
  refine filter_eq_singleton ?_ hrow ⟨rfl, rfl⟩
  refine (List.pairwise_map.mp hkey).imp fun hne h => hne ?_
  exact Prod.ext (h.1.1.trans h.2.1.symm) (h.1.2.trans h.2.2.symm)

theorem PrimaryKey.eq_of_key {table : List ValidatorsRow} (hkey : PrimaryKey table)
    {row row' : ValidatorsRow} (hrow : row ∈ table) (hrow' : row' ∈ table)
    (hvote : row.voteAccount = row'.voteAccount) (hepoch : row.epoch = row'.epoch) :
    row = row' :=
  List.inj_on_of_nodup_map hkey hrow hrow' (Prod.ext hvote hepoch)

/-! ## Updates of the rows of an epoch

The store commands update the rows of one epoch from records of validators, chunk by
chunk. `editRow` is the row after such a statement. -/

/-- `DEFAULT_CHUNK_SIZE` of `store_validators` and of `close_epoch`. -/
def defaultChunkSize : Nat := 500

section Edit

variable {α : Type} {q : UpdateQuery ValidatorsColumn} {params : α → List Param}
  {epoch : Nat} {record : String → Option α} {edit : α → ValidatorsRow → ValidatorsRow}
  {table : List ValidatorsRow}

/-- `WHERE validators.vote_account = u.vote_account AND validators.epoch = u.epoch`. -/
theorem selects_iff {u : ValidatorsColumn → SqlValue} {voteAccount : String}
    (hwhere : q.whereCondition = [.voteAccount, .epoch])
    (hvote : u .voteAccount = .text voteAccount) (hepoch : u .epoch = .numeric epoch)
    {row : ValidatorsRow} :
    q.Selects u row ↔ row.voteAccount = voteAccount ∧ row.epoch = epoch := by
  unfold UpdateQuery.Selects
  rw [hwhere]
  constructor
  · intro h
    have hvote' := (h .voteAccount (by decide)).2
    have hepoch' := (h .epoch (by decide)).2
    rw [hvote] at hvote'
    rw [hepoch] at hepoch'
    exact ⟨SqlValue.text.inj hvote', Rat.natCast_injective (SqlValue.numeric.inj hepoch')⟩
  · rintro ⟨hv, he⟩ c hc
    obtain rfl | rfl : c = .voteAccount ∨ c = .epoch := by simpa using hc
    · rw [hvote, ← hv]
      exact ⟨nofun, rfl⟩
    · rw [hepoch, ← he]
      exact ⟨nofun, rfl⟩

/-- A row after an `UPDATE` with the records of a chunk of vote accounts. -/
def editRow (epoch : Nat) (record : String → Option α)
    (edit : α → ValidatorsRow → ValidatorsRow) (chunk : List String) (row : ValidatorsRow) :
    ValidatorsRow :=
  if row.epoch = epoch ∧ row.voteAccount ∈ chunk then
    match record row.voteAccount with
    | some v => edit v row
    | none => row
  else row

/-- A row is as it was, or edited by the record of its validator. -/
theorem editRow_cases (chunk : List String) (row : ValidatorsRow) :
    editRow epoch record edit chunk row = row ∨
      ∃ v, record row.voteAccount = some v ∧ row.voteAccount ∈ chunk ∧ row.epoch = epoch ∧
        editRow epoch record edit chunk row = edit v row := by
  unfold editRow
  split
  · rename_i hsel
    cases hget : record row.voteAccount with
    | none => exact Or.inl rfl
    | some v => exact Or.inr ⟨v, rfl, hsel.2, hsel.1, rfl⟩
  · exact Or.inl rfl

/-- The order of the vote accounts makes no difference. -/
theorem editRow_congr {chunk chunk' : List String} (h : ∀ a, a ∈ chunk ↔ a ∈ chunk') :
    editRow epoch record edit chunk = editRow epoch record edit chunk' := by
  funext row
  unfold editRow
  simp only [h]

/-- Which rows are edited depends on the key alone. -/
theorem editRow_of_key {chunk : List String} {row row' : ValidatorsRow}
    (hvote : row'.voteAccount = row.voteAccount) (hepoch : row'.epoch = row.epoch) :
    editRow epoch record edit chunk row' =
      if row.epoch = epoch ∧ row.voteAccount ∈ chunk then
        match record row.voteAccount with
        | some v => edit v row'
        | none => row'
      else row' := by
  unfold editRow
  rw [hvote, hepoch]

/-- The statement `q` edits the row of the epoch of each validator it gets a record of. -/
structure Edits (q : UpdateQuery ValidatorsColumn) (params : α → List Param) (epoch : Nat)
    (record : String → Option α) (edit : α → ValidatorsRow → ValidatorsRow) : Prop where
  assignable : q.Assignable ValidatorsRow
  types : ∀ v, (params v).map Param.type = q.valueTypes
  selects : ∀ voteAccount v (row : ValidatorsRow), record voteAccount = some v →
    (q.Selects (q.tuple ((params v).map Param.value)) row ↔
      row.voteAccount = voteAccount ∧ row.epoch = epoch)
  assigned : ∀ v (row : ValidatorsRow) c, q.assigned (q.tuple ((params v).map Param.value)) row c =
    Relation.get (edit v row) c
  key : ∀ (row : ValidatorsRow) v, record row.voteAccount = some v → row.epoch = epoch →
    (edit v row).voteAccount = row.voteAccount ∧ (edit v row).epoch = row.epoch
  idempotent : ∀ v row, edit v (edit v row) = edit v row

namespace Edits

variable (h : Edits q params epoch record edit)

include h

theorem editRow_key (chunk : List String) (row : ValidatorsRow) :
    (editRow epoch record edit chunk row).voteAccount = row.voteAccount ∧
      (editRow epoch record edit chunk row).epoch = row.epoch := by
  rcases editRow_cases chunk row with hrow | ⟨v, hget, -, hepoch, hrow⟩
  · rw [hrow]
    exact ⟨rfl, rfl⟩
  · rw [hrow]
    exact h.key row v hget hepoch

theorem key_comp (chunk : List String) :
    ((fun row : ValidatorsRow => (row.voteAccount, row.epoch)) ∘
      editRow epoch record edit chunk) = fun row => (row.voteAccount, row.epoch) :=
  funext fun row => Prod.ext (h.editRow_key chunk row).1 (h.editRow_key chunk row).2

theorem primaryKey_edit (chunk : List String) :
    PrimaryKey (table.map (editRow epoch record edit chunk)) ↔ PrimaryKey table := by
  unfold PrimaryKey
  rw [List.map_map, h.key_comp]

/-- **The statement of a chunk** edits the rows of the chunk. -/
theorem executeUpdate_eq_ok {chunk : List String} (hkey : PrimaryKey table)
    (hsize : chunk.length * q.valueTypes.length ≤ maxParams) :
    executeUpdate q ((chunk.filterMap record).map params) table =
      .ok (table.map (editRow epoch record edit chunk)) := by
  refine Lib.executeUpdate_eq_ok h.assignable (fun v _ => h.types v)
    ((Nat.mul_le_mul_right _ (List.length_filterMap_le _ _)).trans hsize)
    (fun row _ => updateRow_eq_ok (fun v hv hsel c => ?_) fun hnone => ?_)
    (nodup_keyOf.mpr ((h.primaryKey_edit chunk).mpr hkey))
  · -- the row is selected by the record of its vote account
    obtain ⟨voteAccount, hmem, hget⟩ := List.mem_filterMap.mp hv
    obtain ⟨hvote, hepoch⟩ := (h.selects voteAccount v row hget).mp hsel
    subst hvote
    unfold editRow
    rw [if_pos ⟨hepoch, hmem⟩, hget]
    exact h.assigned v row c
  · unfold editRow
    split
    · rename_i hsel
      cases hget : record row.voteAccount with
      | none => rfl
      | some v =>
        exact absurd ((h.selects _ v row hget).mpr ⟨rfl, hsel.1⟩)
          (hnone v (List.mem_filterMap.mpr ⟨_, hsel.2, hget⟩))
    · rfl

/-- Chunks with a vote account in common do no harm. -/
theorem editRow_append (chunk rest : List String) (row : ValidatorsRow) :
    editRow epoch record edit rest (editRow epoch record edit chunk row) =
      editRow epoch record edit (chunk ++ rest) row := by
  obtain ⟨hvote, hepoch⟩ := h.editRow_key chunk row
  rw [editRow_of_key hvote hepoch]
  unfold editRow
  simp only [List.mem_append]
  by_cases he : row.epoch = epoch <;> by_cases hc : row.voteAccount ∈ chunk <;>
    by_cases hr : row.voteAccount ∈ rest <;> cases record row.voteAccount <;>
    simp [he, hc, hr, h.idempotent]

/-- **The statements of all chunks** edit the rows of all chunks. -/
theorem commitAll_eq_ok (chunkList : List (List String)) (hkey : PrimaryKey table)
    (hsize : ∀ chunk ∈ chunkList, chunk.length * q.valueTypes.length ≤ maxParams) :
    commitAll (chunkList.map fun chunk =>
        executeUpdate q ((chunk.filterMap record).map params)) table =
      .ok (table.map (editRow epoch record edit chunkList.flatten)) := by
  induction chunkList generalizing table with
  | nil =>
    have hid : editRow epoch record edit [] = id :=
      funext fun row => if_neg fun h => (nomatch h.2)
    show Except.ok table = .ok (table.map (editRow epoch record edit []))
    rw [hid, List.map_id]
  | cons chunk chunkList ih =>
    refine commitAll_cons.mpr
      ⟨_, h.executeUpdate_eq_ok hkey (hsize chunk List.mem_cons_self), ?_⟩
    rw [ih ((h.primaryKey_edit chunk).mpr hkey)
      fun c hc => hsize c (List.mem_cons_of_mem _ hc), List.map_map, List.flatten_cons]
    exact congrArg Except.ok (List.map_congr_left fun row _ => h.editRow_append ..)

end Edits

end Edit

end DelegationStrategy.Store
