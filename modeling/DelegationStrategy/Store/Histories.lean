import DelegationStrategy.Lib.FanOut
import DelegationStrategy.Store.Scoring
import DelegationStrategy.Store.UnstakeHints
import DelegationStrategy.Store.ValidatorsQuery

/-!
# The histories of the cache

`load_uptimes`, `load_versions` and `load_commissions` (`store/src/utils.rs`) read the rows of
the latest epochs, counted from `cluster_info`, and group them by vote account. The effective
commissions of `validators` are commissions too, at the last slot of their epoch.

- `map_historiesOf`: a history has the rows of its vote account.
- `mem_uptimesQuery`, `mem_versionsQuery`, `mem_commissionsQuery`: the three queries select
  the epochs that `load_validators` selects (`displayed_iff`).
-/

namespace DelegationStrategy.Store

open DelegationStrategy.Lib DelegationStrategy.Collect

/-! ## Loading -/

/-- `epoch > cluster.last_epoch - $1`; the comparison with `NULL` selects nothing. -/
def inLastEpochs (db : Database) (epochs epoch : Nat) : Bool :=
  (db.clusterInfo.map ClusterInfoRow.epoch).max?.any fun lastEpoch : Nat =>
    decide ((lastEpoch : Int) - epochs < epoch)

/-- The records of the rows by vote account; `none` if a conversion fails. -/
def historiesOf {ρ α : Type} (voteAccount : ρ → String) (record : ρ → Option α)
    (rows : List ρ) : Option (Dict String (List α)) :=
  rows.foldlM (fun records row => (record row).map (records.push (voteAccount row))) Dict.empty

/-- `LEFT JOIN epochs ON table.epoch = epochs.epoch`. -/
def joinEpochs {ρ : Type} (epoch : ρ → Nat) (rows : List ρ) (epochs : List EpochsRow) :
    List (ρ × Option EpochsRow) :=
  leftJoin (fun row epochsRow => decide (epochsRow.epoch = epoch row)) rows epochs

/-- What `Utc::now()` returns for the bounds of an epoch that is not in `epochs`. -/
structure EpochBounds where
  endAt : Timestamp
  startAt : Timestamp

structure UptimeRecord where
  epoch : Nat
  epochStartAt : Timestamp
  epochEndAt : Timestamp
  status : Status
  startAt : Timestamp
  endAt : Timestamp
  deriving DecidableEq, Repr

/-- The query of `load_uptimes`. -/
def uptimesQuery (scan : Scan) (epochs : Nat) (db : Database) :
    List (UptimeRow × Option EpochsRow) :=
  (joinEpochs UptimeRow.epoch (scan.order db.uptimes) db.epochs).filter fun row =>
    inLastEpochs db epochs row.1.epoch

def uptimeRecord (now : UptimeRow × Option EpochsRow → EpochBounds)
    (row : UptimeRow × Option EpochsRow) : Option UptimeRecord := do
  let epoch ← decimalToU64 row.1.epoch
  some {
    epoch := epoch
    epochEndAt := (row.2.map EpochsRow.endAt).getD (now row).endAt
    epochStartAt := (row.2.map EpochsRow.startAt).getD (now row).startAt
    status := row.1.status
    startAt := row.1.startAt
    endAt := row.1.endAt }

/-- `load_uptimes`. -/
def loadUptimes (scan : Scan) (now : UptimeRow × Option EpochsRow → EpochBounds) (epochs : Nat)
    (db : Database) : Option (Dict String (List UptimeRecord)) :=
  historiesOf (fun row => row.1.voteAccount) (uptimeRecord now) (uptimesQuery scan epochs db)

structure VersionRecord where
  epoch : Nat
  version : Option String
  createdAt : Timestamp
  deriving DecidableEq, Repr

/-- The query of `load_versions`. -/
def versionsQuery (scan : Scan) (epochs : Nat) (db : Database) (versions : List VersionRow) :
    List VersionRow :=
  (scan.order versions).filter fun row => inLastEpochs db epochs row.epoch

def versionRecord (row : VersionRow) : Option VersionRecord := do
  let epoch ← decimalToU64 row.epoch
  some { epoch := epoch, version := row.value, createdAt := row.createdAt }

/-- `load_versions`. -/
def loadVersions (scan : Scan) (epochs : Nat) (db : Database) (versions : List VersionRow) :
    Option (Dict String (List VersionRecord)) :=
  historiesOf ChangeRow.voteAccount versionRecord (versionsQuery scan epochs db versions)

/-- A row of the `UNION`. -/
structure UnionRow where
  voteAccount : String
  commission : Int
  epoch : Nat
  epochStart : Option Timestamp
  epochEnd : Option Timestamp
  epochSlot : Nat
  createdAt : Timestamp
  deriving DecidableEq, Repr

/-- The first `SELECT`. -/
def recordedUnionRow (row : CommissionRow × Option EpochsRow) : UnionRow where
  voteAccount := row.1.voteAccount
  commission := row.1.value
  epoch := row.1.epoch
  epochStart := row.2.map EpochsRow.startAt
  epochEnd := row.2.map EpochsRow.endAt
  epochSlot := row.1.epochSlot
  createdAt := row.1.createdAt

/-- The second `SELECT`. -/
def effectiveUnionRow (row : ValidatorsRow × Option EpochsRow) : Option UnionRow :=
  row.1.commissionEffective.map fun commission => {
    voteAccount := row.1.voteAccount
    commission := commission
    epoch := row.1.epoch
    epochStart := row.2.map EpochsRow.startAt
    epochEnd := row.2.map EpochsRow.endAt
    epochSlot := 432000
    createdAt := row.1.updatedAt }

/-- The query of `load_commissions`; `UNION` drops duplicates. -/
def commissionsQuery (scan : Scan) (epochs : Nat) (db : Database) : List UnionRow :=
  let recorded := (joinEpochs ChangeRow.epoch db.commissions db.epochs).filter fun row =>
    inLastEpochs db epochs row.1.epoch
  let effective := (joinEpochs ValidatorsRow.epoch db.validators db.epochs).filter fun row =>
    inLastEpochs db epochs row.1.epoch
  scan.order (recorded.map recordedUnionRow ++ effective.filterMap effectiveUnionRow).dedup

structure CommissionRecord where
  epoch : Nat
  epochStartAt : Timestamp
  epochEndAt : Timestamp
  epochSlot : Nat
  commission : UInt8
  createdAt : Timestamp
  deriving DecidableEq, Repr

def commissionRecord (now : UnionRow → EpochBounds) (row : UnionRow) :
    Option CommissionRecord := do
  let epoch ← decimalToU64 row.epoch
  let epochSlot ← decimalToU64 row.epochSlot
  let commission ← tryIntoU8 row.commission
  some {
    epoch := epoch
    epochEndAt := row.epochEnd.getD (now row).endAt
    epochStartAt := row.epochStart.getD (now row).startAt
    epochSlot := epochSlot
    commission := commission
    createdAt := row.createdAt }

/-- `load_commissions`. -/
def loadCommissions (scan : Scan) (now : UnionRow → EpochBounds) (epochs : Nat)
    (db : Database) : Option (Dict String (List CommissionRecord)) :=
  historiesOf UnionRow.voteAccount (commissionRecord now) (commissionsQuery scan epochs db)

/-! ## Histories -/

/-- **A history** has what the rows of its vote account have, in their order. -/
theorem map_historiesOf {ρ α β : Type} {voteAccount : ρ → String} {record : ρ → Option α}
    {rows : List ρ} {records : Dict String (List α)} {view : α → β} {view' : ρ → β}
    (hview : ∀ row a, record row = some a → view a = view' row)
    (h : historiesOf voteAccount record rows = some records) (k : String) :
    ((records.get? k).getD []).map view =
      (rows.filter fun row => voteAccount row = k).map view' := by
  obtain ⟨hall, hgroups⟩ := foldlM_push h
  rw [hgroups k]
  show (([] : List α) ++ _).map view = _
  rw [List.nil_append]
  clear h hgroups
  induction rows with
  | nil => rfl
  | cons row rows ih =>
    have hrest := ih fun r hr => hall r (List.mem_cons_of_mem _ hr)
    by_cases hk : voteAccount row = k
    · obtain ⟨a, ha⟩ := Option.isSome_iff_exists.mp (hall row List.mem_cons_self)
      rw [List.filter_cons_of_pos (by simpa using hk), List.filterMap_cons_some ha,
        List.map_cons, List.map_cons, hrest, hview row a ha]
    · rw [List.filter_cons_of_neg (by simpa using hk), hrest]

/-! ## The selected epochs -/

section Selected

variable {scan : Scan} {epochs : Nat} {db : Database}

/-- `load_validators` compares as the other loaders do. -/
theorem displayed_iff {row : ValidatorsRow} :
    Displayed db epochs row ↔ inLastEpochs db epochs row.epoch := by
  unfold Displayed inLastEpochs
  cases (db.clusterInfo.map ClusterInfoRow.epoch).max? with
  | none => simp
  | some lastEpoch =>
    simp only [Option.some.injEq, exists_eq_left', Option.any_some, decide_eq_true_eq]
    omega

theorem mem_uptimesQuery {row : UptimeRow} :
    row ∈ (uptimesQuery scan epochs db).map Prod.fst ↔
      row ∈ db.uptimes ∧ inLastEpochs db epochs row.epoch := by
  unfold uptimesQuery joinEpochs
  rw [filter_leftJoin _ fun row : UptimeRow => inLastEpochs db epochs row.epoch,
    mem_map_fst_leftJoin, List.mem_filter, scan.mem_order]

theorem mem_versionsQuery {versions : List VersionRow} {row : VersionRow} :
    row ∈ versionsQuery scan epochs db versions ↔
      row ∈ versions ∧ inLastEpochs db epochs row.epoch := by
  unfold versionsQuery
  rw [List.mem_filter, scan.mem_order]

theorem mem_commissionsQuery {row : UnionRow} :
    row ∈ commissionsQuery scan epochs db ↔
      (∃ joined ∈ joinEpochs ChangeRow.epoch db.commissions db.epochs,
        inLastEpochs db epochs joined.1.epoch ∧ recordedUnionRow joined = row) ∨
      (∃ joined ∈ joinEpochs ValidatorsRow.epoch db.validators db.epochs,
        inLastEpochs db epochs joined.1.epoch ∧ effectiveUnionRow joined = some row) := by
  unfold commissionsQuery
  rw [scan.mem_order, List.mem_dedup, List.mem_append, List.mem_map, List.mem_filterMap]
  simp only [List.mem_filter, and_assoc]

end Selected

end DelegationStrategy.Store
