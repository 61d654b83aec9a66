import DelegationStrategy.Store.ChangeTables
import DelegationStrategy.Store.Uptime
import DelegationStrategy.Store.ValidatorsTable

/-!
# The database of the store commands

The tables that closing an epoch reads and writes, with the two small tables
`cluster_info` and `epochs`. `epochs` is also the marker of closed epochs:
`list_open_epochs` (`store/src/ls_open_epochs.rs`) lists the epochs of `validators`
without a row there.
-/

namespace DelegationStrategy.Store

open DelegationStrategy.Lib DelegationStrategy.Collect

structure ClusterInfoRow where
  epoch : Nat
  transactionCount : Nat
  createdAt : Timestamp
  deriving DecidableEq, Repr

structure EpochsRow where
  epoch : Nat
  startAt : Timestamp
  endAt : Timestamp
  transactionCount : Nat
  supply : Nat
  inflation : Rat
  inflationTaper : Rat
  deriving DecidableEq, Repr

structure Database where
  validators : List ValidatorsRow
  epochs : List EpochsRow
  commissions : List CommissionRow
  uptimes : List UptimeRow
  clusterInfo : List ClusterInfoRow
  deriving DecidableEq, Repr

/-- The epoch has a row in `epochs`. -/
def Database.Recorded (db : Database) (epoch : Nat) : Prop :=
  epoch ∈ db.epochs.map EpochsRow.epoch

instance (db : Database) (epoch : Nat) : Decidable (db.Recorded epoch) :=
  inferInstanceAs (Decidable (_ ∈ _))

/-- `SELECT DISTINCT epoch FROM validators WHERE epoch NOT IN (SELECT … FROM epochs)`. -/
def listOpenEpochs (db : Database) : List Nat :=
  ((db.validators.map ValidatorsRow.epoch).filter fun epoch => ¬ db.Recorded epoch).dedup

theorem mem_listOpenEpochs {db : Database} {epoch : Nat} :
    epoch ∈ listOpenEpochs db ↔
      (∃ row ∈ db.validators, row.epoch = epoch) ∧ ¬ db.Recorded epoch := by
  unfold listOpenEpochs
  rw [List.mem_dedup, List.mem_filter, List.mem_map, decide_eq_true_iff]

/-- A statement on `validators`. -/
def onValidators (statement : Statement DbError (List ValidatorsRow)) :
    Statement DbError Database := fun db =>
  (statement db.validators).map fun validators => { db with validators := validators }

theorem onValidators_eq_ok {statement : Statement DbError (List ValidatorsRow)}
    {db db' : Database} : onValidators statement db = .ok db' ↔
      ∃ validators, statement db.validators = .ok validators ∧
        db' = { db with validators := validators } :=
  map_eq_ok

/-- Statements on `validators` are a command on `validators`. -/
theorem commitAll_onValidators (statements : List (Statement DbError (List ValidatorsRow)))
    (db : Database) :
    commitAll (statements.map onValidators) db =
      (commitAll statements db.validators).map fun validators =>
        { db with validators := validators } := by
  induction statements generalizing db with
  | nil => rfl
  | cons statement statements ih =>
    rw [List.map_cons]
    unfold commitAll onValidators
    cases hs : statement db.validators with
    | error e => rfl
    | ok validators => exact ih { db with validators := validators }

end DelegationStrategy.Store
