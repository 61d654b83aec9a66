import DelegationStrategy.Lib.Extremes
import DelegationStrategy.Lib.Groups
import DelegationStrategy.Store.ChangeTables
import DelegationStrategy.Store.Uptime

/-!
# The migration to vote accounts

`migrations/0004-vote-account-data.sql` adds the column `vote_account` to the tables
`versions`, `uptimes` and `commissions`, whose rows had an identity only, and sets it from
`validators`. The subquery for the epoch groups by identity but has a `LIMIT 1`, so the
statement joins all rows with the validators of a single epoch, the latest one of any
identity (`migrateTable_cases`).

- `keepsHistory_iff`: the rows get the vote accounts of their identities exactly if these
  were seen, with the same vote accounts, in the latest epochs of all identities;
- `notMem_skippedVoteAccounts_of_lost`: for the store commands the others are new validators.
-/

namespace DelegationStrategy.Store

open DelegationStrategy.Lib DelegationStrategy.Collect

/-! ## Before -/

/-- The columns of `validators` that the migration reads. -/
structure IdentityEpochRow where
  identity : String
  voteAccount : String
  epoch : Nat
  deriving DecidableEq, Repr

/-- The columns of `versions` and `commissions` besides the validator. -/
structure ChangeColumns (β : Type) where
  /-- The column `version` or `commission`. -/
  value : β
  epochSlot : Nat
  epoch : Nat
  createdAt : Timestamp
  deriving DecidableEq, Repr

/-- The columns of `uptimes` besides the validator. -/
structure UptimeColumns where
  id : Nat
  status : Status
  epoch : Nat
  startAt : Timestamp
  endAt : Timestamp
  deriving DecidableEq, Repr

/-- A row of `versions`, `uptimes` or `commissions`. -/
structure IdentityRow (β : Type) where
  identity : String
  columns : β
  deriving DecidableEq, Repr

structure TablesByIdentity where
  validators : List IdentityEpochRow
  /-- `PRIMARY KEY(identity, epoch)` -/
  primaryKey : (validators.map fun row => (row.identity, row.epoch)).Nodup
  versions : List (IdentityRow (ChangeColumns (Option String)))
  uptimes : List (IdentityRow UptimeColumns)
  commissions : List (IdentityRow (ChangeColumns Int))

/-- The identities of all rows of history. -/
def TablesByIdentity.historyIdentities (before : TablesByIdentity) : List String :=
  before.versions.map IdentityRow.identity ++ before.uptimes.map IdentityRow.identity ++
    before.commissions.map IdentityRow.identity

/-! ## The migration -/

/-- A row with both columns; `ι` is the type of `identity`. -/
structure HistoryRow (ι β : Type) where
  identity : ι
  voteAccount : String
  columns : β
  deriving DecidableEq, Repr

section Migration

variable {β : Type} (scan : Scan) (validators : List IdentityEpochRow)

/-- `SELECT MAX(epoch) FROM validators GROUP BY identity LIMIT 1`. -/
def limitedEpochs : List Nat :=
  (scan.order (groupMax IdentityEpochRow.identity IdentityEpochRow.epoch validators)).take 1

/-- `SELECT identity, vote_account FROM validators WHERE epoch in (…)`. -/
def joinedValidators : List IdentityEpochRow :=
  validators.filter fun row => row.epoch ∈ limitedEpochs scan validators

/-- `ADD COLUMN vote_account TEXT NOT NULL default ''`. -/
def IdentityRow.addVoteAccount (row : IdentityRow β) : HistoryRow String β :=
  ⟨row.identity, "", row.columns⟩

/-- `SET vote_account=validator.vote_account`. -/
def HistoryRow.setVoteAccount {ι : Type} (validator : IdentityEpochRow) (row : HistoryRow ι β) :
    HistoryRow ι β :=
  { row with voteAccount := validator.voteAccount }

/-- `ALTER COLUMN identity DROP NOT NULL`. -/
def HistoryRow.dropNotNull (row : HistoryRow String β) : HistoryRow (Option String) β :=
  ⟨some row.identity, row.voteAccount, row.columns⟩

/-- The three statements for a table. -/
def migrateTable (rows : List (IdentityRow β)) : List (HistoryRow (Option String) β) :=
  (updateFrom scan (fun row validator => decide (row.identity = validator.identity))
    HistoryRow.setVoteAccount (rows.map IdentityRow.addVoteAccount)
    (joinedValidators scan validators)).map HistoryRow.dropNotNull

end Migration

structure TablesByVoteAccount where
  validators : List IdentityEpochRow
  /-- `validators` has the `PRIMARY KEY (vote_account, epoch)`. -/
  hasPrimaryKey : Bool
  primaryKey : hasPrimaryKey → (validators.map fun row => (row.voteAccount, row.epoch)).Nodup
  versions : List (HistoryRow (Option String) (ChangeColumns (Option String)))
  uptimes : List (HistoryRow (Option String) UptimeColumns)
  commissions : List (HistoryRow (Option String) (ChangeColumns Int))

/-- The migration. If the rows of `validators` do not allow the new primary key, then the last
statement fails, but `psql` has committed the others. -/
def migrate (versionsScan uptimesScan commissionsScan : Scan) (before : TablesByIdentity) :
    TablesByVoteAccount where
  validators := before.validators
  hasPrimaryKey := decide (before.validators.map fun row => (row.voteAccount, row.epoch)).Nodup
  primaryKey := of_decide_eq_true
  versions := migrateTable versionsScan before.validators before.versions
  uptimes := migrateTable uptimesScan before.validators before.uptimes
  commissions := migrateTable commissionsScan before.validators before.commissions

/-! ## What it sets -/

section Tables

variable {β : Type} {scan : Scan} {validators : List IdentityEpochRow}

/-- No row of the identity has a later epoch. -/
def IdentityEpochRow.Latest (validators : List IdentityEpochRow) (row : IdentityEpochRow) : Prop :=
  IsLatest IdentityEpochRow.identity IdentityEpochRow.epoch validators row

/-- The vote account of an identity in an epoch, or else the default. -/
def voteAccountIn (validators : List IdentityEpochRow) (epoch : Nat) (identity : String) :
    String :=
  match validators.find? fun row => row.identity = identity ∧ row.epoch = epoch with
  | some row => row.voteAccount
  | none => ""

/-- A row of history after the migration, if the subquery returned this epoch. -/
def IdentityRow.migrated (validators : List IdentityEpochRow) (epoch : Nat)
    (row : IdentityRow β) : HistoryRow (Option String) β :=
  ⟨some row.identity, voteAccountIn validators epoch row.identity, row.columns⟩

/-- With the primary key there is one such row. -/
theorem voteAccountIn_of_mem
    (hkey : (validators.map fun row => (row.identity, row.epoch)).Nodup)
    {row : IdentityEpochRow} (h : row ∈ validators) :
    voteAccountIn validators row.epoch row.identity = row.voteAccount := by
  unfold voteAccountIn
  cases hfind : validators.find? fun r => r.identity = row.identity ∧ r.epoch = row.epoch with
  | none => exact absurd (decide_eq_true ⟨rfl, rfl⟩) (List.find?_eq_none.mp hfind row h)
  | some r =>
    have hmem := List.mem_of_find?_eq_some hfind
    have hsel : r.identity = row.identity ∧ r.epoch = row.epoch := by
      simpa using List.find?_some hfind
    rw [List.inj_on_of_nodup_map hkey hmem h (Prod.ext hsel.1 hsel.2)]

theorem voteAccountIn_eq_empty {epoch : Nat} {identity : String}
    (h : ∀ row ∈ validators, ¬ (row.identity = identity ∧ row.epoch = epoch)) :
    voteAccountIn validators epoch identity = "" := by
  unfold voteAccountIn
  rw [List.find?_eq_none.mpr fun row hrow hsel => h row hrow (of_decide_eq_true hsel)]

/-- A vote account other than the default is that of a row. -/
theorem voteAccountIn_eq_iff (hkey : (validators.map fun row => (row.identity, row.epoch)).Nodup)
    {epoch : Nat} {identity voteAccount : String} (hne : voteAccount ≠ "") :
    voteAccountIn validators epoch identity = voteAccount ↔
      ∃ row ∈ validators, row.identity = identity ∧ row.epoch = epoch ∧
        row.voteAccount = voteAccount := by
  constructor
  · intro h
    by_contra hno
    refine hne (h.symm.trans (voteAccountIn_eq_empty ?_))
    rintro row hrow ⟨rfl, rfl⟩
    exact hno ⟨row, hrow, rfl, rfl, (voteAccountIn_of_mem hkey hrow).symm.trans h⟩
  · rintro ⟨row, hrow, rfl, rfl, rfl⟩
    exact voteAccountIn_of_mem hkey hrow

/-- With one epoch from the subquery. -/
theorem migrateTable_eq_map (hkey : (validators.map fun row => (row.identity, row.epoch)).Nodup)
    {epoch : Nat} (hepoch : limitedEpochs scan validators = [epoch])
    (rows : List (IdentityRow β)) :
    migrateTable scan validators rows = rows.map (IdentityRow.migrated validators epoch) := by
  have hmem : ∀ v, v ∈ joinedValidators scan validators ↔ v ∈ validators ∧ v.epoch = epoch := by
    intro v
    unfold joinedValidators
    rw [hepoch, List.mem_filter, decide_eq_true_iff, List.mem_singleton]
  unfold migrateTable
  rw [updateFrom_eq_map (f := fun row =>
    { row with voteAccount := voteAccountIn validators epoch row.identity })]
  · rw [List.map_map, List.map_map]
    rfl
  · intro row _ v hv hon
    obtain ⟨hrow, rfl⟩ := (hmem v).mp hv
    have hidentity : row.identity = v.identity := of_decide_eq_true hon
    unfold HistoryRow.setVoteAccount
    rw [hidentity, voteAccountIn_of_mem hkey hrow]
  · intro row hrow hnone
    obtain ⟨old, -, rfl⟩ := List.mem_map.mp hrow
    -- the default is what the row already has
    rw [voteAccountIn_eq_empty]
    · rfl
    · rintro v hv ⟨hidentity, hv'⟩
      exact hnone v ((hmem v).mpr ⟨hv, hv'⟩) (decide_eq_true hidentity.symm)

/-- **The epoch of the subquery** is the latest one of any identity. -/
theorem migrateTable_cases (scan : Scan)
    (hkey : (validators.map fun row => (row.identity, row.epoch)).Nodup)
    (rows : List (IdentityRow β)) :
    validators = [] ∨ ∃ row : IdentityEpochRow, row.Latest validators ∧
      migrateTable scan validators rows = rows.map (IdentityRow.migrated validators row.epoch) := by
  rcases limit_groupMax_cases IdentityEpochRow.identity IdentityEpochRow.epoch validators scan
    with ⟨-, hnil⟩ | ⟨row, hlatest, hepoch⟩
  · exact Or.inl hnil
  · exact Or.inr ⟨row, hlatest, migrateTable_eq_map hkey hepoch rows⟩

/-- It may be that of any of them. -/
theorem exists_migrateTable (hkey : (validators.map fun row => (row.identity, row.epoch)).Nodup)
    {row : IdentityEpochRow} (h : row.Latest validators) :
    ∃ scan : Scan, ∀ rows : List (IdentityRow β), migrateTable scan validators rows =
      rows.map (IdentityRow.migrated validators row.epoch) := by
  obtain ⟨scan, hepoch⟩ := exists_limit_groupMax h
  exact ⟨scan, migrateTable_eq_map hkey hepoch⟩

/-- Identities and all other columns stay. -/
theorem migrateTable_frame (scan : Scan) (validators : List IdentityEpochRow)
    (rows : List (IdentityRow β)) :
    (migrateTable scan validators rows).map (fun row => (row.identity, row.columns)) =
      rows.map fun row => (some row.identity, row.columns) := by
  unfold migrateTable updateFrom
  rw [List.map_map, List.map_map, List.map_map]
  refine List.map_congr_left fun row _ => ?_
  simp only [Function.comp]
  split <;> rfl

/-! ## History by vote account -/

/-- What the migration should do to a table. -/
structure KeepsTable (validators : List IdentityEpochRow)
    (rows : List (HistoryRow (Option String) β)) : Prop where
  /-- A row has the vote account of its identity's latest epoch. -/
  attached : ∀ row ∈ rows, ∀ v : IdentityEpochRow, v.Latest validators →
    row.identity = some v.identity → row.voteAccount = v.voteAccount
  /-- Only an identity that occurs nowhere has the default. -/
  default : ∀ row ∈ rows, row.voteAccount = "" → ∀ v ∈ validators, row.identity ≠ some v.identity

/-- The identity has its last vote account, which is not the default, in the latest epochs of
all identities. Without a row in `validators` it need not have any. -/
def SeenInLatestEpochs (validators : List IdentityEpochRow) (identity : String) : Prop :=
  ∀ v : IdentityEpochRow, v.Latest validators → v.identity = identity → v.voteAccount ≠ "" ∧
    ∀ other : IdentityEpochRow, other.Latest validators → ∃ row ∈ validators,
      row.identity = identity ∧ row.epoch = other.epoch ∧ row.voteAccount = v.voteAccount

/-- With the vote accounts of one epoch, row by row. -/
theorem keepsTable_migrated_iff {epoch : Nat} {rows : List (IdentityRow β)} :
    KeepsTable validators (rows.map (IdentityRow.migrated validators epoch)) ↔
      ∀ row ∈ rows, ∀ v : IdentityEpochRow, v.Latest validators → v.identity = row.identity →
        v.voteAccount ≠ "" ∧ voteAccountIn validators epoch row.identity = v.voteAccount := by
  constructor
  · intro h row hrow v hv hidentity
    have hmem := List.mem_map_of_mem (f := IdentityRow.migrated validators epoch) hrow
    have hsame := h.attached _ hmem v hv (congrArg some hidentity.symm)
    refine ⟨fun hempty => ?_, hsame⟩
    exact h.default _ hmem (hsame.trans hempty) v hv.1 (congrArg some hidentity.symm)
  · intro h
    constructor
    · intro row hrow v hv hidentity
      obtain ⟨old, hold, rfl⟩ := List.mem_map.mp hrow
      exact (h old hold v hv (Option.some.inj hidentity).symm).2
    · intro row hrow hempty v hv hidentity
      obtain ⟨old, hold, rfl⟩ := List.mem_map.mp hrow
      obtain ⟨latest, hlatest, hsame⟩ : ∃ latest : IdentityEpochRow,
        latest.Latest validators ∧ latest.identity = v.identity := exists_isLatest hv
      have hkept := h old hold latest hlatest (hsame.trans (Option.some.inj hidentity).symm)
      exact hkept.1 (hkept.2.symm.trans hempty)

/-- **A table**, whichever group the `LIMIT` keeps. -/
theorem keepsTable_iff (hkey : (validators.map fun row => (row.identity, row.epoch)).Nodup)
    (rows : List (IdentityRow β)) :
    (∀ scan, KeepsTable validators (migrateTable scan validators rows)) ↔
      ∀ identity ∈ rows.map IdentityRow.identity, SeenInLatestEpochs validators identity := by
  rw [List.forall_mem_map]
  constructor
  · intro h row hrow v hv hidentity
    have hseen : ∀ other : IdentityEpochRow, other.Latest validators → v.voteAccount ≠ "" ∧
        voteAccountIn validators other.epoch row.identity = v.voteAccount := by
      intro other hother
      obtain ⟨scan, hscan⟩ := exists_migrateTable hkey hother
      have hkept := h scan
      rw [hscan, keepsTable_migrated_iff] at hkept
      exact hkept row hrow v hv hidentity
    have hne := (hseen v hv).1
    exact ⟨hne, fun other hother => (voteAccountIn_eq_iff hkey hne).mp (hseen other hother).2⟩
  · intro h scan
    rcases migrateTable_cases scan hkey rows with rfl | ⟨other, hother, heq⟩
    · exact ⟨fun _ _ v hv => absurd hv.1 List.not_mem_nil, fun _ _ _ _ => nofun⟩
    · rw [heq, keepsTable_migrated_iff]
      intro row hrow v hv hidentity
      obtain ⟨hne, hseen⟩ := h row hrow v hv hidentity
      exact ⟨hne, (voteAccountIn_eq_iff hkey hne).mpr (hseen other hother)⟩

end Tables

/-- What the migration should do. -/
structure KeepsHistory (after : TablesByVoteAccount) : Prop where
  versions : KeepsTable after.validators after.versions
  uptimes : KeepsTable after.validators after.uptimes
  commissions : KeepsTable after.validators after.commissions

/-- **The migration keeps the history** exactly if all its identities have their last vote
accounts in the latest epochs of all identities. -/
theorem keepsHistory_iff (before : TablesByIdentity) :
    (∀ versionsScan uptimesScan commissionsScan,
      KeepsHistory (migrate versionsScan uptimesScan commissionsScan before)) ↔
      ∀ identity ∈ before.historyIdentities, SeenInLatestEpochs before.validators identity := by
  unfold TablesByIdentity.historyIdentities
  rw [List.forall_mem_append, List.forall_mem_append,
    ← keepsTable_iff before.primaryKey before.versions,
    ← keepsTable_iff before.primaryKey before.uptimes,
    ← keepsTable_iff before.primaryKey before.commissions]
  constructor
  · intro h
    exact ⟨⟨fun scan => (h scan scan scan).versions, fun scan => (h scan scan scan).uptimes⟩,
      fun scan => (h scan scan scan).commissions⟩
  · rintro ⟨⟨hversions, huptimes⟩, hcommissions⟩ versionsScan uptimesScan commissionsScan
    exact ⟨hversions versionsScan, huptimes uptimesScan, hcommissions commissionsScan⟩

/-- Two validators with history, of which one was not in the last epoch. -/
def departedValidator : TablesByIdentity where
  validators := [⟨"identity", "vote", 300⟩, ⟨"departed", "departedVote", 299⟩]
  primaryKey := by decide
  versions :=
    [⟨"identity", ⟨some "1.17.5", 1000, 300, 0⟩⟩, ⟨"departed", ⟨some "1.17.5", 1000, 299, 0⟩⟩]
  uptimes := []
  commissions := []

/-- The version of the departed validator gets the default. -/
theorem not_keepsHistory_departed :
    ¬ KeepsHistory (migrate .sequential .sequential .sequential departedValidator) := by
  intro h
  have hrow : (⟨some "departed", "", ⟨some "1.17.5", 1000, 299, 0⟩⟩ :
      HistoryRow (Option String) (ChangeColumns (Option String))) ∈
        (migrate .sequential .sequential .sequential departedValidator).versions := by decide
  exact h.versions.default _ hrow rfl ⟨"departed", "departedVote", 299⟩ (by decide) rfl

/-! ## Queries by vote account -/

section Queries

variable {β : Type} {scan : Scan} {validators : List IdentityEpochRow}

def HistoryRow.toChangeRow {ι : Type} (row : HistoryRow ι (ChangeColumns β)) : ChangeRow β where
  voteAccount := row.voteAccount
  value := row.columns.value
  epochSlot := row.columns.epochSlot
  epoch := row.columns.epoch
  createdAt := row.columns.createdAt

def HistoryRow.toUptimeRow {ι : Type} (row : HistoryRow ι UptimeColumns) : UptimeRow where
  id := row.columns.id
  voteAccount := row.voteAccount
  status := row.columns.status
  epoch := row.columns.epoch
  startAt := row.columns.startAt
  endAt := row.columns.endAt

/-- A row that a query by vote account finds has an identity with this vote account in the epoch
of the subquery. -/
theorem exists_of_mem_migrateTable
    (hkey : (validators.map fun row => (row.identity, row.epoch)).Nodup) {epoch : Nat}
    (hepoch : limitedEpochs scan validators = [epoch]) {rows : List (IdentityRow β)}
    {row : HistoryRow (Option String) β} (hrow : row ∈ migrateTable scan validators rows)
    (hne : row.voteAccount ≠ "") :
    ∃ v ∈ validators, row.identity = some v.identity ∧ v.epoch = epoch ∧
      v.voteAccount = row.voteAccount := by
  rw [migrateTable_eq_map hkey hepoch] at hrow
  obtain ⟨old, -, rfl⟩ := List.mem_map.mp hrow
  obtain ⟨v, hv, hidentity, hv', hvote⟩ := (voteAccountIn_eq_iff hkey hne).mp rfl
  exact ⟨v, hv, congrArg some hidentity.symm, hv', hvote⟩

variable {snapshot : ValidatorsPerformanceSnapshot} {voteAccount : String}

/-- **Lost history**: `store_versions` and `store_commissions` do not find the rows of a
validator that was not seen in this epoch, and insert its value again. -/
theorem notMem_skippedVoteAccounts_of_lost [DecidableEq β]
    (hkey : (validators.map fun row => (row.identity, row.epoch)).Nodup) {epoch : Nat}
    (hepoch : limitedEpochs scan validators = [epoch])
    (hlost : ∀ v ∈ validators, v.epoch = epoch → v.voteAccount ≠ voteAccount)
    (hne : voteAccount ≠ "") (value : ValidatorPerformance → β) (scan' : Scan)
    (rows : List (IdentityRow (ChangeColumns β))) :
    voteAccount ∉ skippedVoteAccounts value scan' snapshot
      ((migrateTable scan validators rows).map HistoryRow.toChangeRow) := by
  intro hmem
  obtain ⟨row, hrow, hskip⟩ := List.mem_filterMap.mp hmem
  have hvote : row.voteAccount = voteAccount := by
    split at hskip
    · exact Option.some.inj (Option.ite_none_right_eq_some.mp hskip).2
    · cases hskip
  have htable := scan'.mem_order.mp (latest_spec (mem_distinctOn.mp hrow)).1
  obtain ⟨old, hold, rfl⟩ := List.mem_map.mp htable
  obtain ⟨v, hv, -, hv', hsame⟩ :=
    exists_of_mem_migrateTable hkey hepoch hold fun hempty => hne (hvote.symm.trans hempty)
  exact hlost v hv hv' (hsame.trans hvote)

/-- `store_uptime` does not extend its status but starts a new row. -/
theorem notMem_extendedStatus_of_lost
    (hkey : (validators.map fun row => (row.identity, row.epoch)).Nodup) {epoch : Nat}
    (hepoch : limitedEpochs scan validators = [epoch])
    (hlost : ∀ v ∈ validators, v.epoch = epoch → v.voteAccount ≠ voteAccount)
    (hne : voteAccount ≠ "") (scan' : Scan) (rows : List (IdentityRow UptimeColumns)) :
    voteAccount ∉ validatorsWithExtendedStatus snapshot scan'
      ((migrateTable scan validators rows).map HistoryRow.toUptimeRow) := by
  intro hmem
  obtain ⟨row, hrow, hvote⟩ := List.mem_map.mp hmem
  have htable := mem_of_mem_latestUptimes (List.mem_filter.mp hrow).1
  obtain ⟨old, hold, rfl⟩ := List.mem_map.mp htable
  obtain ⟨v, hv, -, hv', hsame⟩ :=
    exists_of_mem_migrateTable hkey hepoch hold fun hempty => hne (hvote.symm.trans hempty)
  exact hlost v hv hv' (hsame.trans hvote)

end Queries

end DelegationStrategy.Store
