import DelegationStrategy.Collect.NodeVersions
import DelegationStrategy.Lib.Trace
import DelegationStrategy.Store.Validators

/-!
# The last known good version

A node whose version is missing or malformed is collected without one
(`Collect.getClusterNodesVersions`), so that `store_validators` does not replace the last
known good version: the `UPDATE` of a row keeps its version then. The `INSERT` of a row has
nothing to keep, so the first snapshot of an epoch loses the version of every validator it
has none for. The newest row has the last version that was reported exactly as long as no
snapshot inserts a row without a version for a validator that has reported one
(`lastVersion_survives_iff`).
-/

namespace DelegationStrategy.Store

open DelegationStrategy.Lib DelegationStrategy.Collect

/-! ## Rounds -/

/-- A snapshot, what gossip said when it was collected, and the order in which the database
returns the rows when it is stored. -/
structure Round where
  scan : Scan
  clusterNodes : List ClusterNode
  snapshot : Snapshot

/-- The versions in the snapshot are those of gossip. -/
def Round.Collected (round : Round) : Prop :=
  ∀ v ∈ round.snapshot.validators,
    v.performance.version = (getClusterNodesVersions round.clusterNodes).get? v.identity

instance (round : Round) : Decidable round.Collected :=
  inferInstanceAs (Decidable (∀ v ∈ round.snapshot.validators,
    v.performance.version = (getClusterNodesVersions round.clusterNodes).get? v.identity))

/-- The table, and the snapshots that were stored. -/
structure VersionsState where
  past : List Snapshot
  table : List ValidatorsRow

def VersionsState.init (table : List ValidatorsRow) : VersionsState := ⟨[], table⟩

/-- The snapshots come with increasing times and non-decreasing epochs. -/
def VersionsState.Next (s : VersionsState) (snapshot : Snapshot) : Prop :=
  (∀ earlier ∈ s.past, earlier.createdAt < snapshot.createdAt ∧ earlier.epoch ≤ snapshot.epoch) ∧
    ∀ row ∈ s.table, row.epoch ≤ snapshot.epoch

instance (s : VersionsState) (snapshot : Snapshot) : Decidable (s.Next snapshot) :=
  inferInstanceAs (Decidable ((∀ earlier ∈ s.past, earlier.createdAt < snapshot.createdAt ∧
    earlier.epoch ≤ snapshot.epoch) ∧ ∀ row ∈ s.table, row.epoch ≤ snapshot.epoch))

/-- `store_validators` stores the next snapshot. -/
def versionsStep (s : VersionsState) (round : Round) : Option VersionsState :=
  if s.Next round.snapshot ∧ round.Collected then
    match storeValidators round.scan round.snapshot s.table with
    | .ok table => some ⟨s.past ++ [round.snapshot], table⟩
    | .error _ => none
  else none

/-- The version of a validator in a snapshot, the last one of several entries. -/
def reportedVersion (snapshot : Snapshot) (voteAccount : String) : Option String :=
  ((snapshotValidators snapshot).get? voteAccount).bind Validator.version

/-- The last plausible version that the validator reported. -/
def lastReported (past : List Snapshot) (voteAccount : String) : Option String :=
  (past.filterMap fun snapshot => reportedVersion snapshot voteAccount).getLast?

/-- The row of the greatest epoch. -/
def newestRow (table : List ValidatorsRow) (voteAccount : String) : Option ValidatorsRow :=
  latest ValidatorsRow.voteAccount ValidatorsRow.epoch table voteAccount

/-- The newest row of a validator has the last version it reported. -/
def LastVersionSurvives (s : VersionsState) : Prop :=
  ∀ voteAccount version, lastReported s.past voteAccount = some version →
    ∃ row, newestRow s.table voteAccount = some row ∧ row.version = some version

/-- No row is inserted without a version for a validator that has reported one. -/
def InsertsKnownVersions (s : VersionsState) (round : Round) : Prop :=
  ∀ entry ∈ (snapshotValidators round.snapshot).entries, entry.2.version = none →
    lastReported s.past entry.1 ≠ none →
      ∃ row ∈ s.table, row.voteAccount = entry.1 ∧ row.epoch = round.snapshot.epoch

instance (s : VersionsState) (round : Round) : Decidable (InsertsKnownVersions s round) :=
  inferInstanceAs (Decidable (∀ entry ∈ (snapshotValidators round.snapshot).entries,
    entry.2.version = none → lastReported s.past entry.1 ≠ none →
      ∃ row ∈ s.table, row.voteAccount = entry.1 ∧ row.epoch = round.snapshot.epoch))

/-! ## What is reported -/

theorem lastReported_concat (past : List Snapshot) (snapshot : Snapshot) (voteAccount : String) :
    lastReported (past ++ [snapshot]) voteAccount =
      (reportedVersion snapshot voteAccount).or (lastReported past voteAccount) := by
  unfold lastReported
  rw [List.filterMap_append, List.getLast?_append]
  cases hversion : reportedVersion snapshot voteAccount with
  | none => simp [hversion]
  | some version => simp [hversion]

/-- A version in a snapshot is one that gossip has for a node of the validator, and plausible. -/
theorem plausible_of_reportedVersion {round : Round} (hcollected : round.Collected)
    {voteAccount version : String}
    (h : reportedVersion round.snapshot voteAccount = some version) :
    isPlausibleNodeVersion version.toList := by
  obtain ⟨v, hget, hversion⟩ := Option.bind_eq_some_iff.mp h
  obtain ⟨v', hv', heq⟩ := mem_snapshotValidators (Dict.mem_of_get? hget)
  obtain ⟨-, rfl⟩ := Prod.mk.inj heq
  exact (plausible_of_get? ((hcollected v' hv').symm.trans hversion)).1

/-! ## The newest row -/

section Newest

variable {scan : Scan} {snapshot : Snapshot} {table : List ValidatorsRow} {voteAccount : String}

/-- A row of an epoch that no other row exceeds is the newest one. -/
theorem newestRow_eq (hkey : PrimaryKey table) {row : ValidatorsRow} (hrow : row ∈ table)
    (hmax : ∀ row' ∈ table, row'.voteAccount = row.voteAccount → row'.epoch ≤ row.epoch) :
    newestRow table row.voteAccount = some row := by
  cases hnewest : newestRow table row.voteAccount with
  | none => exact absurd rfl (latest_eq_none_iff.mp hnewest row hrow)
  | some newest =>
    obtain ⟨hmem, hvote, hle⟩ := latest_spec hnewest
    have hepoch : newest.epoch = row.epoch :=
      le_antisymm (hmax newest hmem hvote) (hle row hrow rfl)
    rw [hkey.eq_of_key hmem hrow hvote hepoch]

/-- No row goes beyond the epoch of the snapshot. -/
theorem epoch_le_of_mem_upserted (hle : ∀ row ∈ table, row.epoch ≤ snapshot.epoch)
    {row : ValidatorsRow} (hrow : row ∈ upserted scan snapshot table) :
    row.epoch ≤ snapshot.epoch := by
  rcases List.mem_append.mp hrow with hold | hnew
  · obtain ⟨old, hmem, rfl⟩ := List.mem_map.mp hold
    rw [refreshRow, ((edits_update snapshot).editRow_key _ old).2]
    exact hle old hmem
  · obtain ⟨e, he, rfl⟩ := List.mem_map.mp hnew
    exact (newRow_key (mem_insertedValidators.mp he).1).2.le

/-- A validator of the snapshot that has a row of the epoch: the row is updated. -/
theorem newestRow_refresh (hkey : PrimaryKey table)
    (hle : ∀ row ∈ table, row.epoch ≤ snapshot.epoch) {v : Validator}
    (hget : (snapshotValidators snapshot).get? voteAccount = some v) {row : ValidatorsRow}
    (hrow : row ∈ table) (hvote : row.voteAccount = voteAccount)
    (hepoch : row.epoch = snapshot.epoch) :
    newestRow (upserted scan snapshot table) voteAccount =
      some (v.refresh snapshot.createdAt row) := by
  subst hvote
  obtain ⟨hvote, hepoch'⟩ := get?_snapshotValidators hget
  have hkey' : PrimaryKey (upserted scan snapshot table) := primaryKey_upserted hkey
  have hnewest := newestRow_eq hkey'
    (refresh_mem_upserted hrow hepoch hget) fun row' hrow' _ =>
      (epoch_le_of_mem_upserted hle hrow').trans hepoch'.ge
  rwa [show (v.refresh snapshot.createdAt row).voteAccount = row.voteAccount from hvote] at hnewest

/-- A validator of the snapshot without a row of the epoch: a row is inserted. -/
theorem newestRow_newRow (hkey : PrimaryKey table)
    (hle : ∀ row ∈ table, row.epoch ≤ snapshot.epoch) {v : Validator}
    (hget : (snapshotValidators snapshot).get? voteAccount = some v)
    (hnone : ∀ row ∈ table, ¬ (row.voteAccount = voteAccount ∧ row.epoch = snapshot.epoch)) :
    newestRow (upserted scan snapshot table) voteAccount =
      some (v.newRow snapshot.createdAt) := by
  obtain ⟨hvote, hepoch⟩ := get?_snapshotValidators hget
  have hkey' : PrimaryKey (upserted scan snapshot table) := primaryKey_upserted hkey
  have hnewest := newestRow_eq hkey'
    (newRow_mem_upserted hget hnone) fun row' hrow' _ =>
      (epoch_le_of_mem_upserted hle hrow').trans hepoch.ge
  rwa [show (v.newRow snapshot.createdAt).voteAccount = voteAccount from hvote] at hnewest

/-- The rows of a validator that is not in the snapshot stay. -/
theorem newestRow_other (hget : (snapshotValidators snapshot).get? voteAccount = none) :
    newestRow (upserted scan snapshot table) voteAccount = newestRow table voteAccount := by
  have hnot := Dict.get?_eq_none_iff.mp hget
  have hold : (table.map (refreshRow snapshot (snapshotValidators snapshot).keys)).filter
      (fun row => row.voteAccount = voteAccount) =
        table.filter fun row => row.voteAccount = voteAccount := by
    rw [List.filter_map]
    have hsame : ∀ row ∈ table.filter fun row => row.voteAccount = voteAccount,
        refreshRow snapshot (snapshotValidators snapshot).keys row = row := by
      intro row hrow
      obtain rfl : row.voteAccount = voteAccount := by simpa using (List.mem_filter.mp hrow).2
      exact if_neg fun h => hnot h.2
    refine Eq.trans ?_ ((List.map_congr_left hsame).trans (List.map_id _))
    refine congrArg (List.map _) (List.filter_congr fun row _ => ?_)
    show decide ((refreshRow _ _ row).voteAccount = voteAccount) = _
    rw [refreshRow, ((edits_update snapshot).editRow_key _ row).1]
  have hnew : (newRows snapshot (insertedValidators scan snapshot table)).filter
      (fun row => row.voteAccount = voteAccount) = [] := by
    refine List.filter_eq_nil_iff.mpr fun row hrow hvote => ?_
    obtain ⟨e, he, rfl⟩ := List.mem_map.mp hrow
    have hentry := (mem_insertedValidators.mp he).1
    have heq : e.1 = voteAccount :=
      (newRow_key hentry).1.symm.trans (of_decide_eq_true hvote)
    exact hnot (heq ▸ List.mem_map_of_mem hentry)
  unfold newestRow latest upserted
  rw [List.filter_append, hold, hnew, List.append_nil]

end Newest

/-! ## Runs -/

section Runs

variable {s s' : VersionsState} {round : Round}

/-- **What a step does.** -/
theorem versionsStep_eq_some (hkey : PrimaryKey s.table) :
    versionsStep s round = some s' ↔ s.Next round.snapshot ∧ round.Collected ∧
      s' = ⟨s.past ++ [round.snapshot], upserted round.scan round.snapshot s.table⟩ := by
  unfold versionsStep
  rw [storeValidators_eq_ok hkey, Option.ite_none_right_eq_some, and_assoc]
  simp only [Option.some.injEq, eq_comm]

theorem primaryKey_versionsStep (hkey : PrimaryKey s.table)
    (h : versionsStep s round = some s') : PrimaryKey s'.table := by
  obtain ⟨-, -, rfl⟩ := (versionsStep_eq_some hkey).mp h
  exact primaryKey_upserted hkey

/-- The newest row has the version of the snapshot, or else the one it had: it is lost
exactly when a row is inserted without a version. -/
theorem lastVersionSurvives_step (hkey : PrimaryKey s.table) (hsurvives : LastVersionSurvives s)
    (h : versionsStep s round = some s') :
    LastVersionSurvives s' ↔ InsertsKnownVersions s round := by
  obtain ⟨⟨-, hle⟩, -, rfl⟩ := (versionsStep_eq_some hkey).mp h
  constructor
  · intro hafter entry hentry hversion hknown
    have hget := Dict.get?_of_mem hentry
    have hreported : reportedVersion round.snapshot entry.1 = none := by
      rw [reportedVersion, hget]
      exact hversion
    obtain ⟨version, hlast⟩ := Option.ne_none_iff_exists'.mp hknown
    by_contra hnone
    -- the row that is inserted has no version
    obtain ⟨row, hnewest, hrow⟩ := hafter entry.1 version (by
      rw [lastReported_concat, hreported, hlast]
      rfl)
    rw [newestRow_newRow hkey hle hget fun row hrow hat => hnone ⟨row, hrow, hat⟩] at hnewest
    obtain rfl := Option.some.inj hnewest
    have hlost : entry.2.version = some version := hrow
    rw [hversion] at hlost
    cases hlost
  · intro hok voteAccount version hlast
    rw [lastReported_concat] at hlast
    cases hget : (snapshotValidators round.snapshot).get? voteAccount with
    | none =>
      -- the validator is not in the snapshot
      rw [reportedVersion, hget] at hlast
      rw [newestRow_other hget]
      exact hsurvives voteAccount version hlast
    | some v =>
      rw [reportedVersion, hget] at hlast
      by_cases hold : ∃ row ∈ s.table,
          row.voteAccount = voteAccount ∧ row.epoch = round.snapshot.epoch
      · obtain ⟨row, hrow, hvote, hepoch⟩ := hold
        refine ⟨_, newestRow_refresh hkey hle hget hrow hvote hepoch, ?_⟩
        show v.version.or row.version = some version
        cases hversion : v.version with
        | some reported =>
          rw [Option.bind_some, hversion] at hlast
          exact hlast
        | none =>
          -- the row that is updated was the newest one
          rw [Option.bind_some, hversion] at hlast
          obtain ⟨newest, hnewest, hnewestVersion⟩ := hsurvives voteAccount version hlast
          have hrowNewest := newestRow_eq hkey hrow fun row' hrow' _ =>
            (hle row' hrow').trans hepoch.ge
          rw [hvote, hnewest] at hrowNewest
          obtain rfl := Option.some.inj hrowNewest
          exact hnewestVersion
      · refine ⟨_, newestRow_newRow hkey hle hget fun row hrow hat => hold ⟨row, hrow, hat⟩, ?_⟩
        show v.version = some version
        cases hversion : v.version with
        | some reported =>
          rw [Option.bind_some, hversion] at hlast
          exact hlast
        | none =>
          rw [Option.bind_some, hversion] at hlast
          have hknown : lastReported s.past voteAccount ≠ none := by
            rw [show lastReported s.past voteAccount = some version from hlast]
            nofun
          exact absurd (hok (voteAccount, v) (Dict.mem_of_get? hget) hversion hknown) hold

/-- **When the last known good version survives**: in every state of a run, exactly if every
snapshot of the run that inserts a row for a validator that has reported a version has one. -/
theorem lastVersion_survives_iff (table : List ValidatorsRow) (hkey : PrimaryKey table)
    (rounds : List Round) :
    StatesAll versionsStep LastVersionSurvives (.init table) rounds ↔
      StepsAll versionsStep InsertsKnownVersions (.init table) rounds :=
  have hinv : ∀ s round s', PrimaryKey s.table → versionsStep s round = some s' →
      PrimaryKey s'.table := fun _ _ _ hkey h => primaryKey_versionsStep hkey h
  statesAll_iff_stepsAll hinv
    (fun _ _ _ hkey hsurvives h => lastVersionSurvives_step hkey hsurvives h)
    (s := .init table) hkey nofun rounds

end Runs

/-! ### A malformed version at the start of an epoch -/

/-- A snapshot of one validator, whose node reports the given version. -/
def versionRound (createdAt : Timestamp) (epoch : Nat) (version : String) : Round where
  scan := .sequential
  clusterNodes := [⟨"identity", some version⟩]
  snapshot :=
    { epoch := epoch
      createdAt := createdAt
      validators := (singleValidators createdAt 10).validators.map fun v =>
        { v with performance := { v.performance with
            version := ClusterNode.plausibleVersion ⟨"identity", some version⟩ } } }

/-- The rounds, the second one with a malformed version, and the states between them. -/
def goodRound : Round := versionRound 0 500 "1.17.5 (src:devbuild)"

def malformedRound (epoch : Nat) : Round := versionRound 60000000 epoch "unknown"

def afterGoodRound : VersionsState :=
  ⟨[goodRound.snapshot], upserted goodRound.scan goodRound.snapshot []⟩

theorem step_goodRound : versionsStep (.init []) goodRound = some afterGoodRound :=
  (versionsStep_eq_some (s := .init []) List.nodup_nil).mpr ⟨by decide, by decide, rfl⟩

/-- The malformed version comes in the same epoch. -/
theorem lastVersion_survives_sameEpoch :
    StatesAll versionsStep LastVersionSurvives (.init []) [goodRound, malformedRound 500] := by
  refine (lastVersion_survives_iff [] List.nodup_nil _).mpr (.cons step_goodRound ?_ ?_)
  · show InsertsKnownVersions _ _
    decide
  · intro s' _
    refine ⟨?_, trivial⟩
    show InsertsKnownVersions afterGoodRound _
    decide

/-- The malformed version comes with the first snapshot of the next epoch. -/
theorem lastVersion_lost :
    ¬ StatesAll versionsStep LastVersionSurvives (.init []) [goodRound, malformedRound 501] := by
  intro h
  have hkey : PrimaryKey afterGoodRound.table :=
    primaryKey_versionsStep (s := .init []) List.nodup_nil step_goodRound
  have hafter := h.2 _ step_goodRound
  have hstep : versionsStep afterGoodRound (malformedRound 501) = some _ :=
    (versionsStep_eq_some hkey).mpr ⟨by decide, by decide, rfl⟩
  have hlost := (lastVersionSurvives_step hkey hafter.1 hstep).mp (hafter.2 _ hstep)
  revert hlost
  decide

end DelegationStrategy.Store
