import DelegationStrategy.Check.JitoGate
import DelegationStrategy.Store.BlockRewards
import DelegationStrategy.Store.Scoring

/-!
# When block rewards are collected

`check_block_rewards` (`check/src/validators_block_rewards.rs`) decides whether the rewards of
the last epoch are collected and stored now. It asks for nothing but the greatest epoch in the
table, so an epoch is recorded as soon as one of its rows is. A round of the job is
`scripts/check-collect-store-validators-block-rewards.bash`.

- In every run of the job the table only grows, an epoch comes from one round, and later
  rounds store later epochs: the `ON CONFLICT` of the store never meets a row
  (`blockRewards_once`).
- A store that is interrupted after its first statement is never completed: no later round
  touches the epoch (`blockRewards_interrupted`). Whether it has stored all accounts is decided
  by the statements that have committed; the reply of the last of them may be lost, and then
  the round fails with nothing missing.
-/

namespace DelegationStrategy.Check

open DelegationStrategy.Lib DelegationStrategy.Collect DelegationStrategy.Store

/-! ## `check_block_rewards` -/

inductive CheckError where
  /-- The recorded epoch is not a `u64`. -/
  | epoch
  /-- The node does not answer. -/
  | rpc
  /-- `current_epoch - 1` panics. -/
  | panic
  deriving DecidableEq, Repr

/-- `SELECT epoch … WHERE epoch = (SELECT MAX(epoch) …) GROUP BY epoch`. -/
def lastRecordedEpoch (table : BlockRewardsTable) : Option Nat :=
  (table.rows.map fun row => row.epoch).max?

/-- `check_block_rewards`; the node is asked only if there is something recorded. -/
def checkBlockRewards (slotOffsetWait : Nat) (table : BlockRewardsTable)
    (getEpochInfo : Option EpochInfo) : Except CheckError Bool :=
  match lastRecordedEpoch table with
  | none => .ok true
  | some epoch =>
    match decimalToU64 epoch, getEpochInfo with
    | none, _ => .error .epoch
    | some _, none => .error .rpc
    | some sqlEpoch, some current =>
      if current.epoch = 0 then .error .panic
      else if sqlEpoch < current.epoch - 1 then .ok (slotOffsetWait < current.slotIndex)
      else .ok false

/-- The exit code of `check` (`check/src/main.rs`). -/
def exitCode : Except CheckError Bool → Nat
  | .ok true => 0
  | .ok false => 1
  | .error .panic => 101
  | .error _ => 2

theorem exitCode_eq_zero_iff {result : Except CheckError Bool} :
    exitCode result = 0 ↔ result = .ok true := by
  rcases result with e | b
  · cases e <;> simp [exitCode]
  · cases b <;> simp [exitCode]

theorem lastRecordedEpoch_eq_none_iff {table : BlockRewardsTable} :
    lastRecordedEpoch table = none ↔ table.rows = [] := by
  unfold lastRecordedEpoch
  rw [List.max?_eq_none_iff, List.map_eq_nil_iff]

theorem lastRecordedEpoch_eq_some {table : BlockRewardsTable} {epoch : Nat}
    (h : lastRecordedEpoch table = some epoch) :
    (∃ row ∈ table.rows, row.epoch = epoch) ∧ ∀ row ∈ table.rows, row.epoch ≤ epoch := by
  obtain ⟨hmem, hle⟩ := List.max?_eq_some_iff.mp h
  exact ⟨List.mem_map.mp hmem, fun row hrow => hle _ (List.mem_map_of_mem hrow)⟩

/-- **When the check passes**: nothing is recorded, or only epochs before the last one, and
the epoch that runs is old enough. -/
theorem checkBlockRewards_eq_true_iff {slotOffsetWait : Nat} {table : BlockRewardsTable}
    {observed : Option EpochInfo} :
    checkBlockRewards slotOffsetWait table observed = .ok true ↔
      table.rows = [] ∨ ∃ current, observed = some current ∧
        slotOffsetWait < current.slotIndex ∧
        ∀ row ∈ table.rows, row.epoch < 2 ^ 64 ∧ row.epoch + 1 < current.epoch := by
  unfold checkBlockRewards
  cases hlast : lastRecordedEpoch table with
  | none => simp [lastRecordedEpoch_eq_none_iff.mp hlast]
  | some epoch =>
    obtain ⟨⟨row, hrow, hat⟩, hle⟩ := lastRecordedEpoch_eq_some hlast
    have hne : table.rows ≠ [] := List.ne_nil_of_mem hrow
    cases hfits : decimalToU64 epoch with
    | none =>
      have hbig : ¬ epoch < 2 ^ 64 := fun h => by
        rw [decimalToU64_natCast h] at hfits
        cases hfits
      refine iff_of_false (by simp [hfits]) ?_
      rintro (hnil | ⟨current, -, -, hall⟩)
      · exact hne hnil
      · exact hbig (hat ▸ (hall row hrow).1)
    | some sqlEpoch =>
      obtain ⟨hfit, rfl⟩ := decimalToU64_eq_some_iff.mp hfits
      cases observed with
      | none => simp [hfits, hne]
      | some current =>
        have hall : (∀ row ∈ table.rows, row.epoch < 2 ^ 64 ∧ row.epoch + 1 < current.epoch) ↔
            sqlEpoch + 1 < current.epoch := by
          constructor
          · intro h
            exact hat ▸ (h row hrow).2
          · intro h row' hrow'
            have := hle row' hrow'
            omega
        simp only [hfits, hne, false_or, Option.some.injEq, exists_eq_left', hall]
        by_cases hzero : current.epoch = 0
        · simp [hzero]
        · have hlt : sqlEpoch < current.epoch - 1 ↔ sqlEpoch + 1 < current.epoch := by omega
          by_cases hbehind : sqlEpoch + 1 < current.epoch
          · simp [hzero, hlt, hbehind]
          · simp [hzero, hlt, hbehind]

/-! ## One round of the job -/

/-- The arguments of the two programs; the script passes no epoch to the collector. -/
structure JobParams where
  slotOffsetWait : Nat
  loadingLimit : Nat
  maxDataDelayHours : Nat
  deriving DecidableEq, Repr

/-- What a collector reads that gets that far. -/
structure Collection where
  info : EpochInfo
  createdAt : Timestamp
  scan : Scan
  table : List BlockRewardsEtlRow

/-- What a round meets. -/
structure RewardsRound where
  /-- `none` if the node does not answer the check. -/
  observed : Option EpochInfo
  /-- `none` if a request of the collector fails. -/
  collection : Option Collection
  /-- The order of the map in the store. -/
  scan : Scan
  /-- The statements of the store that fail. -/
  fault : Nat → Option DbError
  /-- The statements of the store that commit without a reply. -/
  lost : Nat → Option DbError

/-- The statements that are not executed. -/
def RewardsRound.faults (round : RewardsRound) : Nat → Option DbError :=
  faultsOf round.fault round.lost

/-- How a round ends. -/
inductive Outcome where
  | checkFailed (exitCode : Nat)
  /-- "Not a good time to collect validators block rewards" -/
  | notNow
  | collectFailed
  /-- "No block rewards data collected yet" -/
  | noData
  /-- The number of the statements that committed, their records, and the result of the
  store. -/
  | stored (snapshot : ValidatorsBlockRewardsSnapshot) (statements : Nat)
      (upserted : List ValidatorBlockReward) (result : Except DbError Unit)

/-- The collector; `current_epoch_info.epoch - 1` panics in epoch 0. -/
def collect (params : JobParams) (c : Collection) :
    Option (Option ValidatorsBlockRewardsSnapshot) :=
  if c.info.epoch = 0 then none
  else (collectValidatorBlockRewardsInfo ⟨params.loadingLimit, none, params.maxDataDelayHours⟩
    c.createdAt c.info.epoch c.info.slotIndex c.scan c.table).toOption

/-- `store_block_rewards` over the connection of a round. -/
def RewardsRound.store (round : RewardsRound) (snapshot : ValidatorsBlockRewardsSnapshot)
    (table : BlockRewardsTable) : BlockRewardsTable × Except DbError Unit :=
  autocommitLossy round.fault round.lost (blockRewardsStatements round.scan snapshot) table

/-- The records that a store upserts before it ends. -/
def upsertedRecords (fault : Nat → Option DbError) (scan : Scan)
    (snapshot : ValidatorsBlockRewardsSnapshot) (table : BlockRewardsTable) :
    List ValidatorBlockReward :=
  ((chunks BLOCK_REWARDS_CHUNK_SIZE (records scan snapshot)).take
    (committed fault (blockRewardsStatements scan snapshot) table)).flatten

/-- `collect_store_validators_block_rewards`. -/
def collectStore (params : JobParams) (table : BlockRewardsTable) (round : RewardsRound) :
    BlockRewardsTable × Outcome :=
  match exitCode (checkBlockRewards params.slotOffsetWait table round.observed) with
  | 0 =>
    match round.collection.bind (collect params) with
    | none => (table, .collectFailed)
    | some none => (table, .noData)
    | some (some snapshot) =>
      ((round.store snapshot table).1,
        .stored snapshot (committed round.faults (blockRewardsStatements round.scan snapshot) table)
          (upsertedRecords round.faults round.scan snapshot table) (round.store snapshot table).2)
  | 1 => (table, .notNow)
  | code => (table, .checkFailed code)

/-- The table, and how the rounds so far have ended. -/
structure GateState where
  table : BlockRewardsTable
  outcomes : List Outcome

def GateState.init (table : BlockRewardsTable) : GateState := ⟨table, []⟩

def gateStep (params : JobParams) (s : GateState) (round : RewardsRound) : Option GateState :=
  some ⟨(collectStore params s.table round).1,
    s.outcomes ++ [(collectStore params s.table round).2]⟩

/-- The collector asks a node that is not behind the one that the check has asked. -/
def CollectsOnward (_ : GateState) (round : RewardsRound) : Prop :=
  ∀ observed c, round.observed = some observed → round.collection = some c →
    observed.epoch ≤ c.info.epoch

/-! ## What a round does -/

section Rounds

variable {params : JobParams} {table : BlockRewardsTable} {round : RewardsRound}
  {snapshot : ValidatorsBlockRewardsSnapshot}

/-- The collector looks at the epoch before the one that runs. -/
theorem epoch_of_collect {c : Collection} (h : collect params c = some (some snapshot)) :
    snapshot.epoch + 1 = c.info.epoch := by
  unfold collect at h
  by_cases hzero : c.info.epoch = 0
  · rw [if_pos hzero] at h
    cases h
  · rw [if_neg hzero] at h
    unfold collectValidatorBlockRewardsInfo at h
    dsimp only [Option.getD_none] at h
    cases hquery : queryValidatorBlockRewards c.scan c.table (c.info.epoch - 1) with
    | none =>
      rw [hquery] at h
      cases h
    | some blockRewards =>
      rw [hquery] at h
      dsimp only at h
      split at h
      · split at h <;> cases h
      · obtain rfl := Option.some.inj (Option.some.inj h)
        show c.info.epoch - 1 + 1 = c.info.epoch
        omega

/-- The store leaves the records that it has upserted. -/
theorem store_eq_upserted (round : RewardsRound) (snapshot : ValidatorsBlockRewardsSnapshot)
    (table : BlockRewardsTable) :
    (round.store snapshot table).1 = upsertRewards snapshot.createdAt
      (upsertedRecords round.faults round.scan snapshot table) table := by
  have hleft := commitAll_committed round.faults (blockRewardsStatements round.scan snapshot) table
  rw [blockRewardsStatements, ← List.map_take,
    (byChunks_upsertRewards snapshot.createdAt).commitAll_eq] at hleft
  · exact (autocommitLossy_fst _ _ _ _).trans (Except.ok.inj hleft).symm
  · rw [chunks_take_flatten (by decide)]
    exact (nodup_records round.scan snapshot).sublist ((List.take_sublist _ _).map _)

/-- They are the records of the statements that commit. -/
theorem upsertedRecords_eq (fault : Nat → Option DbError) (scan : Scan)
    (snapshot : ValidatorsBlockRewardsSnapshot) (table : BlockRewardsTable) :
    upsertedRecords fault scan snapshot table = (records scan snapshot).take
      (BLOCK_REWARDS_CHUNK_SIZE * committed fault (blockRewardsStatements scan snapshot) table) :=
  chunks_take_flatten (by decide) _ _

theorem upsertedRecords_sublist (fault : Nat → Option DbError) (scan : Scan)
    (snapshot : ValidatorsBlockRewardsSnapshot) (table : BlockRewardsTable) :
    (upsertedRecords fault scan snapshot table).Sublist (records scan snapshot) := by
  rw [upsertedRecords_eq]
  exact List.take_sublist _ _

/-- A store that succeeds has upserted all records. -/
theorem length_records_le {round : RewardsRound} (h : (round.store snapshot table).2 = .ok ()) :
    (records round.scan snapshot).length ≤ BLOCK_REWARDS_CHUNK_SIZE *
      committed round.faults (blockRewardsStatements round.scan snapshot) table := by
  have hall := (autocommit_eq_ok_iff _ _ _).mp (autocommit_eq_ok_of_lossy h)
  have hlength := congrArg List.length
    (take_length_chunks (n := BLOCK_REWARDS_CHUNK_SIZE) (by decide) (records round.scan snapshot))
  rw [List.length_take] at hlength
  rw [RewardsRound.faults, hall, blockRewardsStatements, List.length_map]
  omega

/-- There is a record for each account of the snapshot. -/
theorem length_records (scan : Scan) (snapshot : ValidatorsBlockRewardsSnapshot) :
    (records scan snapshot).length = (snapshotKeys snapshot).dedup.length := by
  have hperm : ((records scan snapshot).map ValidatorBlockReward.toBlockRewardsKey).Perm
      (snapshotKeys snapshot).dedup :=
    (List.perm_ext_iff_of_nodup (nodup_records scan snapshot) (List.nodup_dedup _)).mpr
      fun k => mem_keys_records.trans List.mem_dedup.symm
  rw [← hperm.length_eq, List.length_map]

theorem epoch_of_mem_records {scan : Scan} {reward : ValidatorBlockReward}
    (h : reward ∈ records scan snapshot) : reward.epoch = snapshot.epoch := by
  obtain ⟨r, -, rfl⟩ := List.mem_map.mp ((records_perm scan snapshot).mem_iff.mp h)
  rfl

/-- A round of an epoch that is later than all rows appends its records. -/
theorem rows_store (hlater : ∀ row ∈ table.rows, row.epoch < snapshot.epoch) :
    (round.store snapshot table).1.rows =
      table.rows ++ proposedRows snapshot.createdAt table.nextId
        (upsertedRecords round.faults round.scan snapshot table) := by
  have hsub := upsertedRecords_sublist round.faults round.scan snapshot table
  rw [store_eq_upserted]
  refine upsertAll_eq_append ?_ fun new hnew hmem => ?_
  · rw [map_key_proposedRows]
    exact (nodup_records round.scan snapshot).sublist (hsub.map _)
  · obtain ⟨reward, hreward, id, rfl⟩ := exists_of_mem_proposedRows hnew
    obtain ⟨row, hrow, hkey⟩ := List.mem_map.mp hmem
    have hepoch : row.epoch = reward.epoch := congrArg BlockRewardsKey.epoch hkey
    have hrowLater := hlater row hrow
    have hrewardAt := epoch_of_mem_records (hsub.subset hreward)
    omega

end Rounds

/-! ## What the rounds leave -/

/-- A row without its id. -/
structure StoredReward where
  reward : ValidatorBlockReward
  createdAt : Timestamp
  updatedAt : Timestamp
  deriving DecidableEq, Repr

def storedReward (row : BlockRewardsRow) : StoredReward where
  reward := {
    toBlockRewardsKey := row.toBlockRewardsKey
    authorizedVoter := row.authorizedVoter
    amount := row.amount }
  createdAt := row.createdAt
  updatedAt := row.updatedAt

/-- The rows that a round has stored. -/
def Outcome.rewards : Outcome → List StoredReward
  | .stored snapshot _ upserted _ =>
    upserted.map fun reward => ⟨reward, snapshot.createdAt, snapshot.createdAt⟩
  | _ => []

/-- The epoch of which a round has stored rows. -/
def Outcome.storedEpoch : Outcome → Option Nat
  | .stored snapshot _ (_ :: _) _ => some snapshot.epoch
  | _ => none

/-- What the rounds have done to a table. -/
structure OncePerEpoch (table : BlockRewardsTable) (s : GateState) : Prop where
  /-- No row is changed. -/
  kept : table.rows <+: s.table.rows
  /-- The other rows are those that the rounds have stored, round after round. -/
  rows : s.table.rows.map storedReward =
    table.rows.map storedReward ++ s.outcomes.flatMap Outcome.rewards
  /-- A round stores rows of one epoch. -/
  epochs : ∀ outcome ∈ s.outcomes, ∀ stored ∈ outcome.rewards,
    outcome.storedEpoch = some stored.reward.epoch
  /-- Later rounds store later epochs. -/
  ascending : (s.outcomes.filterMap Outcome.storedEpoch).Pairwise (· < ·)
  new : ∀ epoch ∈ s.outcomes.filterMap Outcome.storedEpoch, ∀ row ∈ table.rows,
    row.epoch < epoch

section Runs

variable {params : JobParams} {table : BlockRewardsTable} {s s' : GateState} {round : RewardsRound}

variable (params) in
/-- **What a round does** if the collector is not behind the check. -/
theorem collectStore_cases (honward : CollectsOnward s round) :
    ((collectStore params s.table round).1 = s.table ∧
      (collectStore params s.table round).2.rewards = [] ∧
      (collectStore params s.table round).2.storedEpoch = none) ∨
    ∃ snapshot, (∀ row ∈ s.table.rows, row.epoch < snapshot.epoch) ∧
      collectStore params s.table round =
        ((round.store snapshot s.table).1,
          .stored snapshot
            (committed round.faults (blockRewardsStatements round.scan snapshot) s.table)
            (upsertedRecords round.faults round.scan snapshot s.table)
            (round.store snapshot s.table).2) := by
  unfold collectStore
  by_cases hpass : exitCode (checkBlockRewards params.slotOffsetWait s.table round.observed) = 0
  · rw [hpass]
    cases hcollect : round.collection.bind (collect params) with
    | none => exact Or.inl ⟨rfl, rfl, rfl⟩
    | some written =>
      cases written with
      | none => exact Or.inl ⟨rfl, rfl, rfl⟩
      | some snapshot =>
        refine Or.inr ⟨snapshot, fun row hrow => ?_, rfl⟩
        obtain ⟨c, hc, hsnapshot⟩ := Option.bind_eq_some_iff.mp hcollect
        have hepoch := epoch_of_collect hsnapshot
        rcases checkBlockRewards_eq_true_iff.mp (exitCode_eq_zero_iff.mp hpass) with
          hnil | ⟨observed, hobserved, -, hall⟩
        · rw [hnil] at hrow
          cases hrow
        · have hle := honward observed c hobserved hc
          have hbefore := (hall row hrow).2
          omega
  · left
    split
    · contradiction
    · exact ⟨rfl, rfl, rfl⟩
    · exact ⟨rfl, rfl, rfl⟩

theorem map_stored_proposedRows (createdAt : Timestamp) (nextId : Nat)
    (rewards : List ValidatorBlockReward) :
    (proposedRows createdAt nextId rewards).map storedReward =
      rewards.map fun reward => ⟨reward, createdAt, createdAt⟩ := by
  unfold proposedRows
  rw [List.map_map]
  show (rewards.zipIdx nextId).map
    ((fun reward => (⟨reward, createdAt, createdAt⟩ : StoredReward)) ∘ Prod.fst) = _
  rw [← List.map_map, List.zipIdx_map_fst]

theorem oncePerEpoch_init (table : BlockRewardsTable) : OncePerEpoch table (.init table) where
  kept := List.prefix_refl _
  rows := (List.append_nil _).symm
  epochs _ h := by cases h
  ascending := List.Pairwise.nil
  new _ h := by cases h

/-- Every epoch of which a round has stored rows has rows. -/
theorem OncePerEpoch.exists_row (hinv : OncePerEpoch table s) {epoch : Nat}
    (h : epoch ∈ s.outcomes.filterMap Outcome.storedEpoch) :
    ∃ row ∈ s.table.rows, row.epoch = epoch := by
  obtain ⟨outcome, houtcome, hstored⟩ := List.mem_filterMap.mp h
  -- the round has stored a first row
  obtain ⟨stored, hfirst⟩ : ∃ stored, stored ∈ outcome.rewards := by
    cases outcome with
    | stored snapshot statements upserted result =>
      cases upserted with
      | nil => cases hstored
      | cons reward rest => exact ⟨_, List.mem_cons_self⟩
    | _ => cases hstored
  have hmem : stored ∈ s.table.rows.map storedReward := by
    rw [hinv.rows]
    exact List.mem_append_right _ (List.mem_flatMap.mpr ⟨outcome, houtcome, hfirst⟩)
  obtain ⟨row, hrow, rfl⟩ := List.mem_map.mp hmem
  have hepoch := hinv.epochs outcome houtcome _ hfirst
  exact ⟨row, hrow, Option.some.inj (hepoch.symm.trans hstored)⟩

/-- A round that stores nothing. -/
theorem OncePerEpoch.skip (hinv : OncePerEpoch table s) {outcome : Outcome}
    (hrewards : outcome.rewards = []) (hepoch : outcome.storedEpoch = none) :
    OncePerEpoch table ⟨s.table, s.outcomes ++ [outcome]⟩ := by
  have hepochs : (s.outcomes ++ [outcome]).filterMap Outcome.storedEpoch =
      s.outcomes.filterMap Outcome.storedEpoch := by
    rw [List.filterMap_append, List.filterMap_cons_none hepoch, List.filterMap_nil,
      List.append_nil]
  refine ⟨hinv.kept, ?_, fun outcome' houtcome' => ?_, ?_, ?_⟩
  · show s.table.rows.map storedReward = _
    rw [hinv.rows, List.flatMap_append, List.flatMap_singleton, hrewards, List.append_nil]
  · rcases List.mem_append.mp houtcome' with hold | hnew
    · exact hinv.epochs outcome' hold
    · obtain rfl := List.mem_singleton.mp hnew
      rw [hrewards]
      exact fun _ h => by cases h
  · show List.Pairwise _ _
    rw [hepochs]
    exact hinv.ascending
  · show ∀ epoch ∈ _, _
    rw [hepochs]
    exact hinv.new

/-- **Step lemma**: a round stores nothing, or rows of an epoch later than all others. -/
theorem OncePerEpoch.step (hinv : OncePerEpoch table s) (honward : CollectsOnward s round)
    (h : gateStep params s round = some s') : OncePerEpoch table s' := by
  obtain rfl := Option.some.inj h
  rcases collectStore_cases params honward with
    ⟨htable, hrewards, hepoch⟩ | ⟨snapshot, hlater, hstore⟩
  · rw [htable]
    exact hinv.skip hrewards hepoch
  · rw [hstore]
    have hrows : (round.store snapshot s.table).1.rows =
        s.table.rows ++ proposedRows snapshot.createdAt s.table.nextId
          (upsertedRecords round.faults round.scan snapshot s.table) :=
      rows_store hlater
    have hrecords : ∀ reward ∈ upsertedRecords round.faults round.scan snapshot s.table,
        reward.epoch = snapshot.epoch := fun reward hreward =>
      epoch_of_mem_records ((upsertedRecords_sublist _ _ _ _).subset hreward)
    generalize upsertedRecords round.faults round.scan snapshot s.table = upserted
      at hrows hrecords
    generalize committed round.faults (blockRewardsStatements round.scan snapshot) s.table =
      statements
    cases hupserted : upserted with
    | nil =>
      -- the first statement has failed
      rw [hupserted] at hrows
      have hsame : OncePerEpoch table ⟨(round.store snapshot s.table).1, s.outcomes⟩ := by
        refine ⟨?_, ?_, hinv.epochs, hinv.ascending, hinv.new⟩
        · show table.rows <+: _
          rw [hrows]
          exact hinv.kept.trans (List.prefix_append _ _)
        · show List.map _ (round.store snapshot s.table).1.rows = _
          rw [hrows, List.map_append, hinv.rows]
          exact List.append_nil _
      exact hsame.skip rfl rfl
    | cons reward rest =>
      rw [← hupserted]
      have hepoch : (Outcome.stored snapshot statements upserted
          (round.store snapshot s.table).2).storedEpoch = some snapshot.epoch := by
        rw [hupserted]
        rfl
      have hepochs : ∀ result,
          (s.outcomes ++ [Outcome.stored snapshot statements upserted result]).filterMap
            Outcome.storedEpoch =
          s.outcomes.filterMap Outcome.storedEpoch ++ [snapshot.epoch] := by
        intro result
        rw [List.filterMap_append, hupserted]
        rfl
      refine ⟨?_, ?_, fun outcome houtcome stored hstored => ?_, ?_, ?_⟩
      · show table.rows <+: (round.store snapshot s.table).1.rows
        rw [hrows]
        exact hinv.kept.trans (List.prefix_append _ _)
      · show List.map _ (round.store snapshot s.table).1.rows = _
        rw [hrows, List.map_append, hinv.rows, map_stored_proposedRows, List.flatMap_append,
          List.flatMap_singleton, List.append_assoc]
        rfl
      · rcases List.mem_append.mp houtcome with hold | hnew
        · exact hinv.epochs outcome hold stored hstored
        · obtain rfl := List.mem_singleton.mp hnew
          obtain ⟨reward', hreward', rfl⟩ := List.mem_map.mp hstored
          rw [hepoch]
          exact congrArg some (hrecords reward' hreward').symm
      · show List.Pairwise _ _
        rw [hepochs]
        refine List.pairwise_append.mpr ⟨hinv.ascending, List.pairwise_singleton _ _, ?_⟩
        intro epoch hold epoch' hnew
        obtain rfl := List.mem_singleton.mp hnew
        obtain ⟨row, hrow, rfl⟩ := hinv.exists_row hold
        exact hlater row hrow
      · show ∀ epoch ∈ _, _
        rw [hepochs]
        intro epoch hmem row hrow
        rcases List.mem_append.mp hmem with hold | hnew
        · exact hinv.new epoch hold row hrow
        · obtain rfl := List.mem_singleton.mp hnew
          exact hlater row (hinv.kept.subset hrow)

/-- **An epoch is collected once**: in every run of the job in which no collector asks a node
behind the one of its check, no row of the table is ever changed, every other row was stored by
one of the rounds, and each round that stores anything stores rows of one epoch, later than
every epoch that was in the table. -/
theorem blockRewards_once (params : JobParams) (table : BlockRewardsTable)
    (rounds : List RewardsRound)
    (honward : StepsAll (gateStep params) CollectsOnward (.init table) rounds) :
    StatesAll (gateStep params) (OncePerEpoch table) (.init table) rounds :=
  statesAll_of_stepsAll (fun _ _ _ hinv hok h => OncePerEpoch.step hinv hok h)
    (oncePerEpoch_init table) honward

/-! ## Interrupted stores -/

/-- A store is one of the collected records. -/
def Outcome.OfStore : Outcome → Prop
  | .stored snapshot statements upserted result =>
    ∃ (round : RewardsRound) (table : BlockRewardsTable),
    statements = committed round.faults (blockRewardsStatements round.scan snapshot) table ∧
      upserted = upsertedRecords round.faults round.scan snapshot table ∧
        result = (round.store snapshot table).2
  | _ => True

theorem ofStore_collectStore (params : JobParams) (table : BlockRewardsTable)
    (round : RewardsRound) : (collectStore params table round).2.OfStore := by
  unfold collectStore
  split
  · split
    · trivial
    · trivial
    · exact ⟨round, table, rfl, rfl, rfl⟩
  · trivial
  · trivial

/-- So are all stores of a run. -/
theorem ofStore_run (params : JobParams) (table : BlockRewardsTable) (rounds : List RewardsRound) :
    StatesAll (gateStep params) (fun s => ∀ outcome ∈ s.outcomes, outcome.OfStore)
      (.init table) rounds := by
  refine statesAll_of_invariant (fun s round s' hinv h => ?_) (fun _ h => by cases h) rounds
  obtain rfl := Option.some.inj h
  intro outcome houtcome
  rcases List.mem_append.mp houtcome with hold | hnew
  · exact hinv outcome hold
  · obtain rfl := List.mem_singleton.mp hnew
    exact ofStore_collectStore params s.table round

/-- The rows of an epoch are those of the round that has stored it. -/
theorem OncePerEpoch.rows_of_epoch (hinv : OncePerEpoch table s) {outcome : Outcome}
    (houtcome : outcome ∈ s.outcomes) {epoch : Nat} (hepoch : outcome.storedEpoch = some epoch) :
    ((s.table.rows.map storedReward).filter fun stored =>
      stored.reward.epoch = epoch) = outcome.rewards := by
  obtain ⟨before, after, hsplit⟩ := List.append_of_mem houtcome
  have hascending := hinv.ascending
  rw [hsplit, List.filterMap_append, List.filterMap_cons_some hepoch] at hascending
  obtain ⟨-, hafter, hbefore⟩ := List.pairwise_append.mp hascending
  -- rows that other rounds have stored
  have hother : ∀ outcomes : List Outcome, (∀ o ∈ outcomes, o ∈ s.outcomes) →
      (∀ e ∈ outcomes.filterMap Outcome.storedEpoch, e ≠ epoch) →
        ((outcomes.flatMap Outcome.rewards).filter fun stored =>
          stored.reward.epoch = epoch) = [] := by
    intro outcomes hmem hne
    refine List.filter_eq_nil_iff.mpr fun stored hstored => ?_
    obtain ⟨o, ho, hreward⟩ := List.mem_flatMap.mp hstored
    have hat := hinv.epochs o (hmem o ho) stored hreward
    simpa using hne _ (List.mem_filterMap.mpr ⟨o, ho, hat⟩)
  have htable : ((table.rows.map storedReward).filter fun stored =>
      stored.reward.epoch = epoch) = [] := by
    refine List.filter_eq_nil_iff.mpr fun stored hstored => ?_
    obtain ⟨row, hrow, rfl⟩ := List.mem_map.mp hstored
    have hlt := hinv.new epoch (List.mem_filterMap.mpr ⟨outcome, houtcome, hepoch⟩) row hrow
    have hne : row.epoch ≠ epoch := Nat.ne_of_lt hlt
    show ¬ decide (row.epoch = epoch) = true
    rwa [decide_eq_true_iff]
  have hself : (outcome.rewards.filter fun stored => stored.reward.epoch = epoch) =
      outcome.rewards := by
    refine List.filter_eq_self.mpr fun stored hstored => ?_
    have hat := hinv.epochs outcome houtcome stored hstored
    simpa using (Option.some.inj (hepoch.symm.trans hat)).symm
  rw [hinv.rows, hsplit, List.flatMap_append, List.flatMap_cons]
  simp only [List.filter_append]
  rw [htable, hself, hother before, hother after]
  · simp
  · exact fun o ho => hsplit ▸ List.mem_append_right _ (List.mem_cons_of_mem _ ho)
  · exact fun e he => Nat.ne_of_gt ((List.pairwise_cons.mp hafter).1 e he)
  · exact fun o ho => hsplit ▸ List.mem_append_left _ ho
  · exact fun e he => Nat.ne_of_lt (hbefore e he epoch List.mem_cons_self)

/-- **An interrupted store is never completed**: after every run of the job, the rows of an
epoch of which a round has stored some are exactly the records that this round had stored when
it ended. They cover all accounts of the collected snapshot if and only if the statements that
had committed then have room for all of them, as those of a store that succeeds have, however
many rounds followed. -/
theorem blockRewards_interrupted (params : JobParams) (table : BlockRewardsTable)
    (rounds : List RewardsRound) (s : GateState)
    (honward : StepsAll (gateStep params) CollectsOnward (.init table) rounds)
    (hrun : exec (gateStep params) (.init table) rounds = some s)
    (snapshot : ValidatorsBlockRewardsSnapshot) (statements : Nat)
    (upserted : List ValidatorBlockReward) (result : Except DbError Unit)
    (hstored : .stored snapshot statements upserted result ∈ s.outcomes) (hsome : upserted ≠ []) :
    ((s.table.rows.map storedReward).filter fun stored =>
        stored.reward.epoch = snapshot.epoch) =
      upserted.map (fun reward => ⟨reward, snapshot.createdAt, snapshot.createdAt⟩) ∧
    ((∀ k ∈ snapshotKeys snapshot, ∃ row ∈ s.table.rows, row.toBlockRewardsKey = k) ↔
      (snapshotKeys snapshot).dedup.length ≤ BLOCK_REWARDS_CHUNK_SIZE * statements) ∧
    (result = .ok () →
      (snapshotKeys snapshot).dedup.length ≤ BLOCK_REWARDS_CHUNK_SIZE * statements) := by
  have hinv : OncePerEpoch table s :=
    (statesAll_of_stepsAll (fun _ _ _ hinv hok h => OncePerEpoch.step hinv hok h)
      (oncePerEpoch_init table) honward).last hrun
  have hepoch : (Outcome.stored snapshot statements upserted result).storedEpoch =
      some snapshot.epoch := by
    cases upserted with
    | nil => exact absurd rfl hsome
    | cons reward rest => rfl
  have hrows := hinv.rows_of_epoch hstored hepoch
  obtain ⟨round, table', hstatements, hupserted, hresult⟩ :=
    (ofStore_run params table rounds).last hrun _ hstored
  refine ⟨hrows, ?_, fun hok => ?_⟩
  case refine_2 =>
    rw [← length_records round.scan, hstatements]
    exact length_records_le (hresult.symm.trans hok)
  have hall : upserted = records round.scan snapshot ↔
      (snapshotKeys snapshot).dedup.length ≤ BLOCK_REWARDS_CHUNK_SIZE * statements := by
    rw [hupserted, upsertedRecords_eq, ← hstatements, List.take_eq_self_iff, length_records]
  rw [← hall]
  have hsub := upsertedRecords_sublist round.faults round.scan snapshot table'
  rw [← hupserted] at hsub
  -- an account of the snapshot has a row exactly if its record was stored
  have hrow : ∀ k ∈ snapshotKeys snapshot, (∃ row ∈ s.table.rows, row.toBlockRewardsKey = k) ↔
      k ∈ upserted.map ValidatorBlockReward.toBlockRewardsKey := by
    intro k hk
    have hat : k.epoch = snapshot.epoch := by
      obtain ⟨r, -, rfl⟩ := List.mem_map.mp hk
      rfl
    have hmem : ∀ stored : StoredReward, stored.reward.toBlockRewardsKey = k →
        (stored ∈ s.table.rows.map storedReward ↔ stored ∈
          (Outcome.stored snapshot statements upserted result).rewards) := by
      intro stored hkey
      have hepoch' : stored.reward.epoch = snapshot.epoch :=
        (congrArg BlockRewardsKey.epoch hkey).trans hat
      rw [← hrows, List.mem_filter]
      simp [hepoch']
    constructor
    · rintro ⟨row, hrow, hkey⟩
      have hin := (hmem (storedReward row) hkey).mp (List.mem_map_of_mem hrow)
      obtain ⟨reward, hreward, heq⟩ := List.mem_map.mp hin
      have hkey' : reward.toBlockRewardsKey = row.toBlockRewardsKey :=
        congrArg (fun stored => stored.reward.toBlockRewardsKey) heq
      exact List.mem_map.mpr ⟨reward, hreward, hkey'.trans hkey⟩
    · intro hin
      obtain ⟨reward, hreward, hkey⟩ := List.mem_map.mp hin
      obtain ⟨row, hrow, heq⟩ := List.mem_map.mp
        ((hmem ⟨reward, snapshot.createdAt, snapshot.createdAt⟩ hkey).mpr
          (List.mem_map.mpr ⟨reward, hreward, rfl⟩))
      exact ⟨row, hrow, (congrArg (fun stored => stored.reward.toBlockRewardsKey) heq).trans hkey⟩
  constructor
  · intro hall
    -- as many records as there are distinct keys
    refine hsub.eq_of_length_le ?_
    have hkeys : (records round.scan snapshot).map ValidatorBlockReward.toBlockRewardsKey ⊆
        upserted.map ValidatorBlockReward.toBlockRewardsKey := fun k hk =>
      (hrow k (mem_keys_records.mp hk)).mp (hall k (mem_keys_records.mp hk))
    have hle := ((nodup_records round.scan snapshot).subperm hkeys).length_le
    rwa [List.length_map, List.length_map] at hle
  · intro hall k hk
    rw [hrow k hk, hall]
    exact mem_keys_records.mpr hk

end Runs

/-! ### Several rounds -/

/-- The rounds of a job keep what the earlier ones have done. -/
theorem exists_exec_gateStep (params : JobParams) (s : GateState) (rounds : List RewardsRound) :
    ∃ s', exec (gateStep params) s rounds = some s' ∧ s.outcomes <+: s'.outcomes := by
  induction rounds generalizing s with
  | nil => exact ⟨s, rfl, List.prefix_refl _⟩
  | cons round rounds ih =>
    obtain ⟨s', hrun, hkept⟩ := ih ⟨(collectStore params s.table round).1,
      s.outcomes ++ [(collectStore params s.table round).2]⟩
    exact ⟨s', hrun, (List.prefix_append _ _).trans hkept⟩

theorem exists_run (params : JobParams) (table : BlockRewardsTable) (round : RewardsRound)
    (rounds : List RewardsRound) :
    ∃ s, exec (gateStep params) (.init table) (round :: rounds) = some s ∧
      (collectStore params table round).2 ∈ s.outcomes := by
  obtain ⟨s, hrun, hkept⟩ := exists_exec_gateStep params
    ⟨(collectStore params table round).1, [(collectStore params table round).2]⟩ rounds
  exact ⟨s, hrun, hkept.subset (List.mem_singleton_self _)⟩

/-- Defaults of the two programs. -/
def defaultParams : JobParams := ⟨10000, 10, 12⟩

/-- A round in which the check and the collector read the same epoch info. -/
def rewardsRoundAt (info : EpochInfo) (table : List BlockRewardsEtlRow)
    (fault : Nat → Option DbError) : RewardsRound where
  observed := some info
  collection := some ⟨info, 0, .sequential, table⟩
  scan := .sequential
  fault := fault
  lost := fun _ => none

theorem rewardsRoundAt_onward (s : GateState) (info : EpochInfo) (table : List BlockRewardsEtlRow)
    (fault : Nat → Option DbError) : CollectsOnward s (rewardsRoundAt info table fault) := by
  intro observed c hobserved hcollection
  obtain rfl := Option.some.inj hobserved
  obtain rfl := Option.some.inj hcollection
  exact Nat.le_refl _

/-- A round at slot 20000 of the epoch 801 in which all goes well. -/
def undisturbed : RewardsRound := rewardsRoundAt ⟨801, 20000⟩ twoVotersTable fun _ => none

theorem blockRewards_once_again :
    StatesAll (gateStep defaultParams) (OncePerEpoch .empty) (.init .empty)
      [undisturbed, undisturbed] :=
  blockRewards_once defaultParams .empty _ (StepsAll.of_forall fun round hround s => by
    obtain rfl := List.eq_of_mem_replicate (n := 2) hround
    exact rewardsRoundAt_onward s _ _ _)

/-- A row of epoch 800 for each index. -/
def voterRow (i : Nat) : BlockRewardsEtlRow where
  epoch := 800
  identityAccount := "identity"
  voteAccount := String.ofList (List.replicate i '1')
  amount := "5000000"
  authorizedVoter := "voter"

def voterReward (i : Nat) : ValidatorBlockRewards where
  identityAccount := "identity"
  voteAccount := String.ofList (List.replicate i '1')
  authorizedVoter := "voter"
  amount := 5000000

/-- The snapshot of the rows of some indices. -/
def voters (indices : List Nat) : ValidatorsBlockRewardsSnapshot where
  epoch := 800
  createdAt := 0
  blockRewards := indices.map voterReward

theorem queryVoters (indices : List Nat) :
    queryValidatorBlockRewards .sequential (indices.map voterRow) 800 =
      some (indices.map voterReward) := by
  have hfilter : ((indices.map voterRow).filter fun row => row.epoch = 800) =
      indices.map voterRow := by
    refine List.filter_eq_self.mpr fun row hrow => ?_
    obtain ⟨i, -, rfl⟩ := List.mem_map.mp hrow
    rfl
  have hamount : parseU64 "5000000" = some 5000000 := by decide
  have hparse : ∀ i, (voterRow i).parse = some (voterReward i) := by
    intro i
    show (parseU64 "5000000").map _ = _
    rw [hamount]
    rfl
  unfold queryValidatorBlockRewards
  rw [hfilter]
  show (indices.map voterRow).mapM BlockRewardsEtlRow.parse = _
  induction indices with
  | nil => rfl
  | cons i indices ih =>
    rw [List.map_cons, List.mapM_cons, hparse, ih (by simp [voterRow])]
    rfl

theorem collect_voters {indices : List Nat} (hlength : 10 < indices.length) :
    collect defaultParams ⟨⟨801, 20000⟩, 0, .sequential, indices.map voterRow⟩ =
      some (some (voters indices)) := by
  have hlimit : 10 < (indices.map voterReward).length := by
    rw [List.length_map]
    exact hlength
  have hcollect : collectValidatorBlockRewardsInfo ⟨10, none, 12⟩ 0 801 20000 .sequential
      (indices.map voterRow) = .ok (some (voters indices)) :=
    collect_of_query (queryVoters indices) hlimit
  exact congrArg Except.toOption hcollect

theorem length_voters {indices : List Nat} (hnodup : indices.Nodup) :
    (snapshotKeys (voters indices)).dedup.length = indices.length := by
  have hkeys : snapshotKeys (voters indices) = indices.map fun i =>
      ⟨800, "identity", String.ofList (List.replicate i '1')⟩ := by
    show (indices.map voterReward).map _ = _
    rw [List.map_map]
    rfl
  have hdistinct : (snapshotKeys (voters indices)).Nodup := by
    rw [hkeys]
    refine hnodup.map fun i j h => ?_
    have hlength := congrArg (fun k => k.voteAccount.length) h
    simpa using hlength
  rw [List.dedup_eq_self.mpr hdistinct, hkeys, List.length_map]

/-- The connection is lost before the second statement. -/
def halfway (indices : List Nat) : RewardsRound :=
  rewardsRoundAt ⟨801, 20000⟩ (indices.map voterRow) (stopAt 1 .connection)

/-- One statement of the interrupted store commits. -/
theorem committed_halfway {indices : List Nat} (hnodup : indices.Nodup)
    (hlength : BLOCK_REWARDS_CHUNK_SIZE < indices.length) :
    committed (halfway indices).faults (blockRewardsStatements .sequential (voters indices))
      .empty = 1 := by
  have hrecords : (records .sequential (voters indices)).length = indices.length :=
    (length_records _ _).trans (length_voters hnodup)
  have hchunks : 1 < (blockRewardsStatements .sequential (voters indices)).length := by
    have hall := congrArg List.length (take_length_chunks (n := BLOCK_REWARDS_CHUNK_SIZE)
      (by decide) (records .sequential (voters indices)))
    rw [List.length_take, hrecords] at hall
    rw [blockRewardsStatements, List.length_map]
    by_contra hfew
    have hroom := Nat.mul_le_mul_left BLOCK_REWARDS_CHUNK_SIZE (not_lt.mp hfew)
    omega
  have hdistinct : (((chunks BLOCK_REWARDS_CHUNK_SIZE
      (records .sequential (voters indices))).take 1).flatten.map
        ValidatorBlockReward.toBlockRewardsKey).Nodup := by
    rw [chunks_take_flatten (by decide)]
    exact (nodup_records _ (voters indices)).sublist ((List.take_sublist _ _).map _)
  have hcommit := (byChunks_upsertRewards (voters indices).createdAt).commitAll_eq hdistinct .empty
  rw [List.map_take] at hcommit
  have hfaults : (halfway indices).faults = stopAt 1 .connection := faultsOf_none _
  rw [hfaults]
  exact committed_stopAt hchunks hcommit _

/-- The rounds after the interruption: in the same epoch, and in the next one. -/
def afterwards (indices : List Nat) : List RewardsRound :=
  [rewardsRoundAt ⟨801, 25000⟩ (indices.map voterRow) fun _ => none,
    rewardsRoundAt ⟨802, 20000⟩ (twoVotersTable.map fun row => { row with epoch := 801 })
      fun _ => none]

/-- One of 501 accounts never gets its row. -/
theorem blockRewards_interrupted_halfway : ∃ (s : GateState)
    (upserted : List ValidatorBlockReward),
    exec (gateStep defaultParams) (.init .empty)
        (halfway (List.range 501) :: afterwards (List.range 501)) = some s ∧
      upserted.length = BLOCK_REWARDS_CHUNK_SIZE ∧
      ((s.table.rows.map storedReward).filter fun stored => stored.reward.epoch = 800) =
        upserted.map (fun reward => ⟨reward, 0, 0⟩) ∧
      ¬ ∀ k ∈ snapshotKeys (voters (List.range 501)),
        ∃ row ∈ s.table.rows, row.toBlockRewardsKey = k := by
  have hnodup : (List.range 501).Nodup := List.nodup_range
  have hlength : (List.range 501).length = BLOCK_REWARDS_CHUNK_SIZE + 1 := List.length_range
  -- nothing below depends on the indices themselves
  generalize List.range 501 = indices at hnodup hlength
  have hpos : 10 < BLOCK_REWARDS_CHUNK_SIZE := by decide
  have hcollect : (halfway indices).collection.bind (collect defaultParams) =
      some (some (voters indices)) := by
    rw [halfway, rewardsRoundAt, Option.bind_some]
    exact collect_voters (by omega)
  have hcommitted := committed_halfway hnodup (by omega)
  have hround : (collectStore defaultParams .empty (halfway indices)).2 =
      .stored (voters indices) 1
        (upsertedRecords (halfway indices).faults .sequential (voters indices) .empty)
        ((halfway indices).store (voters indices) .empty).2 := by
    unfold collectStore
    rw [show exitCode (checkBlockRewards defaultParams.slotOffsetWait .empty
      (halfway indices).observed) = 0 from rfl, hcollect, ← hcommitted]
    rfl
  have hupserted : (upsertedRecords (halfway indices).faults .sequential (voters indices)
      .empty).length = BLOCK_REWARDS_CHUNK_SIZE := by
    rw [upsertedRecords_eq, hcommitted, List.length_take, length_records, length_voters hnodup]
    omega
  obtain ⟨s, hrun, hmem⟩ := exists_run defaultParams .empty (halfway indices) (afterwards indices)
  obtain ⟨hrows, hcovered, -⟩ := blockRewards_interrupted defaultParams .empty
    (halfway indices :: afterwards indices) s
    (StepsAll.of_forall fun round hround s => by
      simp only [afterwards, List.mem_cons, List.not_mem_nil, or_false] at hround
      rcases hround with rfl | rfl | rfl
      · exact rewardsRoundAt_onward s _ _ _
      · exact rewardsRoundAt_onward s _ _ _
      · exact rewardsRoundAt_onward s _ _ _)
    hrun (voters indices) 1 _ _ (hround ▸ hmem) (List.ne_nil_of_length_pos (by omega))
  refine ⟨s, _, hrun, hupserted, hrows, fun hall => ?_⟩
  have hle := hcovered.mp hall
  rw [length_voters hnodup] at hle
  omega

end DelegationStrategy.Check
