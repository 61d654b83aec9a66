import DelegationStrategy.Store.Jito
import Mathlib.Algebra.Order.Ring.Rat
import Mathlib.Tactic.Linarith

/-!
# When Jito accounts are collected

`check_jito` (`check/src/validators_jito.rs`) decides whether the accounts are collected and
stored now (`scripts/check-collect-store-jito.bash`). The table has the epoch *before* the one
in which a collection ran, and the slot index at which it ran. A new epoch is collected at
once, the recorded one again after a number of slots.

The slots are compared whatever the epochs are, so a node that lags behind the last
collection by an epoch can make the check pass (`BehindRecorded`); without that the gate is
exact, and collections of one epoch are the interval apart in every run (`jitoGate_iff`).
-/

namespace DelegationStrategy.Check

open DelegationStrategy.Lib DelegationStrategy.Collect DelegationStrategy.Store

variable {C : Type}

/-! ## `check_jito` -/

/-- What the RPC node reports, as far as it is compared. -/
structure EpochInfo where
  epoch : Nat
  slotIndex : Nat
  deriving DecidableEq, Repr

/-- `SELECT epoch, MAX(epoch_slot) … WHERE epoch = (SELECT MAX(epoch) …) GROUP BY epoch`. -/
def lastRecorded (table : List (JitoRow C)) : Option (Nat × Nat) :=
  (table.map JitoRow.epoch).max?.bind fun epoch =>
    ((table.filter fun row => row.epoch = epoch).map JitoRow.epochSlot).max?.map fun epochSlot =>
      (epoch, epochSlot)

/-- `check_jito`; the node is asked only if there is something recorded. -/
def checkJito {ε : Type} (executionIntervalSlots : Rat) (table : List (JitoRow C))
    (getEpochInfo : Except ε EpochInfo) : Except ε Bool :=
  match lastRecorded table with
  | none => .ok true
  | some (sqlEpoch, sqlSlotIndex) =>
    getEpochInfo.map fun epochData =>
      if (sqlEpoch : Int) < epochData.epoch - 1 then true
      else
        let slotsDiff := (epochData.slotIndex : Rat) - sqlSlotIndex
        decide (executionIntervalSlots ≤ slotsDiff)

/-- A collection is due: nothing is recorded, or an earlier epoch, or the interval has passed
since the last collection for the same epoch. -/
def Due (executionIntervalSlots : Rat) (table : List (JitoRow C)) (observed : EpochInfo) : Prop :=
  ∀ epoch epochSlot, lastRecorded table = some (epoch, epochSlot) →
    (epoch : Int) < observed.epoch - 1 ∨
      ((epoch : Int) = observed.epoch - 1 ∧
        epochSlot + executionIntervalSlots ≤ observed.slotIndex)

/-- The node is an epoch behind the last collection, at a slot that is the interval ahead. -/
def BehindRecorded (executionIntervalSlots : Rat) (table : List (JitoRow C))
    (observed : EpochInfo) : Prop :=
  ∃ epoch epochSlot, lastRecorded table = some (epoch, epochSlot) ∧
    (observed.epoch : Int) - 1 < epoch ∧ epochSlot + executionIntervalSlots ≤ observed.slotIndex

section Check

variable {executionIntervalSlots : Rat} {table : List (JitoRow C)} {observed : EpochInfo}

theorem lastRecorded_eq_none_iff : lastRecorded table = none ↔ table = [] := by
  constructor
  · intro h
    by_contra hne
    obtain ⟨epoch, hepoch⟩ : ∃ epoch, (table.map JitoRow.epoch).max? = some epoch :=
      Option.ne_none_iff_exists'.mp fun hnone =>
        hne (List.map_eq_nil_iff.mp (List.max?_eq_none_iff.mp hnone))
    obtain ⟨row, hrow, hat⟩ := List.mem_map.mp (List.max?_mem hepoch)
    rw [lastRecorded, hepoch, Option.bind_some, Option.map_eq_none_iff, List.max?_eq_none_iff,
      List.map_eq_nil_iff, List.filter_eq_nil_iff] at h
    exact h row hrow (by simpa using hat)
  · rintro rfl
    rfl

/-- The recorded slot is the greatest of the greatest epoch. -/
theorem lastRecorded_eq_some {epoch epochSlot : Nat}
    (h : lastRecorded table = some (epoch, epochSlot)) :
    (∃ row ∈ table, row.epoch = epoch ∧ row.epochSlot = epochSlot) ∧
      (∀ row ∈ table, row.epoch ≤ epoch) ∧
      ∀ row ∈ table, row.epoch = epoch → row.epochSlot ≤ epochSlot := by
  obtain ⟨epoch', hepoch, hrest⟩ := Option.bind_eq_some_iff.mp h
  obtain ⟨slot, hslot, heq⟩ := Option.map_eq_some_iff.mp hrest
  obtain ⟨rfl, rfl⟩ := Prod.mk.inj heq
  obtain ⟨row, hrow, hat⟩ := List.mem_map.mp (List.max?_mem hslot)
  obtain ⟨hmem, hsame⟩ := List.mem_filter.mp hrow
  refine ⟨⟨row, hmem, by simpa using hsame, hat⟩, fun row' hrow' => ?_, fun row' hrow' hat' => ?_⟩
  · exact (List.max?_eq_some_iff.mp hepoch).2 _ (List.mem_map_of_mem hrow')
  · exact (List.max?_eq_some_iff.mp hslot).2 _
      (List.mem_map_of_mem (List.mem_filter.mpr ⟨hrow', by simpa using hat'⟩))

theorem checkJito_of_recorded {ε : Type} {epoch epochSlot : Nat}
    (h : lastRecorded table = some (epoch, epochSlot)) :
    checkJito executionIntervalSlots table (.ok observed : Except ε EpochInfo) = .ok true ↔
      (epoch : Int) < observed.epoch - 1 ∨
        epochSlot + executionIntervalSlots ≤ observed.slotIndex := by
  simp only [checkJito, h, Except.map, Except.ok.injEq]
  split
  · rename_i hlt
    simp [hlt]
  · rename_i hlt
    rw [decide_eq_true_iff, le_sub_iff_add_le']
    simp [hlt]

/-- **When the check passes**: a collection is due, or the node lags. -/
theorem checkJito_eq_true_iff {ε : Type} :
    checkJito executionIntervalSlots table (.ok observed : Except ε EpochInfo) = .ok true ↔
      Due executionIntervalSlots table observed ∨
        BehindRecorded executionIntervalSlots table observed := by
  cases hrecorded : lastRecorded table with
  | none => simp [checkJito, Due, hrecorded]
  | some recorded =>
    obtain ⟨epoch, epochSlot⟩ := recorded
    have hdue : Due executionIntervalSlots table observed ↔
        (epoch : Int) < observed.epoch - 1 ∨ ((epoch : Int) = observed.epoch - 1 ∧
          epochSlot + executionIntervalSlots ≤ observed.slotIndex) := by
      simp [Due, hrecorded]
    have hbehind : BehindRecorded executionIntervalSlots table observed ↔
        (observed.epoch : Int) - 1 < epoch ∧
          epochSlot + executionIntervalSlots ≤ observed.slotIndex := by
      simp [BehindRecorded, hrecorded]
    rw [checkJito_of_recorded hrecorded, hdue, hbehind]
    -- one of the three relations between the epochs
    rcases lt_trichotomy (epoch : Int) (observed.epoch - 1) with hlt | heq | hgt
    · exact iff_of_true (Or.inl hlt) (Or.inl (Or.inl hlt))
    · simp [heq]
    · simp [hgt, hgt.not_gt, hgt.ne']

/-- What is due and what lags exclude each other. -/
theorem not_due_of_behindRecorded (h : BehindRecorded executionIntervalSlots table observed) :
    ¬ Due executionIntervalSlots table observed := by
  obtain ⟨epoch, epochSlot, hrecorded, hbehind, -⟩ := h
  intro hdue
  rcases hdue epoch epochSlot hrecorded with hlt | ⟨heq, -⟩ <;> omega

end Check

/-! ## The store after the check -/

/-- `store_mev` or `store_priority_fee`, undisturbed. -/
def storeJito (scan : Scan) (args : JitoArgs C) (table : List (JitoRow C)) : List (JitoRow C) :=
  (args.statements (getExistingVoteAccounts scan table args.snapshotEpoch)).foldl
    JitoStatement.execute table

/-- The statement writes rows of the epoch and with the slot of the snapshot. -/
def StatementOf (args : JitoArgs C) : JitoStatement C → Prop
  | .update infos slot =>
    slot = args.snapshotLoadedAtSlotIndex ∧ ∀ v ∈ infos, v.epoch = args.snapshotEpoch
  | .insert rows => ∀ row ∈ rows,
    row.epoch = args.snapshotEpoch ∧ row.epochSlot = args.snapshotLoadedAtSlotIndex

section Store

variable {args : JitoArgs C} {table : List (JitoRow C)} {existing : List String}

theorem statementOf_statements {statement : JitoStatement C}
    (h : statement ∈ args.statements existing) : StatementOf args statement := by
  rcases List.mem_append.mp h with h | h
  · obtain ⟨chunk, -, rfl⟩ := List.mem_map.mp h
    refine ⟨rfl, fun v hv => ?_⟩
    obtain ⟨voteAccount, -, hget⟩ := List.mem_filterMap.mp hv
    exact args.epochs _ (Dict.mem_of_get? hget)
  · obtain ⟨chunk, -, rfl⟩ := List.mem_map.mp h
    intro row hrow
    obtain ⟨e, -, rfl⟩ := List.mem_map.mp hrow
    exact ⟨rfl, rfl⟩

/-- A statement keeps every row in its epoch; its slot stays or becomes that of the snapshot. -/
theorem row_execute {statement : JitoStatement C} (h : StatementOf args statement)
    {row : JitoRow C} (hrow : row ∈ table) :
    ∃ row' ∈ statement.execute table, row'.epoch = row.epoch ∧
      (row'.epochSlot = row.epochSlot ∨
        (row.epoch = args.snapshotEpoch ∧ row'.epochSlot = args.snapshotLoadedAtSlotIndex)) := by
  cases statement with
  | insert rows => exact ⟨row, List.mem_append_left _ hrow, rfl, Or.inl rfl⟩
  | update infos slot =>
    obtain ⟨rfl, hepochs⟩ := h
    refine ⟨updateJito infos args.snapshotLoadedAtSlotIndex row, List.mem_map_of_mem hrow, ?_⟩
    unfold updateJito
    cases hfind : infos.find? fun v => v.voteAccount = row.voteAccount ∧ v.epoch = row.epoch with
    | none => exact ⟨rfl, Or.inl rfl⟩
    | some v =>
      have hv : v.voteAccount = row.voteAccount ∧ v.epoch = row.epoch := by
        simpa using List.find?_some hfind
      exact ⟨hv.2, Or.inr ⟨hv.2.symm.trans (hepochs v (List.mem_of_find?_eq_some hfind)), rfl⟩⟩

/-- So do the statements of a command. -/
theorem row_foldl {statements : List (JitoStatement C)}
    (h : ∀ statement ∈ statements, StatementOf args statement) {row : JitoRow C}
    (hrow : row ∈ table) :
    ∃ row' ∈ statements.foldl JitoStatement.execute table, row'.epoch = row.epoch ∧
      (row'.epochSlot = row.epochSlot ∨
        (row.epoch = args.snapshotEpoch ∧ row'.epochSlot = args.snapshotLoadedAtSlotIndex)) := by
  induction statements generalizing table row with
  | nil => exact ⟨row, hrow, rfl, Or.inl rfl⟩
  | cons statement rest ih =>
    obtain ⟨row₁, hrow₁, hepoch₁, hslot₁⟩ := row_execute (h statement List.mem_cons_self) hrow
    obtain ⟨row₂, hrow₂, hepoch₂, hslot₂⟩ :=
      ih (fun s hs => h s (List.mem_cons_of_mem _ hs)) hrow₁
    refine ⟨row₂, hrow₂, hepoch₂.trans hepoch₁, ?_⟩
    rcases hslot₂ with hslot₂ | ⟨hat, hslot₂⟩
    · exact hslot₁.imp hslot₂.trans fun ⟨hat, hslot⟩ => ⟨hat, hslot₂.trans hslot⟩
    · exact Or.inr ⟨hepoch₁.symm.trans hat, hslot₂⟩

theorem key_mem_foldl (statements : List (JitoStatement C)) {key : String × Nat}
    (h : key ∈ table.map JitoRow.key) :
    key ∈ (statements.foldl JitoStatement.execute table).map JitoRow.key := by
  induction statements generalizing table with
  | nil => exact h
  | cons statement rest ih =>
    refine ih ?_
    rw [keys_execute]
    exact List.mem_append_left _ h

/-- The `UPDATE` with a validator of the snapshot changes its rows of the epoch. -/
theorem updateJito_of_mem {infos : List (JitoInfo C)} {v : JitoInfo C} (hv : v ∈ infos)
    (slot : Nat) {row : JitoRow C} (hkey : row.key = (v.voteAccount, v.epoch)) :
    (updateJito infos slot row).epochSlot = slot := by
  obtain ⟨hvote, hepoch⟩ := Prod.mk.inj hkey
  unfold updateJito
  cases hfind : infos.find? fun v => v.voteAccount = row.voteAccount ∧ v.epoch = row.epoch with
  | none => exact absurd hfind (by simpa using ⟨v, hv, hvote.symm, hepoch.symm⟩)
  | some v' => rfl

/-- The row of a validator of the snapshot is updated or inserted. -/
theorem exists_row_statement (scan : Scan) {entry : String × JitoInfo C}
    (hentry : entry ∈ args.validators.entries) :
    ∃ before statement after,
      args.statements (getExistingVoteAccounts scan table args.snapshotEpoch) =
        before ++ statement :: after ∧
      ∃ row ∈ statement.execute (before.foldl JitoStatement.execute table),
        row.epoch = args.snapshotEpoch ∧ row.epochSlot = args.snapshotLoadedAtSlotIndex := by
  have hpos : 0 < JitoArgs.DEFAULT_CHUNK_SIZE := by decide
  have hvote := args.voteAccounts entry hentry
  by_cases hexisting : entry.1 ∈ getExistingVoteAccounts scan table args.snapshotEpoch
  · -- one of the updates has the validator
    have hmem := hexisting
    rw [← chunks_flatten hpos (getExistingVoteAccounts scan table args.snapshotEpoch)] at hmem
    obtain ⟨chunk, hchunk, hin⟩ := List.mem_flatten.mp hmem
    obtain ⟨before, after, hsplit⟩ := List.append_of_mem
      (List.mem_append_left ((chunks JitoArgs.DEFAULT_CHUNK_SIZE (args.executions
        (getExistingVoteAccounts scan table args.snapshotEpoch))).map fun chunk =>
          JitoStatement.insert ((chunk.filter fun e => e.1 ∉ args.updatedIdentities
            (getExistingVoteAccounts scan table args.snapshotEpoch)).map fun e => args.row e.2))
        (List.mem_map.mpr ⟨chunk, hchunk, rfl⟩))
    obtain ⟨row, hrow, hkey⟩ := List.mem_map.mp
      (key_mem_foldl before ((mem_getExistingVoteAccounts scan).mp hexisting))
    have hinfo : entry.2 ∈ chunk.filterMap args.validators.get? :=
      List.mem_filterMap.mpr ⟨entry.1, hin, Dict.get?_of_mem hentry⟩
    have hkey' : row.key = (entry.2.voteAccount, entry.2.epoch) := by
      rw [hkey, hvote, args.epochs entry hentry]
    refine ⟨before, _, after, hsplit, _, List.mem_map_of_mem hrow, ?_,
      updateJito_of_mem hinfo _ hkey'⟩
    have hsame := updateJito_key (chunk.filterMap args.validators.get?)
      args.snapshotLoadedAtSlotIndex row
    exact (Prod.mk.inj (hsame.trans hkey)).2
  · -- one of the inserts has the validator
    have hnew : entry.1 ∉ args.updatedIdentities
        (getExistingVoteAccounts scan table args.snapshotEpoch) :=
      fun h => hexisting (List.mem_filter.mp h).1
    have hmem : entry ∈ args.executions
        (getExistingVoteAccounts scan table args.snapshotEpoch) :=
      List.mem_filter.mpr ⟨hentry, by simpa using hnew⟩
    rw [← chunks_flatten hpos (args.executions _)] at hmem
    obtain ⟨chunk, hchunk, hin⟩ := List.mem_flatten.mp hmem
    obtain ⟨before, after, hsplit⟩ := List.append_of_mem
      (List.mem_append_right ((chunks JitoArgs.DEFAULT_CHUNK_SIZE
        (getExistingVoteAccounts scan table args.snapshotEpoch)).map fun chunk =>
          JitoStatement.update (chunk.filterMap args.validators.get?)
            args.snapshotLoadedAtSlotIndex)
        (List.mem_map.mpr ⟨chunk, hchunk, rfl⟩))
    refine ⟨before, _, after, hsplit, args.row entry.2, List.mem_append_right _ ?_, rfl, rfl⟩
    exact List.mem_map.mpr ⟨entry, List.mem_filter.mpr ⟨hin, by simpa using hnew⟩, rfl⟩

/-- **A non-empty snapshot leaves its slot** in the table. -/
theorem exists_row_storeJito (scan : Scan) (hne : args.validators.entries ≠ []) :
    ∃ row ∈ storeJito scan args table,
      row.epoch = args.snapshotEpoch ∧ row.epochSlot = args.snapshotLoadedAtSlotIndex := by
  obtain ⟨entry, hentry⟩ := List.exists_mem_of_ne_nil _ hne
  obtain ⟨before, statement, after, hsplit, row, hrow, hepoch, hslot⟩ :=
    exists_row_statement scan hentry
  have hafter : ∀ statement ∈ after, StatementOf args statement := by
    intro later hlater
    have hmem : later ∈ args.statements
        (getExistingVoteAccounts scan table args.snapshotEpoch) := by
      rw [hsplit]
      exact List.mem_append_right _ (List.mem_cons_of_mem _ hlater)
    exact statementOf_statements hmem
  obtain ⟨row', hrow', hepoch', hslot'⟩ := row_foldl hafter hrow
  refine ⟨row', ?_, hepoch'.trans hepoch, hslot'.elim (fun h => h.trans hslot) And.right⟩
  unfold storeJito
  rw [hsplit, List.foldl_append, List.foldl_cons]
  exact hrow'

end Store

/-! ## Runs of the job -/

/-- The table, and where on chain the collections ran that were stored. -/
structure JobState (C : Type) where
  table : List (JitoRow C)
  stored : List EpochInfo

def JobState.init (table : List (JitoRow C)) : JobState C := ⟨table, []⟩

/-- One run of the job: what the check observes, and the snapshot that is collected and stored
if it passes. -/
structure JobRound (C : Type) where
  observed : EpochInfo
  scan : Scan
  args : JitoArgs C

/-- Where on chain the snapshot was collected: it has the epoch before. -/
def JobRound.collectedAt (round : JobRound C) : EpochInfo :=
  ⟨round.args.snapshotEpoch + 1, round.args.snapshotLoadedAtSlotIndex⟩

def jobStep (executionIntervalSlots : Rat) (s : JobState C) (round : JobRound C) :
    Option (JobState C) :=
  match checkJito executionIntervalSlots s.table (.ok round.observed : Except Unit EpochInfo) with
  | .ok true =>
    if round.args.validators.entries.isEmpty then none
    else some ⟨storeJito round.scan round.args s.table, s.stored ++ [round.collectedAt]⟩
  | _ => some s

/-- Stores within one on-chain epoch are the interval apart. -/
def Apart (executionIntervalSlots : Rat) (s : JobState C) : Prop :=
  s.stored.Pairwise fun earlier later => earlier.epoch = later.epoch →
    earlier.slotIndex + executionIntervalSlots ≤ later.slotIndex

/-- A check that passes is not passed by a lagging node, and the collection runs at what the
check observed or later. -/
def ObservesOnward (executionIntervalSlots : Rat) (s : JobState C) (round : JobRound C) : Prop :=
  checkJito executionIntervalSlots s.table (.ok round.observed : Except Unit EpochInfo) =
      .ok true →
    ¬ BehindRecorded executionIntervalSlots s.table round.observed ∧
      (round.observed.epoch < round.collectedAt.epoch ∨
        (round.observed.epoch = round.collectedAt.epoch ∧
          round.observed.slotIndex ≤ round.collectedAt.slotIndex))

/-- Every collection that was stored is still in the table, at its slot or a later one. -/
structure JobInv (executionIntervalSlots : Rat) (s : JobState C) : Prop where
  recorded : ∀ collected ∈ s.stored, ∃ row ∈ s.table,
    row.epoch + 1 = collected.epoch ∧ collected.slotIndex ≤ row.epochSlot
  apart : Apart executionIntervalSlots s

section Runs

variable {executionIntervalSlots : Rat} {s s' : JobState C} {round : JobRound C}

/-- **What a step does.** -/
theorem jobStep_cases (h : jobStep executionIntervalSlots s round = some s') :
    s' = s ∨
      (checkJito executionIntervalSlots s.table (.ok round.observed : Except Unit EpochInfo) =
          .ok true ∧ round.args.validators.entries ≠ [] ∧
        s' = ⟨storeJito round.scan round.args s.table, s.stored ++ [round.collectedAt]⟩) := by
  unfold jobStep at h
  split at h
  · rename_i hcheck
    obtain ⟨hne, hsome⟩ := Option.ite_none_left_eq_some.mp h
    exact Or.inr ⟨hcheck, by simpa using hne, (Option.some.inj hsome).symm⟩
  · exact Or.inl (Option.some.inj h).symm

/-- Under the condition a collection is at least the interval after every row of its epoch. -/
theorem le_collectedAt
    (hok : ObservesOnward executionIntervalSlots s round)
    (hcheck : checkJito executionIntervalSlots s.table
      (.ok round.observed : Except Unit EpochInfo) = .ok true)
    {row : JitoRow C} (hrow : row ∈ s.table) (hepoch : row.epoch = round.args.snapshotEpoch) :
    row.epochSlot + executionIntervalSlots ≤ round.args.snapshotLoadedAtSlotIndex := by
  obtain ⟨hbehind, honward⟩ := hok hcheck
  have hdue := (checkJito_eq_true_iff.mp hcheck).resolve_right hbehind
  cases hrecorded : lastRecorded s.table with
  | none =>
    rw [lastRecorded_eq_none_iff.mp hrecorded] at hrow
    cases hrow
  | some recorded =>
    obtain ⟨epoch, epochSlot⟩ := recorded
    obtain ⟨-, hle, hslots⟩ := lastRecorded_eq_some hrecorded
    have hrowLe := hle row hrow
    simp only [JobRound.collectedAt] at honward
    rcases hdue epoch epochSlot hrecorded with hlt | ⟨heq, hinterval⟩
    · -- a later epoch than all rows
      rcases honward with honward | ⟨honward, -⟩ <;> omega
    · rcases honward with honward | ⟨hsame, hslot⟩
      · omega
      · -- the recorded epoch once more
        have hrowSlot : (row.epochSlot : Rat) ≤ epochSlot :=
          Nat.cast_le.mpr (hslots row hrow (by omega))
        have hcollected : (round.observed.slotIndex : Rat) ≤
            round.args.snapshotLoadedAtSlotIndex := Nat.cast_le.mpr hslot
        linarith

theorem jobInv_step (hpos : 0 < executionIntervalSlots)
    (hinv : JobInv executionIntervalSlots s) (hok : ObservesOnward executionIntervalSlots s round)
    (h : jobStep executionIntervalSlots s round = some s') :
    JobInv executionIntervalSlots s' := by
  rcases jobStep_cases h with rfl | ⟨hcheck, hne, rfl⟩
  · exact hinv
  · have hafter : ∀ row ∈ s.table, row.epoch = round.args.snapshotEpoch →
        row.epochSlot + executionIntervalSlots ≤ round.args.snapshotLoadedAtSlotIndex :=
      fun row hrow hepoch => le_collectedAt hok hcheck hrow hepoch
    refine ⟨fun collected hcollected => ?_, ?_⟩
    · rcases List.mem_append.mp hcollected with hold | hnew
      · obtain ⟨row, hrow, hepoch, hslot⟩ := hinv.recorded collected hold
        have hstatements : ∀ statement ∈ round.args.statements (getExistingVoteAccounts
            round.scan s.table round.args.snapshotEpoch), StatementOf round.args statement :=
          fun _ hstatement => statementOf_statements hstatement
        obtain ⟨row', hrow', hepoch', hslot'⟩ := row_foldl hstatements hrow
        refine ⟨row', hrow', by omega, ?_⟩
        rcases hslot' with hsame | ⟨hat, hset⟩
        · omega
        · -- the slot of the row is replaced by a later one
          have hlater := hafter row hrow hat
          have hle : (row.epochSlot : Rat) ≤ round.args.snapshotLoadedAtSlotIndex := by linarith
          have hle' := Nat.cast_le.mp hle
          omega
      · obtain rfl := List.mem_singleton.mp hnew
        obtain ⟨row, hrow, hepoch, hslot⟩ :
            ∃ row ∈ storeJito round.scan round.args s.table,
              row.epoch = round.args.snapshotEpoch ∧
                row.epochSlot = round.args.snapshotLoadedAtSlotIndex :=
          exists_row_storeJito round.scan hne
        exact ⟨row, hrow, congrArg (· + 1) hepoch, hslot.ge⟩
    · refine List.pairwise_append.mpr ⟨hinv.apart, List.pairwise_singleton _ _, ?_⟩
      intro earlier hearlier later hlater hsame
      obtain rfl := List.mem_singleton.mp hlater
      obtain ⟨row, hrow, hepoch, hslot⟩ := hinv.recorded earlier hearlier
      have hat : row.epoch = round.args.snapshotEpoch :=
        Nat.succ.inj (hepoch.trans hsame)
      have hlater := hafter row hrow hat
      have hslot' : (earlier.slotIndex : Rat) ≤ row.epochSlot := Nat.cast_le.mpr hslot
      show (earlier.slotIndex : Rat) + executionIntervalSlots ≤
        (round.args.snapshotLoadedAtSlotIndex : Rat)
      linarith

/-- **When the gate is exact**: a check passes exactly when a collection is due, and never for
an epoch before the recorded one, if and only if the node is not behind; and in every run
without such a node stores within one on-chain epoch are the interval apart. -/
theorem jitoGate_iff (executionIntervalSlots : Rat) (hpos : 0 < executionIntervalSlots) :
    (∀ (table : List (JitoRow C)) (observed : EpochInfo),
      ((checkJito executionIntervalSlots table (.ok observed : Except Unit EpochInfo) = .ok true ↔
          Due executionIntervalSlots table observed) ∧
        (checkJito executionIntervalSlots table (.ok observed : Except Unit EpochInfo) =
            .ok true →
          ∀ epoch epochSlot, lastRecorded table = some (epoch, epochSlot) →
            (epoch : Int) ≤ observed.epoch - 1)) ↔
      ¬ BehindRecorded executionIntervalSlots table observed) ∧
    ∀ (table : List (JitoRow C)) (rounds : List (JobRound C)),
      StepsAll (jobStep executionIntervalSlots) (ObservesOnward executionIntervalSlots)
          (.init table) rounds →
        StatesAll (jobStep executionIntervalSlots) (Apart executionIntervalSlots)
          (.init table) rounds := by
  constructor
  · intro table observed
    constructor
    · rintro ⟨hexact, -⟩ hbehind
      exact not_due_of_behindRecorded hbehind
        (hexact.mp (checkJito_eq_true_iff.mpr (Or.inr hbehind)))
    · intro hbehind
      have hexact : checkJito executionIntervalSlots table
          (.ok observed : Except Unit EpochInfo) = .ok true ↔
            Due executionIntervalSlots table observed := by
        rw [checkJito_eq_true_iff, or_iff_left hbehind]
      refine ⟨hexact, fun hcheck epoch epochSlot hrecorded => ?_⟩
      rcases hexact.mp hcheck epoch epochSlot hrecorded with hlt | ⟨heq, -⟩
      · exact hlt.le
      · exact heq.le
  · intro table rounds hok
    have hinit : JobInv executionIntervalSlots (JobState.init table) :=
      ⟨fun _ h => (nomatch h), List.Pairwise.nil⟩
    exact (statesAll_of_stepsAll (fun _ _ _ hinv hok h => jobInv_step hpos hinv hok h)
      hinit hok).mono fun _ hinv => hinv.apart

end Runs

/-! ### A node that lags behind -/

/-- The snapshot of one validator for an epoch, collected at a slot index. -/
def jitoArgsAt (epoch slot : Nat) : JitoArgs MevColumns :=
  mevArgs
    { epoch := epoch
      accountType := .mevTipDistribution
      loadedAtSlotIndex := slot
      createdAt := 0
      validators := ⟨[("vote", .mevTipDistribution {
        voteAccount := "vote"
        mevCommission := 800
        epoch := epoch
        totalEpochRewards := none
        claimedEpochRewards := none
        totalEpochClaimants := none
        epochActiveClaimants := none })], List.nodup_singleton _⟩
      voteAccounts := by simp [JitoValidatorSnapshot.voteAccount]
      epochs := by simp [JitoValidatorSnapshot.epoch] }

/-- A round whose collection runs where the check observed. -/
def roundAt (epoch slot : Nat) : JobRound MevColumns :=
  ⟨⟨epoch + 1, slot⟩, .sequential, jitoArgsAt epoch slot⟩

/-- The table after a collection at slot 50 of the epoch 701. -/
def recordedTable : List (JitoRow MevColumns) := storeJito .sequential (jitoArgsAt 700 50) []

/-- The node is not behind: the interval decides. -/
theorem jitoGate_iff_onward :
    (checkJito 120000 recordedTable (.ok ⟨701, 130000⟩ : Except Unit EpochInfo) = .ok true ↔
      Due 120000 recordedTable ⟨701, 130000⟩) ∧
    (checkJito 120000 recordedTable (.ok ⟨701, 130000⟩ : Except Unit EpochInfo) = .ok true →
      ∀ epoch epochSlot, lastRecorded recordedTable = some (epoch, epochSlot) →
        (epoch : Int) ≤ ((⟨701, 130000⟩ : EpochInfo).epoch : Int) - 1) := by
  refine ((jitoGate_iff (C := MevColumns) 120000 (by decide)).1 recordedTable ⟨701, 130000⟩).mpr ?_
  rintro ⟨epoch, epochSlot, hrecorded, hbehind, -⟩
  obtain ⟨rfl, rfl⟩ := Prod.mk.inj (Option.some.inj (hrecorded.symm.trans
    (show lastRecorded recordedTable = some (700, 50) from rfl)))
  exact absurd hbehind (by decide)

/-- The node still reports the epoch 700: the check passes for the epoch 699, before the
recorded one, and a collection comes 100 slots after another one of the same epoch. -/
theorem jitoGate_lags :
    (checkJito 120000 recordedTable (.ok ⟨700, 200000⟩ : Except Unit EpochInfo) = .ok true ∧
      lastRecorded recordedTable = some (700, 50) ∧
      ¬ Due 120000 recordedTable ⟨700, 200000⟩) ∧
    ¬ StatesAll (jobStep 120000) (Apart 120000) (.init [])
      [roundAt 699 400000, roundAt 700 50, roundAt 699 400100] := by
  have hrun : (exec (jobStep 120000) (.init [])
      [roundAt 699 400000, roundAt 700 50, roundAt 699 400100]).map JobState.stored =
        some [⟨700, 400000⟩, ⟨701, 50⟩, ⟨700, 400100⟩] := by decide +kernel
  refine ⟨⟨by decide +kernel, rfl,
    not_due_of_behindRecorded ⟨700, 50, rfl, by decide, by decide +kernel⟩⟩, fun h => ?_⟩
  obtain ⟨s, hexec, hstored⟩ := Option.map_eq_some_iff.mp hrun
  have happart := h.last hexec
  rw [Apart, hstored] at happart
  have hslots : ((400000 : Nat) : Rat) + 120000 ≤ (400100 : Nat) :=
    (List.pairwise_cons.mp happart).1 ⟨700, 400100⟩ (by simp) rfl
  norm_num at hslots

end DelegationStrategy.Check
