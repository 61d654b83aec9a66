import DelegationStrategy.Check.JitoGate
import DelegationStrategy.Lib.FullJoin
import DelegationStrategy.Lib.Groups
import DelegationStrategy.Store.Histories
import DelegationStrategy.Store.Jito

/-!
# The last Jito rows

`get_last_jito_info` (`store/src/validators_jito.rs`) answers `/jito`: of each of the two tables
it reads the last row of every vote account among the last epochs, and joins the two by vote
account and epoch.

- `columnsAt_storeJito`: what a completed command leaves under each key. After any commands, one
  after the other, the columns under a key are those of the last snapshot that had it
  (`lastStored`).
- `jitoInfo_ofRuns`: so the answer has, for either table, what the last snapshot of the last
  epoch of a vote account says, and the two are in one record exactly if the epochs are equal.
-/

namespace DelegationStrategy.Store

open DelegationStrategy.Lib DelegationStrategy.Collect
open DelegationStrategy.Check (storeJito)

variable {C : Type}

/-! ## Completed commands -/

/-- The command as a process that runs to its end while nothing else moves. -/
theorem solo_storeJito (scan : Scan) (args : JitoArgs C) (table : List (JitoRow C)) :
    ∃ steps, (jitoProtocol C).solo table (.selecting args) (.next scan :: steps) =
      some (storeJito scan args table, .executing []) := by
  have hrest : ∀ (statements : List (JitoStatement C)) (table : List (JitoRow C)),
      (jitoProtocol C).solo table (.executing statements)
        (List.replicate statements.length (.next scan)) =
          some (statements.foldl (fun table statement => statement.execute table) table,
            .executing []) := by
    intro statements
    induction statements with
    | nil => exact fun _ => rfl
    | cons statement rest ih => exact fun table => ih (statement.execute table)
  exact ⟨_, hrest _ table⟩

section Run

variable (args : JitoArgs C)

/-- What the snapshot says of a key. -/
def JitoArgs.incoming (k : String × Nat) : Option (JitoInfo C) :=
  if k.2 = args.snapshotEpoch then args.validators.get? k.1 else none

/-- A row after all updates of the command. -/
def updatedRow (row : JitoRow C) : JitoRow C :=
  match args.incoming row.key with
  | some v => { row with columns := v.columns, epochSlot := args.snapshotLoadedAtSlotIndex }
  | none => row

variable {args}

theorem updatedRow_key (row : JitoRow C) : (updatedRow args row).key = row.key := by
  unfold updatedRow
  split <;> rfl

theorem updatedRow_idem (row : JitoRow C) :
    updatedRow args (updatedRow args row) = updatedRow args row := by
  have hkey : (updatedRow args row).key = row.key := updatedRow_key row
  unfold updatedRow at hkey ⊢
  cases hincoming : args.incoming row.key with
  | none =>
    dsimp only
    rw [hincoming]
  | some v =>
    rw [hincoming] at hkey
    dsimp only at hkey ⊢
    rw [hkey, hincoming]

/-- A validator of the snapshot is entered under its vote account and the snapshot's epoch. -/
theorem JitoArgs.of_get? {voteAccount : String} {v : JitoInfo C}
    (h : args.validators.get? voteAccount = some v) :
    v.voteAccount = voteAccount ∧ v.epoch = args.snapshotEpoch :=
  ⟨args.voteAccounts _ (Dict.mem_of_get? h), args.epochs _ (Dict.mem_of_get? h)⟩

/-- The values of an update that are for a row. -/
theorem find?_chunk (chunk : List String) (row : JitoRow C) :
    (chunk.filterMap args.validators.get?).find?
        (fun v => v.voteAccount = row.voteAccount ∧ v.epoch = row.epoch) =
      if row.voteAccount ∈ chunk then args.incoming row.key else none := by
  have hfound : ∀ v, v ∈ chunk.filterMap args.validators.get? →
      v.voteAccount = row.voteAccount ∧ v.epoch = row.epoch →
        row.voteAccount ∈ chunk ∧ args.incoming row.key = some v := by
    intro v hv hrow
    obtain ⟨voteAccount, hchunk, hget⟩ := List.mem_filterMap.mp hv
    obtain ⟨rfl, hepoch⟩ := args.of_get? hget
    refine ⟨hrow.1 ▸ hchunk, ?_⟩
    unfold JitoArgs.incoming
    rw [if_pos (show row.key.2 = _ from hrow.2.symm.trans hepoch), ← hget, hrow.1]
    rfl
  cases hfind : (chunk.filterMap args.validators.get?).find?
      (fun v => v.voteAccount = row.voteAccount ∧ v.epoch = row.epoch) with
  | some v =>
    obtain ⟨hchunk, hincoming⟩ := hfound v (List.mem_of_find?_eq_some hfind)
      (by simpa using List.find?_some hfind)
    rw [if_pos hchunk, hincoming]
  | none =>
    by_cases hchunk : row.voteAccount ∈ chunk
    · rw [if_pos hchunk]
      unfold JitoArgs.incoming
      by_cases hepoch : row.key.2 = args.snapshotEpoch
      · rw [if_pos hepoch]
        cases hget : args.validators.get? row.key.1 with
        | none => rfl
        | some v =>
          -- the validator would have been found
          obtain ⟨hvote, hv⟩ := args.of_get? hget
          have hmem := List.mem_filterMap.mpr ⟨_, hchunk, hget⟩
          exact absurd (decide_eq_true ⟨hvote, hv.trans hepoch.symm⟩)
            (List.find?_eq_none.mp hfind v hmem)
      · rw [if_neg hepoch]
    · rw [if_neg hchunk]

/-- An update with the validators of a chunk. -/
theorem updateJito_chunk (chunk : List String) (row : JitoRow C) :
    updateJito (chunk.filterMap args.validators.get?) args.snapshotLoadedAtSlotIndex row =
      if row.voteAccount ∈ chunk then updatedRow args row else row := by
  unfold updateJito updatedRow
  rw [find?_chunk]
  by_cases hchunk : row.voteAccount ∈ chunk
  · rw [if_pos hchunk, if_pos hchunk]
    cases hincoming : args.incoming row.key with
    | none => rfl
    | some v =>
      obtain ⟨hepoch, hget⟩ := Option.ite_none_right_eq_some.mp hincoming
      obtain ⟨hvote, hv⟩ := args.of_get? hget
      dsimp only
      rw [hvote, hv, ← hepoch]
      rfl
  · rw [if_neg hchunk, if_neg hchunk]

/-- The updates of a list of chunks. -/
theorem foldl_updateJito (chunkList : List (List String)) (row : JitoRow C) :
    chunkList.foldl (fun row chunk => updateJito (chunk.filterMap args.validators.get?)
        args.snapshotLoadedAtSlotIndex row) row =
      if row.voteAccount ∈ chunkList.flatten then updatedRow args row else row := by
  induction chunkList generalizing row with
  | nil => rfl
  | cons chunk chunkList ih =>
    rw [List.foldl_cons, updateJito_chunk, List.flatten_cons]
    have hvote : (updatedRow args row).voteAccount = row.voteAccount :=
      congrArg Prod.fst (updatedRow_key row)
    by_cases hchunk : row.voteAccount ∈ chunk
    · rw [if_pos hchunk, ih, updatedRow_idem, ite_self,
        if_pos (List.mem_append_left _ hchunk)]
    · rw [if_neg hchunk, ih]
      simp [hchunk]

/-- The rows that a command inserts. -/
def insertedRows (args : JitoArgs C) (existing : List String) : List (JitoRow C) :=
  (args.executions existing).map fun e => args.row e.2

/-- Updates are row by row. -/
theorem foldl_updates (chunkList : List (List String)) (table : List (JitoRow C)) :
    chunkList.foldl (fun table chunk => (JitoStatement.update
        (chunk.filterMap args.validators.get?) args.snapshotLoadedAtSlotIndex).execute table)
        table =
      table.map fun row => if row.voteAccount ∈ chunkList.flatten then updatedRow args row
        else row := by
  have hrows : chunkList.foldl (fun table chunk => (JitoStatement.update
      (chunk.filterMap args.validators.get?) args.snapshotLoadedAtSlotIndex).execute table)
      table = table.map fun row => chunkList.foldl (fun row chunk =>
        updateJito (chunk.filterMap args.validators.get?) args.snapshotLoadedAtSlotIndex row)
        row := by
    induction chunkList generalizing table with
    | nil => exact (List.map_id table).symm
    | cons chunk chunkList ih =>
      rw [List.foldl_cons, ih]
      show (table.map _).map _ = _
      rw [List.map_map]
      rfl
  rw [hrows]
  exact List.map_congr_left fun row _ => foldl_updateJito chunkList row

/-- Inserts append their rows. -/
theorem foldl_inserts (rowsOf : List (String × JitoInfo C) → List (JitoRow C))
    (chunkList : List (List (String × JitoInfo C))) (table : List (JitoRow C)) :
    chunkList.foldl (fun table chunk => (JitoStatement.insert (rowsOf chunk)).execute table) table =
      table ++ chunkList.flatMap rowsOf := by
  induction chunkList generalizing table with
  | nil => exact (List.append_nil table).symm
  | cons chunk chunkList ih =>
    rw [List.foldl_cons, ih, List.flatMap_cons]
    exact List.append_assoc _ _ _

/-- **A completed command** rewrites the rows of its epoch and appends the others. -/
theorem storeJito_eq (scan : Scan) (table : List (JitoRow C)) :
    storeJito scan args table = table.map (updatedRow args) ++
      insertedRows args (getExistingVoteAccounts scan table args.snapshotEpoch) := by
  have hpos : 0 < JitoArgs.DEFAULT_CHUNK_SIZE := by decide
  unfold storeJito JitoArgs.statements
  generalize hexisting : getExistingVoteAccounts scan table args.snapshotEpoch = existing
  rw [List.foldl_append, List.foldl_map, List.foldl_map, foldl_updates, foldl_inserts,
    chunks_flatten hpos]
  congr 1
  · refine List.map_congr_left fun row hrow => ?_
    by_cases hmem : row.voteAccount ∈ existing
    · rw [if_pos hmem]
    · -- a row of another epoch is not for the command
      have hepoch : row.key.2 ≠ args.snapshotEpoch := by
        rintro heq
        refine hmem (hexisting ▸ (mem_getExistingVoteAccounts scan).mpr ?_)
        rw [← heq]
        exact List.mem_map_of_mem hrow
      rw [if_neg hmem]
      unfold updatedRow JitoArgs.incoming
      rw [if_neg hepoch]
  · -- the second check of the condition drops nothing
    have hinserts : ∀ chunk ∈ chunks JitoArgs.DEFAULT_CHUNK_SIZE (args.executions existing),
        ((chunk.filter fun e => e.1 ∉ args.updatedIdentities existing).map fun e =>
          args.row e.2) = chunk.map fun e => args.row e.2 := by
      intro chunk hchunk
      rw [List.filter_eq_self.mpr fun e he =>
        (List.mem_filter.mp (mem_of_mem_chunks hpos hchunk he)).2]
    rw [List.flatMap_congr hinserts, List.flatMap_def, ← List.map_flatten, chunks_flatten hpos]
    rfl

/-! ## The row of a key -/

/-- The columns under a key. -/
def columnsAt (table : List (JitoRow C)) (k : String × Nat) : Option C :=
  (rowOf JitoRow.key table k).map JitoRow.columns

theorem columns_updatedRow (row : JitoRow C) : (updatedRow args row).columns =
    ((args.incoming row.key).map JitoInfo.columns).getD row.columns := by
  unfold updatedRow
  cases args.incoming row.key with
  | none => rfl
  | some v => rfl

/-- The inserted rows have the keys that the command had still to insert. -/
theorem keys_insertedRows (existing : List String) :
    (insertedRows args existing).map JitoRow.key =
      (StoreJito.executing (args.statements existing)).pending := by
  rw [pending_statements, insertedRows, List.map_map]
  refine List.map_congr_left fun e he => ?_
  exact Prod.ext (args.voteAccounts e (List.mem_filter.mp he).1) rfl

theorem keys_updated (table : List (JitoRow C)) :
    (table.map (updatedRow args)).map JitoRow.key = table.map JitoRow.key := by
  rw [List.map_map]
  exact List.map_congr_left fun row _ => updatedRow_key row

theorem nodup_storeJito (scan : Scan) {table : List (JitoRow C)}
    (hnd : (table.map JitoRow.key).Nodup) :
    ((storeJito scan args table).map JitoRow.key).Nodup := by
  obtain ⟨hpending, hkeys⟩ := pending_select args scan table
  rw [storeJito_eq, List.map_append, keys_updated, keys_insertedRows]
  refine List.nodup_append.mpr ⟨hnd, hpending, ?_⟩
  rintro k hold _ hnew rfl
  exact ((hkeys k).mp hnew).2.2 hold

/-- **The columns after a command** are those of its snapshot, or else the old ones. -/
theorem columnsAt_storeJito (scan : Scan) (table : List (JitoRow C)) (k : String × Nat) :
    columnsAt (storeJito scan args table) k =
      ((args.incoming k).map JitoInfo.columns).or (columnsAt table k) := by
  obtain ⟨hpending, hkeys⟩ := pending_select args scan table
  rw [← keys_insertedRows] at hpending hkeys
  generalize hinserted : insertedRows args
    (getExistingVoteAccounts scan table args.snapshotEpoch) = inserted at hpending hkeys
  unfold columnsAt
  rw [storeJito_eq, hinserted]
  have happend : rowOf JitoRow.key (table.map (updatedRow args) ++ inserted) k =
      ((rowOf JitoRow.key table k).map (updatedRow args)).or (rowOf JitoRow.key inserted k) := by
    rw [← rowOf_map updatedRow_key]
    exact List.find?_append
  rw [happend]
  cases hrow : rowOf JitoRow.key table k with
  | some row =>
    show some (updatedRow args row).columns = _
    rw [columns_updatedRow, (mem_of_rowOf hrow).2]
    cases args.incoming k with
    | none => rfl
    | some v => rfl
  | none =>
    have hnew := rowOf_eq_none_iff.mp hrow
    show (rowOf JitoRow.key inserted k).map JitoRow.columns = _
    rw [Option.map_none, Option.or_none]
    unfold JitoArgs.incoming
    by_cases hepoch : k.2 = args.snapshotEpoch
    · rw [if_pos hepoch]
      cases hget : args.validators.get? k.1 with
      | none =>
        have hnone : rowOf JitoRow.key inserted k = none := by
          refine rowOf_eq_none_iff.mpr fun hmem => ?_
          exact Dict.get?_eq_none_iff.mp hget ((hkeys k).mp hmem).1
        rw [hnone]
        rfl
      | some v =>
        have hexecution : (k.1, v) ∈ args.executions
            (getExistingVoteAccounts scan table args.snapshotEpoch) := by
          refine List.mem_filter.mpr ⟨Dict.mem_of_get? hget, ?_⟩
          have hnot : k.1 ∉ getExistingVoteAccounts scan table args.snapshotEpoch := by
            rw [mem_getExistingVoteAccounts, ← hepoch]
            exact hnew
          simp [JitoArgs.updatedIdentities, hnot]
        have hmem : args.row v ∈ inserted := hinserted ▸ List.mem_map_of_mem hexecution
        have hkey : (args.row v).key = k := Prod.ext (args.of_get? hget).1 hepoch.symm
        rw [← hkey, (mem_iff_rowOf hpending).mp hmem]
        rfl
    · rw [if_neg hepoch]
      have hnone : rowOf JitoRow.key inserted k = none := by
        refine rowOf_eq_none_iff.mpr fun hmem => ?_
        exact hepoch ((hkeys k).mp hmem).2.1
      rw [hnone]
      rfl

end Run

/-! ## Runs -/

/-- Commands one after the other, from an empty table. -/
def runAllJito (runs : List (Scan × JitoArgs C)) : List (JitoRow C) :=
  runs.foldl (fun table run => storeJito run.1 run.2 table) []

/-- What the last snapshot that has a key says of it. -/
def lastStored (runs : List (Scan × JitoArgs C)) (k : String × Nat) : Option C :=
  runs.foldl (fun last run => ((run.2.incoming k).map JitoInfo.columns).or last) none

/-- **The table after any commands.** -/
theorem runAllJito_spec (runs : List (Scan × JitoArgs C)) :
    ((runAllJito runs).map JitoRow.key).Nodup ∧
      ∀ k, columnsAt (runAllJito runs) k = lastStored runs k := by
  induction runs using List.reverseRecOn with
  | nil => exact ⟨List.nodup_nil, fun _ => rfl⟩
  | append_singleton runs run ih =>
    have htable : runAllJito (runs ++ [run]) = storeJito run.1 run.2 (runAllJito runs) := by
      unfold runAllJito
      rw [List.foldl_append]
      rfl
    rw [htable]
    refine ⟨nodup_storeJito _ ih.1, fun k => ?_⟩
    rw [columnsAt_storeJito, ih.2]
    unfold lastStored
    rw [List.foldl_append]
    rfl

/-! ## Readers -/

/-- The query of `get_last_validator_info`: the rows with number one in their partitions. -/
def lastRows (scan : Scan) (epochs : Nat) (db : Database) (table : List (JitoRow C)) :
    List (JitoRow C) :=
  scan.order (distinctOn JitoRow.voteAccount JitoRow.epoch
    ((scan.order table).filter fun row => inLastEpochs db epochs row.epoch))

/-- `get_last_validator_info` -/
def getLastValidatorInfo {α : Type} (rowMapper : JitoRow C → Option α) (scan : Scan)
    (epochs : Nat) (db : Database) (table : List (JitoRow C)) : Option (List α) :=
  (lastRows scan epochs db table).mapM rowMapper

structure JitoMevRecord where
  epoch : Nat
  voteAccount : String
  mevCommissionBps : Int
  deriving DecidableEq, Repr

structure JitoPriorityFeeRecord where
  epoch : Nat
  voteAccount : String
  priorityCommissionBps : Int
  totalLamportsTransferred : Nat
  deriving DecidableEq, Repr

structure JitoRecord where
  epoch : Nat
  voteAccount : String
  mevCommissionBps : Option Int
  priorityCommissionBps : Option Int
  priorityTotalLamportsTransferred : Option Nat
  deriving DecidableEq, Repr

def JitoMevRecord.key (record : JitoMevRecord) : String × Nat := (record.voteAccount, record.epoch)

def JitoPriorityFeeRecord.key (record : JitoPriorityFeeRecord) : String × Nat :=
  (record.voteAccount, record.epoch)

def JitoRecord.key (record : JitoRecord) : String × Nat := (record.voteAccount, record.epoch)

def jitoMevRecord (row : JitoRow MevColumns) : JitoMevRecord where
  epoch := row.epoch
  voteAccount := row.voteAccount
  mevCommissionBps := row.columns.mevCommission

/-- The sum of lamports has to fit into a `u64`. -/
def jitoPriorityFeeRecord (row : JitoRow PriorityFeeColumns) : Option JitoPriorityFeeRecord := do
  let totalLamportsTransferred ← decimalToU64 row.columns.totalLamportsTransferred
  some {
    epoch := row.epoch
    voteAccount := row.voteAccount
    priorityCommissionBps := row.columns.validatorCommission
    totalLamportsTransferred := totalLamportsTransferred }

/-- `get_last_mev_info` -/
def getLastMevInfo (scan : Scan) (epochs : Nat) (db : Database) (mev : List (JitoRow MevColumns)) :
    Option (List JitoMevRecord) :=
  getLastValidatorInfo (fun row => some (jitoMevRecord row)) scan epochs db mev

/-- `get_last_priority_fee_info` -/
def getLastPriorityFeeInfo (scan : Scan) (epochs : Nat) (db : Database)
    (jitoPriorityFee : List (JitoRow PriorityFeeColumns)) : Option (List JitoPriorityFeeRecord) :=
  getLastValidatorInfo jitoPriorityFeeRecord scan epochs db jitoPriorityFee

/-- The loop body of `get_last_jito_info`. -/
def jitoRecord (mevMap : Dict (String × Nat) JitoMevRecord)
    (priorityFeeMap : Dict (String × Nat) JitoPriorityFeeRecord) (k : String × Nat) :
    JitoRecord where
  voteAccount := k.1
  epoch := k.2
  mevCommissionBps := (mevMap.get? k).map JitoMevRecord.mevCommissionBps
  priorityCommissionBps :=
    (priorityFeeMap.get? k).map JitoPriorityFeeRecord.priorityCommissionBps
  priorityTotalLamportsTransferred :=
    (priorityFeeMap.get? k).map JitoPriorityFeeRecord.totalLamportsTransferred

/-- `get_last_jito_info`; `scan` also orders the set of keys. -/
def getLastJitoInfo (scan : Scan) (epochs : Nat) (db : Database)
    (mev : List (JitoRow MevColumns)) (jitoPriorityFee : List (JitoRow PriorityFeeColumns)) :
    Option (List JitoRecord) := do
  let mevRecords ← getLastMevInfo scan epochs db mev
  let priorityFeeRecords ← getLastPriorityFeeInfo scan epochs db jitoPriorityFee
  let mevMap := Dict.ofList (mevRecords.map fun record => (record.key, record))
  let priorityFeeMap := Dict.ofList (priorityFeeRecords.map fun record => (record.key, record))
  let allKeys := (mevMap.keys ++ priorityFeeMap.keys).dedup
  some ((scan.order allKeys).map (jitoRecord mevMap priorityFeeMap))

/-! ## What the readers return -/

/-- The last epoch of the vote account that any snapshot stored is in the window, and this is
what the last of its snapshots says. -/
def IsLastStored (runs : List (Scan × JitoArgs C)) (window : Nat → Prop) (k : String × Nat)
    (columns : C) : Prop :=
  lastStored runs k = some columns ∧ window k.2 ∧
    ∀ epoch, (lastStored runs (k.1, epoch)).isSome → epoch ≤ k.2

theorem IsLastStored.unique {runs : List (Scan × JitoArgs C)} {window : Nat → Prop}
    {voteAccount : String} {epoch epoch' : Nat} {columns columns' : C}
    (h : IsLastStored runs window (voteAccount, epoch) columns)
    (h' : IsLastStored runs window (voteAccount, epoch') columns') : epoch = epoch' :=
  Nat.le_antisymm (h'.2.2 epoch (by rw [h.1]; rfl)) (h.2.2 epoch' (by rw [h'.1]; rfl))

/-- **A window of epochs** is open at its end. -/
theorem inLastEpochs_of_le {db : Database} {epochs epoch epoch' : Nat}
    (h : inLastEpochs db epochs epoch) (hle : epoch ≤ epoch') : inLastEpochs db epochs epoch' := by
  unfold inLastEpochs at h ⊢
  cases hmax : (db.clusterInfo.map ClusterInfoRow.epoch).max? with
  | none =>
    rw [hmax] at h
    cases h
  | some lastEpoch =>
    rw [hmax] at h
    simp only [Option.any_some, decide_eq_true_eq] at h ⊢
    omega

/-- A row of the table, by its key. -/
theorem columnsAt_eq_some_iff {table : List (JitoRow C)} (hnd : (table.map JitoRow.key).Nodup)
    {k : String × Nat} {columns : C} :
    columnsAt table k = some columns ↔ ∃ row ∈ table, row.key = k ∧ row.columns = columns := by
  unfold columnsAt
  rw [Option.map_eq_some_iff]
  constructor
  · rintro ⟨row, hrow, rfl⟩
    exact ⟨row, (mem_of_rowOf hrow).1, (mem_of_rowOf hrow).2, rfl⟩
  · rintro ⟨row, hrow, rfl, rfl⟩
    exact ⟨row, (mem_iff_rowOf hnd).mp hrow, rfl⟩

section Reader

variable {runs : List (Scan × JitoArgs C)} {epochs : Nat} {db : Database} {scan : Scan}

/-- The rows that a reader selects. -/
theorem mem_lastRows {k : String × Nat} {columns : C} :
    (∃ row ∈ lastRows scan epochs db (runAllJito runs), row.key = k ∧ row.columns = columns) ↔
      IsLastStored runs (fun epoch => inLastEpochs db epochs epoch) k columns := by
  obtain ⟨hnd, hcolumns⟩ := runAllJito_spec runs
  have hlatest : ∀ row, row ∈ lastRows scan epochs db (runAllJito runs) ↔
      IsLatest JitoRow.voteAccount JitoRow.epoch (runAllJito runs) row ∧
        inLastEpochs db epochs row.epoch := by
    intro row
    unfold lastRows
    rw [scan.mem_order]
    exact mem_distinctOn_window (fun _ _ => inLastEpochs_of_le) hnd (scan.perm _)
  unfold IsLastStored
  rw [← hcolumns, columnsAt_eq_some_iff hnd]
  constructor
  · rintro ⟨row, hrow, rfl, rfl⟩
    obtain ⟨⟨hmem, hmax⟩, hwindow⟩ := (hlatest row).mp hrow
    refine ⟨⟨row, hmem, rfl, rfl⟩, hwindow, fun epoch hsome => ?_⟩
    obtain ⟨columns, hget⟩ := Option.isSome_iff_exists.mp hsome
    obtain ⟨row', hmem', hkey, -⟩ := (columnsAt_eq_some_iff hnd).mp ((hcolumns _).trans hget)
    have hle := hmax row' hmem' (congrArg Prod.fst hkey)
    rwa [show row'.epoch = epoch from congrArg Prod.snd hkey] at hle
  · rintro ⟨⟨row, hmem, rfl, rfl⟩, hwindow, hlast⟩
    refine ⟨row, (hlatest row).mpr ⟨⟨hmem, fun row' hmem' hvote => ?_⟩, hwindow⟩, rfl, rfl⟩
    refine hlast row'.epoch ?_
    have hget := (columnsAt_eq_some_iff hnd).mpr ⟨row', hmem', rfl, rfl⟩
    rw [show row.key.1 = row'.voteAccount from hvote.symm, ← hcolumns]
    exact Option.isSome_iff_exists.mpr ⟨_, hget⟩

/-- A reader selects one row for each vote account. -/
theorem nodup_lastRows (table : List (JitoRow C)) :
    ((lastRows scan epochs db table).map JitoRow.key).Nodup := by
  refine List.Nodup.of_map Prod.fst ?_
  rw [List.map_map]
  exact ((scan.perm _).map _).nodup_iff.mpr (nodup_distinctOn _)

theorem mem_of_mem_lastRows {table : List (JitoRow C)} {row : JitoRow C}
    (h : row ∈ lastRows scan epochs db table) : row ∈ table := by
  have hmem := (latest_spec (mem_distinctOn.mp (scan.mem_order.mp h))).1
  exact scan.mem_order.mp (List.mem_filter.mp hmem).1

theorem isSome_getLastValidatorInfo {α : Type} {rowMapper : JitoRow C → Option α}
    {table : List (JitoRow C)} (hmap : ∀ row ∈ table, (rowMapper row).isSome) :
    (getLastValidatorInfo rowMapper scan epochs db table).isSome :=
  isSome_mapM.mpr fun row hrow => hmap row (mem_of_mem_lastRows hrow)

/-- **A reader after any commands**, by the key of its records: a field of theirs has the value of
the last columns. -/
theorem get?_lastValidatorInfo {α β : Type} {rowMapper : JitoRow C → Option α}
    {key : α → String × Nat} {field : α → β} {value : C → β}
    (hkey : ∀ row record, rowMapper row = some record → key record = row.key)
    (hfield : ∀ row record, rowMapper row = some record → field record = value row.columns)
    {records : List α}
    (h : getLastValidatorInfo rowMapper scan epochs db (runAllJito runs) = some records)
    (k : String × Nat) (b : β) :
    ((Dict.ofList (records.map fun record => (key record, record))).get? k).map field = some b ↔
      ∃ columns, IsLastStored runs (fun epoch => inLastEpochs db epochs epoch) k columns ∧
        value columns = b := by
  have hnd : (records.map key).Nodup := by
    rw [map_mapM hkey h]
    exact nodup_lastRows _
  rw [Option.map_eq_some_iff]
  constructor
  · rintro ⟨record, hget, rfl⟩
    obtain ⟨hmem, rfl⟩ := (get?_ofKeyed hnd).mp hget
    obtain ⟨row, hrow, hrecord⟩ := (mem_mapM h).mp hmem
    refine ⟨row.columns, mem_lastRows.mp ⟨row, hrow, ?_, rfl⟩, (hfield row record hrecord).symm⟩
    exact (hkey row record hrecord).symm
  · rintro ⟨columns, hlast, rfl⟩
    obtain ⟨row, hrow, rfl, rfl⟩ := mem_lastRows.mpr hlast
    obtain ⟨record, hrecord⟩ := exists_of_mapM h hrow
    refine ⟨record, (get?_ofKeyed hnd).mpr ⟨(mem_mapM h).mpr ⟨row, hrow, hrecord⟩, ?_⟩, ?_⟩
    · exact hkey row record hrecord
    · exact hfield row record hrecord

/-- The keys of the records. -/
theorem mem_keys_lastValidatorInfo {α : Type} {rowMapper : JitoRow C → Option α}
    {key : α → String × Nat}
    (hkey : ∀ row record, rowMapper row = some record → key record = row.key) {records : List α}
    (h : getLastValidatorInfo rowMapper scan epochs db (runAllJito runs) = some records)
    (k : String × Nat) :
    k ∈ (Dict.ofList (records.map fun record => (key record, record))).keys ↔
      ∃ columns, IsLastStored runs (fun epoch => inLastEpochs db epochs epoch) k columns := by
  have hunit : ((Dict.ofList (records.map fun record => (key record, record))).get? k).map
      (fun _ => ()) = some () ↔ ∃ columns, IsLastStored runs
        (fun epoch => inLastEpochs db epochs epoch) k columns ∧ () = () :=
    get?_lastValidatorInfo hkey (fun _ _ _ => rfl) h k ()
  rw [Option.map_eq_some_iff] at hunit
  constructor
  · intro hmem
    cases hget : (Dict.ofList (records.map fun record => (key record, record))).get? k with
    | none => exact absurd hmem (Dict.get?_eq_none_iff.mp hget)
    | some record =>
      obtain ⟨columns, hlast, -⟩ := hunit.mp ⟨record, hget, rfl⟩
      exact ⟨columns, hlast⟩
  · rintro ⟨columns, hlast⟩
    obtain ⟨record, hget, -⟩ := hunit.mpr ⟨columns, hlast, rfl⟩
    exact List.mem_map_of_mem (f := Prod.fst) (Dict.mem_of_get? hget)

end Reader

/-- The columns under a key are those of a snapshot. -/
theorem exists_of_lastStored {runs : List (Scan × JitoArgs C)} {k : String × Nat} {columns : C}
    (h : lastStored runs k = some columns) :
    ∃ run ∈ runs, ∃ v, (k.1, v) ∈ run.2.validators.entries ∧ v.columns = columns := by
  induction runs using List.reverseRecOn with
  | nil => cases h
  | append_singleton runs run ih =>
    have hlast : lastStored (runs ++ [run]) k =
        ((run.2.incoming k).map JitoInfo.columns).or (lastStored runs k) := by
      unfold lastStored
      rw [List.foldl_append]
      rfl
    rw [hlast, Option.or_eq_some_iff] at h
    rcases h with hnew | ⟨-, hold⟩
    · obtain ⟨v, hincoming, rfl⟩ := Option.map_eq_some_iff.mp hnew
      obtain ⟨-, hget⟩ := Option.ite_none_right_eq_some.mp hincoming
      exact ⟨run, List.mem_append_right _ List.mem_cons_self, v, Dict.mem_of_get? hget, rfl⟩
    · obtain ⟨run', hrun', hv⟩ := ih hold
      exact ⟨run', List.mem_append_left _ hrun', hv⟩

/-! ## The joined records -/

/-- What `/jito` has to answer after the commands of both tables: the records of a vote account
have its last epochs in either table, each with what the last snapshot says there. -/
structure JitoAnswer (mevRuns : List (Scan × JitoArgs MevColumns))
    (feeRuns : List (Scan × JitoArgs PriorityFeeColumns)) (window : Nat → Prop)
    (records : List JitoRecord) : Prop where
  nodup : (records.map JitoRecord.key).Nodup
  keys : ∀ k, k ∈ records.map JitoRecord.key ↔
    (∃ columns, IsLastStored mevRuns window k columns) ∨
      ∃ columns, IsLastStored feeRuns window k columns
  mev : ∀ record ∈ records, ∀ commission, record.mevCommissionBps = some commission ↔
    ∃ columns, IsLastStored mevRuns window record.key columns ∧
      columns.mevCommission = commission
  priorityCommission : ∀ record ∈ records, ∀ commission,
    record.priorityCommissionBps = some commission ↔
      ∃ columns, IsLastStored feeRuns window record.key columns ∧
        columns.validatorCommission = commission
  priorityTotal : ∀ record ∈ records, ∀ total,
    record.priorityTotalLamportsTransferred = some total ↔
      ∃ columns, IsLastStored feeRuns window record.key columns ∧
        columns.totalLamportsTransferred = total
  /-- A vote account in both tables has one record if its last epochs are equal, and else two. -/
  split : ∀ voteAccount epoch epoch' columns columns',
    IsLastStored mevRuns window (voteAccount, epoch) columns →
      IsLastStored feeRuns window (voteAccount, epoch') columns' →
        (records.filter fun record => record.voteAccount = voteAccount).length =
          if epoch = epoch' then 1 else 2

/-- The number of records of a vote account follows from the keys. -/
theorem length_split {mevRuns : List (Scan × JitoArgs MevColumns)}
    {feeRuns : List (Scan × JitoArgs PriorityFeeColumns)} {window : Nat → Prop}
    {records : List JitoRecord} (hnd : (records.map JitoRecord.key).Nodup)
    (hkeys : ∀ k, k ∈ records.map JitoRecord.key ↔
      (∃ columns, IsLastStored mevRuns window k columns) ∨
        ∃ columns, IsLastStored feeRuns window k columns)
    {voteAccount : String} {epoch epoch' : Nat} {columns : MevColumns}
    {columns' : PriorityFeeColumns}
    (hmev : IsLastStored mevRuns window (voteAccount, epoch) columns)
    (hfee : IsLastStored feeRuns window (voteAccount, epoch') columns') :
    (records.filter fun record => record.voteAccount = voteAccount).length =
      if epoch = epoch' then 1 else 2 := by
  have hmem : ∀ k, k ∈ (records.filter fun record => record.voteAccount = voteAccount).map
      JitoRecord.key ↔ k ∈ [(voteAccount, epoch), (voteAccount, epoch')].dedup := by
    intro k
    rw [List.mem_dedup, List.mem_map]
    constructor
    · rintro ⟨record, hrecord, rfl⟩
      obtain ⟨hrecord, hvote⟩ := List.mem_filter.mp hrecord
      have hkey : record.key = (voteAccount, record.epoch) :=
        Prod.ext (of_decide_eq_true hvote) rfl
      rcases (hkeys record.key).mp (List.mem_map_of_mem hrecord) with
        ⟨columns, hlast⟩ | ⟨columns, hlast⟩
      · rw [hkey] at hlast
        rw [hkey, hlast.unique hmev]
        exact List.mem_cons_self
      · rw [hkey] at hlast
        rw [hkey, hlast.unique hfee]
        exact List.mem_cons_of_mem _ List.mem_cons_self
    · intro hk
      have hlast : ((∃ columns, IsLastStored mevRuns window k columns) ∨
          ∃ columns, IsLastStored feeRuns window k columns) ∧ k.1 = voteAccount := by
        rcases List.mem_cons.mp hk with rfl | hk
        · exact ⟨Or.inl ⟨_, hmev⟩, rfl⟩
        · obtain rfl := List.mem_singleton.mp hk
          exact ⟨Or.inr ⟨_, hfee⟩, rfl⟩
      obtain ⟨record, hrecord, rfl⟩ := List.mem_map.mp ((hkeys k).mpr hlast.1)
      exact ⟨record, List.mem_filter.mpr ⟨hrecord, decide_eq_true hlast.2⟩, rfl⟩
  have hperm := (List.perm_ext_iff_of_nodup
    (hnd.sublist (List.filter_sublist.map _)) (List.nodup_dedup _)).mpr hmem
  rw [← List.length_map JitoRecord.key, hperm.length_eq]
  by_cases heq : epoch = epoch'
  · rw [if_pos heq, heq]
    simp
  · rw [if_neg heq, List.dedup_eq_self.mpr (by simp [heq])]
    rfl

section Join

variable {mevRuns : List (Scan × JitoArgs MevColumns)}
  {feeRuns : List (Scan × JitoArgs PriorityFeeColumns)} {window : Nat → Prop}
  {mevMap : Dict (String × Nat) JitoMevRecord}
  {feeMap : Dict (String × Nat) JitoPriorityFeeRecord}

/-- Maps with the last columns are joined to the answer. -/
theorem jitoAnswer_of_maps (scan : Scan)
    (hmevKeys : ∀ k, k ∈ mevMap.keys ↔ ∃ columns, IsLastStored mevRuns window k columns)
    (hfeeKeys : ∀ k, k ∈ feeMap.keys ↔ ∃ columns, IsLastStored feeRuns window k columns)
    (hmev : ∀ k b, (mevMap.get? k).map JitoMevRecord.mevCommissionBps = some b ↔
      ∃ columns, IsLastStored mevRuns window k columns ∧ columns.mevCommission = b)
    (hcommission : ∀ k b, (feeMap.get? k).map JitoPriorityFeeRecord.priorityCommissionBps =
      some b ↔ ∃ columns, IsLastStored feeRuns window k columns ∧ columns.validatorCommission = b)
    (htotal : ∀ k b, (feeMap.get? k).map JitoPriorityFeeRecord.totalLamportsTransferred =
      some b ↔ ∃ columns, IsLastStored feeRuns window k columns ∧
        columns.totalLamportsTransferred = b) :
    JitoAnswer mevRuns feeRuns window
      ((scan.order (mevMap.keys ++ feeMap.keys).dedup).map (jitoRecord mevMap feeMap)) := by
  -- a record has the key that it was made for
  have hrecords : ((scan.order (mevMap.keys ++ feeMap.keys).dedup).map
      (jitoRecord mevMap feeMap)).map JitoRecord.key =
        scan.order (mevMap.keys ++ feeMap.keys).dedup := by
    rw [List.map_map]
    exact List.map_id'' (fun _ => rfl) _
  have hnd : (((scan.order (mevMap.keys ++ feeMap.keys).dedup).map
      (jitoRecord mevMap feeMap)).map JitoRecord.key).Nodup := by
    rw [hrecords]
    exact (scan.perm _).nodup_iff.mpr (List.nodup_dedup _)
  have hkeys : ∀ k, k ∈ ((scan.order (mevMap.keys ++ feeMap.keys).dedup).map
      (jitoRecord mevMap feeMap)).map JitoRecord.key ↔
        (∃ columns, IsLastStored mevRuns window k columns) ∨
          ∃ columns, IsLastStored feeRuns window k columns := by
    intro k
    rw [hrecords, scan.mem_order, List.mem_dedup, List.mem_append, hmevKeys, hfeeKeys]
  refine ⟨hnd, hkeys, ?_, ?_, ?_, fun _ _ _ _ _ => length_split hnd hkeys⟩
  · intro record hrecord
    obtain ⟨k, -, rfl⟩ := List.mem_map.mp hrecord
    exact hmev k
  · intro record hrecord
    obtain ⟨k, -, rfl⟩ := List.mem_map.mp hrecord
    exact hcommission k
  · intro record hrecord
    obtain ⟨k, -, rfl⟩ := List.mem_map.mp hrecord
    exact htotal k

end Join

theorem jitoMevRecord_fields {row : JitoRow MevColumns} {record : JitoMevRecord}
    (h : some (jitoMevRecord row) = some record) :
    record.key = row.key ∧ record.mevCommissionBps = row.columns.mevCommission := by
  cases h
  exact ⟨rfl, rfl⟩

theorem jitoPriorityFeeRecord_fields {row : JitoRow PriorityFeeColumns}
    {record : JitoPriorityFeeRecord} (h : jitoPriorityFeeRecord row = some record) :
    record.key = row.key ∧ record.priorityCommissionBps = row.columns.validatorCommission ∧
      record.totalLamportsTransferred = row.columns.totalLamportsTransferred := by
  obtain ⟨total, htotal, hrecord⟩ := Option.bind_eq_some_iff.mp h
  cases hrecord
  exact ⟨rfl, rfl, (decimalToU64_eq_some_iff.mp htotal).2⟩

/-- Sums that fitted into a `u64` when they were stored still do. -/
theorem isSome_jitoPriorityFeeRecord {feeRuns : List (Scan × JitoArgs PriorityFeeColumns)}
    (hu64 : ∀ run ∈ feeRuns, ∀ e ∈ run.2.validators.entries,
      e.2.columns.totalLamportsTransferred < 2 ^ 64)
    {row : JitoRow PriorityFeeColumns} (hrow : row ∈ runAllJito feeRuns) :
    (jitoPriorityFeeRecord row).isSome := by
  obtain ⟨hnd, hcolumns⟩ := runAllJito_spec feeRuns
  have hstored : lastStored feeRuns row.key = some row.columns := by
    rw [← hcolumns]
    exact (columnsAt_eq_some_iff hnd).mpr ⟨row, hrow, rfl, rfl⟩
  obtain ⟨run, hrun, v, hv, hcolumns⟩ := exists_of_lastStored hstored
  unfold jitoPriorityFeeRecord
  rw [← hcolumns, decimalToU64_natCast (hu64 run hrun _ hv)]
  rfl

/-- **`/jito` after any commands** answers with what the last snapshots of the last epochs say. -/
theorem jitoInfo_ofRuns (mevRuns : List (Scan × JitoArgs MevColumns))
    (feeRuns : List (Scan × JitoArgs PriorityFeeColumns))
    (hu64 : ∀ run ∈ feeRuns, ∀ e ∈ run.2.validators.entries,
      e.2.columns.totalLamportsTransferred < 2 ^ 64)
    (scan : Scan) (epochs : Nat) (db : Database) :
    ∃ records, getLastJitoInfo scan epochs db (runAllJito mevRuns) (runAllJito feeRuns) =
        some records ∧
      JitoAnswer mevRuns feeRuns (fun epoch => inLastEpochs db epochs epoch) records := by
  have hmevSome : (getLastMevInfo scan epochs db (runAllJito mevRuns)).isSome :=
    isSome_getLastValidatorInfo fun _ _ => rfl
  have hfeeSome : (getLastPriorityFeeInfo scan epochs db (runAllJito feeRuns)).isSome :=
    isSome_getLastValidatorInfo fun _ => isSome_jitoPriorityFeeRecord hu64
  obtain ⟨mevRecords, hmev⟩ := Option.isSome_iff_exists.mp hmevSome
  obtain ⟨feeRecords, hfee⟩ := Option.isSome_iff_exists.mp hfeeSome
  have hmevKey : ∀ row record, some (jitoMevRecord row) = some record → record.key = row.key :=
    fun _ _ h => (jitoMevRecord_fields h).1
  have hfeeKey : ∀ row record, jitoPriorityFeeRecord row = some record → record.key = row.key :=
    fun _ _ h => (jitoPriorityFeeRecord_fields h).1
  unfold getLastJitoInfo
  rw [hmev, hfee]
  refine ⟨_, rfl, jitoAnswer_of_maps scan (mem_keys_lastValidatorInfo hmevKey hmev)
    (mem_keys_lastValidatorInfo hfeeKey hfee) ?_ ?_ ?_⟩
  · exact get?_lastValidatorInfo hmevKey (fun _ _ h => (jitoMevRecord_fields h).2) hmev
  · exact get?_lastValidatorInfo hfeeKey (fun _ _ h => (jitoPriorityFeeRecord_fields h).2.1) hfee
  · exact get?_lastValidatorInfo hfeeKey (fun _ _ h => (jitoPriorityFeeRecord_fields h).2.2) hfee

/-- The fees of a validator of `jitoSnapshot`, from the epoch before. -/
def feeArgs : JitoArgs PriorityFeeColumns where
  snapshotEpoch := 699
  snapshotCreatedAt := 0
  snapshotLoadedAtSlotIndex := 900
  validators := ⟨[("vote", ⟨"vote", 699, ⟨500, 2000000, none, none, none, none⟩⟩)],
    List.nodup_singleton _⟩
  voteAccounts := by simp
  epochs := by simp

theorem jitoInfo_ofRuns_twoEpochs : ∃ records,
    getLastJitoInfo .sequential 10 openDatabase (runAllJito [(.sequential, mevArgs jitoSnapshot)])
        (runAllJito [(.sequential, feeArgs)]) = some records ∧
      JitoAnswer [(.sequential, mevArgs jitoSnapshot)] [(.sequential, feeArgs)]
        (fun epoch => inLastEpochs openDatabase 10 epoch) records :=
  jitoInfo_ofRuns _ _ (by simp [feeArgs]) .sequential 10 openDatabase

end DelegationStrategy.Store
