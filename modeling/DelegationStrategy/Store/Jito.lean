import DelegationStrategy.Collect.Snapshot
import DelegationStrategy.Lib.Interleaving
import DelegationStrategy.Lib.Trace
import DelegationStrategy.Lib.Upsert
import Mathlib.Algebra.Ring.Nat
import Mathlib.Data.List.Sort
import Mathlib.Data.Rat.Defs

/-!
# The `mev` and `jito_priority_fee` tables

`store_jito` (`store/src/validators_jito.rs`) reads the vote accounts that have a
row for the epoch of its snapshot, updates those of them that are in the snapshot
and inserts the others, 500 rows a statement. Neither table is unique by vote
account and epoch, unlike `validators_block_rewards` and `validators_events`.

The two tables differ in their columns only, so they share `JitoRow` and the
commands are one definition over the type `C` of these columns. Commands run as the
processes of a protocol whose steps are their statements.

- What a command will insert is decided when it reads (`statements`). As long as the
  keys of the table and of all inserts that are still to come are distinct
  (`Distinct`), no key gets a second row.
- A read breaks this exactly if another command still has to insert a vote account
  that the reading command is going to insert too (`Clashes`).
-/

namespace DelegationStrategy.Store

open DelegationStrategy.Lib DelegationStrategy.Collect

/-! ## Tables -/

/-- The columns of `mev` that come from the validator's account. -/
structure MevColumns where
  mevCommission : Int
  totalEpochRewards : Option Nat
  claimedEpochRewards : Option Nat
  totalEpochClaimants : Option Int
  epochActiveClaimants : Option Int
  deriving DecidableEq, Repr

/-- The columns of `jito_priority_fee` that come from the validator's account. -/
structure PriorityFeeColumns where
  validatorCommission : Int
  totalLamportsTransferred : Nat
  totalEpochRewards : Option Nat
  claimedEpochRewards : Option Nat
  totalEpochClaimants : Option Int
  epochActiveClaimants : Option Int
  deriving DecidableEq, Repr

/-- `ValidatorJitoMEVInfo` or `ValidatorJitoPriorityFeeInfo`. -/
structure JitoInfo (C : Type) where
  voteAccount : String
  epoch : Nat
  columns : C
  deriving DecidableEq, Repr

structure JitoRow (C : Type) where
  voteAccount : String
  columns : C
  epochSlot : Nat
  epoch : Nat
  createdAt : Timestamp
  deriving DecidableEq, Repr

variable {C : Type}

def JitoRow.key (row : JitoRow C) : String × Nat := (row.voteAccount, row.epoch)

/-! ## Snapshots -/

/-- `v as i32` of a `u64`. -/
def u64AsI32 (v : Nat) : Int := (v : Int).bmod (2 ^ 32)

/-- `ValidatorJitoMEVInfo::from_snapshot`. -/
def mevInfo (v : MevTipDistributionValidatorSnapshot) : JitoInfo MevColumns where
  voteAccount := v.voteAccount
  epoch := v.epoch
  columns := {
    mevCommission := v.mevCommission.toNat
    totalEpochRewards := v.totalEpochRewards
    claimedEpochRewards := v.claimedEpochRewards
    totalEpochClaimants := v.totalEpochClaimants.map u64AsI32
    epochActiveClaimants := v.epochActiveClaimants.map u64AsI32 }

/-- `ValidatorJitoPriorityFeeInfo::from_snapshot`. -/
def priorityFeeInfo (v : PriorityFeeDistributionValidatorSnapshot) :
    JitoInfo PriorityFeeColumns where
  voteAccount := v.voteAccount
  epoch := v.epoch
  columns := {
    validatorCommission := v.priorityCommission.toNat
    totalLamportsTransferred := v.totalLamportsTransferred
    totalEpochRewards := v.totalEpochRewards
    claimedEpochRewards := v.claimedEpochRewards
    totalEpochClaimants := v.totalEpochClaimants.map u64AsI32
    epochActiveClaimants := v.epochActiveClaimants.map u64AsI32 }

/-- The arguments of `store_mev` or `store_priority_fee`. Every validator is entered
under its vote account, with the epoch of the snapshot. -/
structure JitoArgs (C : Type) where
  snapshotEpoch : Nat
  snapshotCreatedAt : Timestamp
  snapshotLoadedAtSlotIndex : Nat
  validators : Dict String (JitoInfo C)
  voteAccounts : ∀ e ∈ validators.entries, e.2.voteAccount = e.1
  epochs : ∀ e ∈ validators.entries, e.2.epoch = snapshotEpoch

/-- `store_jito` for one of the account types. -/
def jitoArgs {α : Type} (snapshot : JitoSnapshot) (validators : Dict String α)
    (info : α → JitoInfo C)
    (hmem : ∀ e ∈ validators.entries, ∃ v, (e.1, v) ∈ snapshot.validators.entries ∧
      v.voteAccount = (info e.2).voteAccount ∧ v.epoch = (info e.2).epoch) : JitoArgs C where
  snapshotEpoch := snapshot.epoch
  snapshotCreatedAt := snapshot.createdAt
  snapshotLoadedAtSlotIndex := snapshot.loadedAtSlotIndex
  validators := validators.mapVal info
  voteAccounts e he := by
    obtain ⟨e₀, he₀, rfl⟩ := List.mem_map.mp he
    obtain ⟨v, hv, haccount, -⟩ := hmem e₀ he₀
    exact haccount.symm.trans (snapshot.voteAccounts _ hv)
  epochs e he := by
    obtain ⟨e₀, he₀, rfl⟩ := List.mem_map.mp he
    obtain ⟨v, hv, -, hepoch⟩ := hmem e₀ he₀
    exact hepoch.symm.trans (snapshot.epochs _ hv)

/-- The arguments for `store_mev`. -/
def mevArgs (snapshot : JitoSnapshot) : JitoArgs MevColumns :=
  jitoArgs snapshot snapshot.getMevValidators mevInfo fun e he => by
    unfold JitoSnapshot.getMevValidators at he
    split at he
    · obtain ⟨v, hv, hsome⟩ := Dict.mem_filterMapVal.mp he
      cases v with
      | mevTipDistribution v => cases hsome; exact ⟨_, hv, rfl, rfl⟩
      | priorityFeeDistribution v => cases hsome
    · cases he

/-- The arguments for `store_priority_fee`. -/
def priorityFeeArgs (snapshot : JitoSnapshot) : JitoArgs PriorityFeeColumns :=
  jitoArgs snapshot snapshot.getPriorityFeeValidators priorityFeeInfo fun e he => by
    unfold JitoSnapshot.getPriorityFeeValidators at he
    split at he
    · obtain ⟨v, hv, hsome⟩ := Dict.mem_filterMapVal.mp he
      cases v with
      | mevTipDistribution v => cases hsome
      | priorityFeeDistribution v => cases hsome; exact ⟨_, hv, rfl, rfl⟩
    · cases he

/-! ## Statements -/

inductive JitoStatement (C : Type) where
  | update (infos : List (JitoInfo C)) (slot : Nat)
  | insert (rows : List (JitoRow C))

/-- `UPDATE … WHERE vote_account = u.vote_account AND epoch = u.epoch`; the time of
creation is among the values but not assigned. -/
def updateJito (infos : List (JitoInfo C)) (slot : Nat) (row : JitoRow C) : JitoRow C :=
  match infos.find? fun v => v.voteAccount = row.voteAccount ∧ v.epoch = row.epoch with
  | some v => { row with voteAccount := v.voteAccount, columns := v.columns, epochSlot := slot,
                         epoch := v.epoch }
  | none => row

def JitoStatement.execute (table : List (JitoRow C)) : JitoStatement C → List (JitoRow C)
  | update infos slot => table.map (updateJito infos slot)
  | insert rows => table ++ rows

/-- `get_existing_vote_accounts`. -/
def getExistingVoteAccounts (scan : Scan) (table : List (JitoRow C)) (epoch : Nat) : List String :=
  (scan.order (table.filter fun row => row.epoch = epoch)).map JitoRow.voteAccount

namespace JitoArgs

variable (args : JitoArgs C)

/-- The row that is inserted for a validator. -/
def row (v : JitoInfo C) : JitoRow C where
  voteAccount := v.voteAccount
  columns := v.columns
  epochSlot := args.snapshotLoadedAtSlotIndex
  epoch := args.snapshotEpoch
  createdAt := args.snapshotCreatedAt

/-- `updated_identities`: who is in the table and in the snapshot. -/
def updatedIdentities (existing : List String) : List String :=
  existing.filter fun voteAccount => (args.validators.get? voteAccount).isSome

/-- The validators that are left to insert. -/
def executions (existing : List String) : List (String × JitoInfo C) :=
  args.validators.entries.filter fun e => e.1 ∉ args.updatedIdentities existing

def DEFAULT_CHUNK_SIZE : Nat := 500

/-- The statements that follow the read; the condition is checked again in each chunk
of inserts. -/
def statements (existing : List String) : List (JitoStatement C) :=
  ((chunks DEFAULT_CHUNK_SIZE existing).map fun chunk =>
    .update (chunk.filterMap args.validators.get?) args.snapshotLoadedAtSlotIndex) ++
  (chunks DEFAULT_CHUNK_SIZE (args.executions existing)).map fun chunk =>
    .insert ((chunk.filter fun e => e.1 ∉ args.updatedIdentities existing).map fun e =>
      args.row e.2)

end JitoArgs

/-! ## Commands as processes -/

/-- A command before its read, or with the statements it still has to execute. -/
inductive StoreJito (C : Type) where
  | selecting (args : JitoArgs C)
  | executing (statements : List (JitoStatement C))

inductive JitoStep where
  /-- The next statement; a read returns its rows in any order. -/
  | next (scan : Scan)
  /-- The command stops, by itself or because a statement fails. -/
  | stop

def StoreJito.step (table : List (JitoRow C)) :
    StoreJito C → JitoStep → Option (List (JitoRow C) × StoreJito C)
  | selecting args, .next scan => some (table, executing
      (args.statements (getExistingVoteAccounts scan table args.snapshotEpoch)))
  | executing (statement :: rest), .next _ => some (statement.execute table, executing rest)
  | executing [], .next _ => none
  | _, .stop => some (table, executing [])

/-- Any number of commands for one table. -/
def jitoProtocol (C : Type) :
    Protocol (List (JitoRow C)) (StoreJito C) Empty (JitoArgs C) JitoStep where
  env _ a := nomatch a
  start := .selecting
  proc := StoreJito.step

/-- Empty tables and no command. -/
def jitoInit (C : Type) : Procs (List (JitoRow C)) (StoreJito C) := ⟨[], []⟩

/-! ## `get_rewards_by_table` -/

/-- The sums by epoch, the latest epochs first, without the epochs that have too many
rows without an amount. -/
def getRewardsByTable (amount : C → Option Nat) (table : List (JitoRow C))
    (epochs limitNullCount : Nat) : List (Nat × ℚ) :=
  let rows := fun epoch => table.filter fun row => row.epoch = epoch
  let grouped := (table.map JitoRow.epoch).dedup.filter fun epoch =>
    (rows epoch).countP (fun row => amount row.columns = none) < limitNullCount
  ((grouped.insertionSort (· ≥ ·)).take epochs).map fun epoch =>
    (epoch, (((rows epoch).map fun row => (amount row.columns).getD 0).sum : ℚ) / 10 ^ 9)

def getMevRewards (table : List (JitoRow MevColumns)) (epochs : Nat) : List (Nat × ℚ) :=
  getRewardsByTable MevColumns.totalEpochRewards table epochs 10

def getJitoPriorityRewards (table : List (JitoRow PriorityFeeColumns)) (epochs : Nat) :
    List (Nat × ℚ) :=
  getRewardsByTable PriorityFeeColumns.totalEpochRewards table epochs 1

/-! ## What is still to be inserted -/

def JitoStatement.keys : JitoStatement C → List (String × Nat)
  | update _ _ => []
  | insert rows => rows.map JitoRow.key

/-- The keys a command still has to insert. -/
def StoreJito.pending : StoreJito C → List (String × Nat)
  | selecting _ => []
  | executing statements => statements.flatMap JitoStatement.keys

theorem updateJito_key (infos : List (JitoInfo C)) (slot : Nat) (row : JitoRow C) :
    (updateJito infos slot row).key = row.key := by
  unfold updateJito
  cases h : infos.find? fun v => v.voteAccount = row.voteAccount ∧ v.epoch = row.epoch with
  | none => rfl
  | some v =>
    have hv : v.voteAccount = row.voteAccount ∧ v.epoch = row.epoch := by
      simpa using List.find?_some h
    exact Prod.ext hv.1 hv.2

/-- A statement adds the keys it inserts and no others. -/
theorem keys_execute (table : List (JitoRow C)) (statement : JitoStatement C) :
    (statement.execute table).map JitoRow.key = table.map JitoRow.key ++ statement.keys := by
  cases statement with
  | update infos slot =>
    show (table.map (updateJito infos slot)).map JitoRow.key = table.map JitoRow.key ++ []
    rw [List.map_map, List.append_nil]
    exact List.map_congr_left fun row _ => updateJito_key infos slot row
  | insert rows => exact List.map_append

theorem mem_getExistingVoteAccounts (scan : Scan) {table : List (JitoRow C)} {epoch : Nat}
    {voteAccount : String} :
    voteAccount ∈ getExistingVoteAccounts scan table epoch ↔
      (voteAccount, epoch) ∈ table.map JitoRow.key := by
  unfold getExistingVoteAccounts
  constructor
  · intro h
    obtain ⟨row, hrow, rfl⟩ := List.mem_map.mp h
    obtain ⟨hmem, hepoch⟩ := List.mem_filter.mp ((scan.perm _).subset hrow)
    have hepoch : row.epoch = epoch := by simpa using hepoch
    exact List.mem_map.mpr ⟨row, hmem, Prod.ext rfl hepoch⟩
  · intro h
    obtain ⟨row, hrow, hkey⟩ := List.mem_map.mp h
    obtain ⟨rfl, rfl⟩ := Prod.mk.inj hkey
    refine List.mem_map_of_mem ((scan.perm _).symm.subset ?_)
    exact List.mem_filter.mpr ⟨hrow, by simp⟩

/-- After its read a command inserts the validators of its snapshot without a row. -/
theorem pending_statements (args : JitoArgs C) (existing : List String) :
    (StoreJito.executing (args.statements existing)).pending =
      (args.executions existing).map fun e => (e.1, args.snapshotEpoch) := by
  have hpos : 0 < JitoArgs.DEFAULT_CHUNK_SIZE := by decide
  have hupdates : ((chunks JitoArgs.DEFAULT_CHUNK_SIZE existing).map fun chunk =>
      JitoStatement.update (chunk.filterMap args.validators.get?)
        args.snapshotLoadedAtSlotIndex).flatMap JitoStatement.keys = [] := by
    refine List.flatMap_eq_nil_iff.mpr fun statement h => ?_
    obtain ⟨chunk, -, rfl⟩ := List.mem_map.mp h
    rfl
  -- the second check of the condition drops nothing
  have hinserts : ∀ chunk ∈ chunks JitoArgs.DEFAULT_CHUNK_SIZE (args.executions existing),
      (JitoStatement.insert ((chunk.filter fun e =>
        e.1 ∉ args.updatedIdentities existing).map fun e => args.row e.2)).keys =
        chunk.map fun e => (e.1, args.snapshotEpoch) := fun chunk hchunk => by
    have hleft : ∀ e ∈ chunk, e ∈ args.executions existing := fun e he =>
      mem_of_mem_chunks hpos hchunk he
    have hall : (chunk.filter fun e => e.1 ∉ args.updatedIdentities existing) = chunk :=
      List.filter_eq_self.mpr fun e he => (List.mem_filter.mp (hleft e he)).2
    show ((chunk.filter _).map _).map JitoRow.key = _
    rw [hall, List.map_map]
    refine List.map_congr_left fun e he => ?_
    exact Prod.ext (args.voteAccounts e (List.mem_filter.mp (hleft e he)).1) rfl
  show (args.statements existing).flatMap JitoStatement.keys = _
  unfold JitoArgs.statements
  rw [List.flatMap_append, hupdates, List.nil_append, List.flatMap_map]
  rw [List.flatMap_congr hinserts, List.flatMap_def, ← List.map_flatten, chunks_flatten hpos]

/-- Only vote accounts without a row are inserted, each once. -/
theorem pending_select (args : JitoArgs C) (scan : Scan) (table : List (JitoRow C)) :
    (StoreJito.executing (args.statements
      (getExistingVoteAccounts scan table args.snapshotEpoch))).pending.Nodup ∧
    ∀ k, k ∈ (StoreJito.executing (args.statements
        (getExistingVoteAccounts scan table args.snapshotEpoch))).pending ↔
      k.1 ∈ args.validators.keys ∧ k.2 = args.snapshotEpoch ∧ k ∉ table.map JitoRow.key := by
  rw [pending_statements]
  unfold JitoArgs.executions JitoArgs.updatedIdentities
  constructor
  · have hkeys : (args.validators.entries.map Prod.fst).Nodup := args.validators.nodup
    have hfiltered := hkeys.sublist ((List.filter_sublist (p := fun e => decide (e.1 ∉
      (getExistingVoteAccounts scan table args.snapshotEpoch).filter fun voteAccount =>
        (args.validators.get? voteAccount).isSome))).map Prod.fst)
    have h := hfiltered.map fun a b (hab : (a, args.snapshotEpoch) = (b, args.snapshotEpoch)) =>
      (Prod.mk.inj hab).1
    rwa [List.map_map] at h
  · rintro ⟨voteAccount, epoch⟩
    constructor
    · intro h
      obtain ⟨e, he, hk⟩ := List.mem_map.mp h
      obtain ⟨rfl, rfl⟩ := Prod.mk.inj hk
      obtain ⟨hmem, hnew⟩ := List.mem_filter.mp he
      refine ⟨List.mem_map_of_mem hmem, rfl, fun hrow => ?_⟩
      have hexisting := (mem_getExistingVoteAccounts scan).mpr hrow
      have hfound : args.validators.get? e.1 = some e.2 := Dict.get?_of_mem hmem
      simp [hexisting, hfound] at hnew
    · rintro ⟨hkey, rfl, hnew⟩
      obtain ⟨e, he, rfl⟩ := List.mem_map.mp hkey
      refine List.mem_map.mpr ⟨e, List.mem_filter.mpr ⟨he, ?_⟩, rfl⟩
      rw [← mem_getExistingVoteAccounts scan] at hnew
      simp [hnew]

/-! ## One row for each key -/

/-- The keys of the table and of all inserts still to come are distinct. -/
def Distinct (s : Procs (List (JitoRow C)) (StoreJito C)) : Prop :=
  (s.shared.map JitoRow.key ++ s.procs.flatMap StoreJito.pending).Nodup

/-- A reading command is going to insert a vote account that another command, which has
read before and is not finished, still has to insert for the same epoch. -/
def Clashes (procs : List (StoreJito C)) (args : JitoArgs C) : Prop :=
  ∃ p ∈ procs, ∃ voteAccount ∈ args.validators.keys, (voteAccount, args.snapshotEpoch) ∈ p.pending

/-- No read clashes. -/
def NoClash (s : Procs (List (JitoRow C)) (StoreJito C)) :
    Move Empty (JitoArgs C) JitoStep → Prop
  | .proc n (.next _) => ∀ args, s.procs[n]? = some (.selecting args) → ¬ Clashes s.procs args
  | _ => True

/-- A statement moves keys from what is to be inserted into the table, a command that
stops drops them; only a read adds any. -/
theorem StoreJito.step_cases {table table' : List (JitoRow C)} {p p' : StoreJito C} {b : JitoStep}
    (h : p.step table b = some (table', p')) :
    (∃ args scan, p = .selecting args ∧ b = .next scan ∧ table' = table ∧ p' = .executing
        (args.statements (getExistingVoteAccounts scan table args.snapshotEpoch))) ∨
      (table'.map JitoRow.key ++ p'.pending).Sublist (table.map JitoRow.key ++ p.pending) := by
  cases b with
  | stop =>
    right
    obtain ⟨rfl, rfl⟩ : table = table' ∧ StoreJito.executing [] = p' := by
      cases p <;> simpa [StoreJito.step] using h
    exact (List.append_nil _).symm ▸ List.sublist_append_left _ _
  | next scan =>
    cases p with
    | selecting args =>
      left
      obtain ⟨rfl, rfl⟩ := Prod.mk.inj (Option.some.inj h)
      exact ⟨args, scan, rfl, rfl, rfl, rfl⟩
    | executing statements =>
      right
      cases statements with
      | nil => cases h
      | cons statement rest =>
        obtain ⟨rfl, rfl⟩ := Prod.mk.inj (Option.some.inj h)
        rw [keys_execute, List.append_assoc]
        exact List.Sublist.refl _

/-- The keys of the process that moves next to those of the table, the others behind. -/
theorem keys_perm (T B P A : List (String × Nat)) :
    (T ++ (B ++ (P ++ A))).Perm ((T ++ P) ++ (B ++ A)) := by
  rw [List.append_assoc]
  refine List.Perm.append_left T ?_
  rw [← List.append_assoc, ← List.append_assoc]
  exact List.perm_append_comm.append_right A

theorem distinct_step {s s' : Procs (List (JitoRow C)) (StoreJito C)}
    {a : Move Empty (JitoArgs C) JitoStep} (hinv : Distinct s) (hok : NoClash s a)
    (h : (jitoProtocol C).step s a = some s') : Distinct s' := by
  unfold Distinct at hinv ⊢
  rcases Protocol.step_cases h with ⟨e, -⟩ | ⟨args, rfl, rfl⟩ |
    ⟨n, b, p, shared, p', rfl, hn, hstep, rfl⟩
  · exact e.elim
  · -- a command that starts has nothing to insert yet
    rw [List.flatMap_append]
    show (_ ++ (_ ++ [])).Nodup
    rwa [List.append_nil]
  · obtain ⟨before, after, -, hprocs, hset⟩ := Protocol.procs_split hn p'
    rw [hset]
    rw [hprocs, List.flatMap_append, List.flatMap_cons, (keys_perm _ _ _ _).nodup_iff] at hinv
    rw [List.flatMap_append, List.flatMap_cons, (keys_perm _ _ _ _).nodup_iff]
    rcases StoreJito.step_cases hstep with ⟨args, scan, rfl, rfl, rfl, rfl⟩ | hsub
    · obtain ⟨hnd, hmem⟩ := pending_select args scan s.shared
      rw [show (StoreJito.selecting args).pending = [] from rfl, List.append_nil] at hinv
      obtain ⟨htable, hothers, hdisjoint⟩ := List.nodup_append.mp hinv
      have hclash : ¬ Clashes s.procs args := hok args hn
      refine List.nodup_append.mpr ⟨List.nodup_append.mpr ⟨htable, hnd, ?_⟩, hothers, ?_⟩
      · rintro k hk k' hk' rfl
        exact ((hmem k).mp hk').2.2 hk
      · rintro k hk k' hk' rfl
        rcases List.mem_append.mp hk with hk | hk
        · exact hdisjoint k hk k hk' rfl
        · -- another command would insert the same key
          obtain ⟨hkey, hepoch, -⟩ := (hmem k).mp hk
          obtain ⟨q, hq, hpending⟩ : ∃ q ∈ s.procs, k ∈ q.pending := by
            rcases List.mem_append.mp hk' with hk' | hk'
            · obtain ⟨q, hq, hpending⟩ := List.mem_flatMap.mp hk'
              exact ⟨q, hprocs ▸ List.mem_append_left _ hq, hpending⟩
            · obtain ⟨q, hq, hpending⟩ := List.mem_flatMap.mp hk'
              exact ⟨q, hprocs ▸ List.mem_append_right _ (List.mem_cons_of_mem _ hq), hpending⟩
          refine hclash ⟨q, hq, k.1, hkey, ?_⟩
          rw [← hepoch]
          exact hpending
    · exact hinv.sublist (hsub.append_right _)

/-! ## The sums by epoch -/

/-- The amount in the row of a validator for an epoch. -/
def amountOf (amount : C → Option Nat) (table : List (JitoRow C)) (epoch : Nat)
    (voteAccount : String) : Nat :=
  ((rowOf JitoRow.key table (voteAccount, epoch)).bind fun row => amount row.columns).getD 0

/-- Every sum is over the validators of its epoch, each of them counted once. -/
def CountsOnce (amount : C → Option Nat) (table : List (JitoRow C))
    (rewards : List (Nat × ℚ)) : Prop :=
  ∀ r ∈ rewards, r.2 = (((((table.filter fun row => row.epoch = r.1).map
    JitoRow.voteAccount).dedup.map (amountOf amount table r.1)).sum : ℕ) : ℚ) / 10 ^ 9

/-- With one row for each key nothing is counted twice. -/
theorem countsOnce_of_nodup (amount : C → Option Nat) {table : List (JitoRow C)}
    (hnd : (table.map JitoRow.key).Nodup) (epochs limitNullCount : Nat) :
    CountsOnce amount table (getRewardsByTable amount table epochs limitNullCount) := by
  intro r hr
  obtain ⟨epoch, -, rfl⟩ := List.mem_map.mp hr
  have hepoch : ∀ row ∈ table.filter (fun row => row.epoch = epoch), row.epoch = epoch :=
    fun row hrow => by simpa using (List.mem_filter.mp hrow).2
  have haccounts : ((table.filter fun row => row.epoch = epoch).map JitoRow.voteAccount).Nodup :=
    nodup_map_filter hnd epoch
  show ((((table.filter fun row => row.epoch = epoch).map
    fun row => (amount row.columns).getD 0).sum : ℕ) : ℚ) / 10 ^ 9 = _
  rw [haccounts.dedup, List.map_map]
  congr 3
  refine List.map_congr_left fun row hrow => ?_
  have hrow' := (mem_iff_rowOf hnd).mp (List.mem_filter.mp hrow).1
  have hkey : (row.voteAccount, epoch) = row.key := Prod.ext rfl (hepoch row hrow).symm
  show _ = amountOf amount table epoch row.voteAccount
  unfold amountOf
  rw [hkey, hrow']
  rfl

/-- One row for each vote account and epoch, each counted once in the sums. -/
def OneRowEach (amount : C → Option Nat) (limitNullCount : Nat)
    (s : Procs (List (JitoRow C)) (StoreJito C)) : Prop :=
  (s.shared.map JitoRow.key).Nodup ∧
    ∀ epochs, CountsOnce amount s.shared (getRewardsByTable amount s.shared epochs limitNullCount)

theorem oneRowEach_of_distinct (amount : C → Option Nat) (limitNullCount : Nat)
    {s : Procs (List (JitoRow C)) (StoreJito C)} (h : Distinct s) :
    OneRowEach amount limitNullCount s := by
  have hnd := (List.nodup_append.mp h).1
  exact ⟨hnd, fun epochs => countsOnce_of_nodup amount hnd epochs limitNullCount⟩

/-! ## After a clash -/

/-- The statements of a command one after the other. -/
theorem solo_to_end (statements : List (JitoStatement C)) (table : List (JitoRow C)) :
    ∃ table', (jitoProtocol C).solo table (.executing statements)
        (List.replicate statements.length (.next .sequential)) = some (table', .executing []) ∧
      table'.map JitoRow.key =
        table.map JitoRow.key ++ (StoreJito.executing statements).pending := by
  induction statements generalizing table with
  | nil => exact ⟨table, rfl, (List.append_nil _).symm⟩
  | cons statement rest ih =>
    obtain ⟨table', hsolo, hkeys⟩ := ih (statement.execute table)
    refine ⟨table', hsolo, ?_⟩
    rw [hkeys, keys_execute, List.append_assoc]
    rfl

/-- A command that has read can run to its end; it adds what it had to insert. -/
theorem exec_to_end (statements : List (JitoStatement C))
    {s : Procs (List (JitoRow C)) (StoreJito C)} {n : Nat}
    (hn : s.procs[n]? = some (.executing statements)) :
    ∃ table, exec (jitoProtocol C).step s
        ((List.replicate statements.length (.next .sequential)).map (.proc n)) =
          some ⟨table, s.procs.set n (.executing [])⟩ ∧
      table.map JitoRow.key =
        s.shared.map JitoRow.key ++ (StoreJito.executing statements).pending := by
  obtain ⟨table, hsolo, hkeys⟩ := solo_to_end statements s.shared
  exact ⟨table, Protocol.exec_solo hn hsolo, hkeys⟩

/-- Two commands that have read run to their ends, one after the other. -/
theorem exec_both_to_end {s : Procs (List (JitoRow C)) (StoreJito C)} {n m : Nat}
    {own others : List (JitoStatement C)} (hne : n ≠ m)
    (hn : s.procs[n]? = some (.executing own)) (hm : s.procs[m]? = some (.executing others)) :
    ∃ moves s', exec (jitoProtocol C).step s moves = some s' ∧
      s'.shared.map JitoRow.key = s.shared.map JitoRow.key ++
        (StoreJito.executing others).pending ++ (StoreJito.executing own).pending := by
  obtain ⟨table₁, hexec₁, hkeys₁⟩ := exec_to_end others hm
  obtain ⟨table₂, hexec₂, hkeys₂⟩ := exec_to_end own
    (s := ⟨table₁, s.procs.set m (.executing [])⟩) (n := n) (by
      show (s.procs.set m (.executing []))[n]? = _
      rw [List.getElem?_set_ne hne.symm, hn])
  refine ⟨_, _, by rw [exec_append, hexec₁]; exact hexec₂, ?_⟩
  rw [hkeys₂, hkeys₁]

/-- Which move clashes, and with which command. -/
theorem clashes_of_not_noClash {s : Procs (List (JitoRow C)) (StoreJito C)}
    {a : Move Empty (JitoArgs C) JitoStep} (h : ¬ NoClash s a) :
    ∃ n scan args, s.procs[n]? = some (.selecting args) ∧ a = .proc n (.next scan) ∧
      ∃ (m : Nat) (others : List (JitoStatement C)), s.procs[m]? = some (.executing others) ∧
        ∃ voteAccount ∈ args.validators.keys,
          (voteAccount, args.snapshotEpoch) ∈ (StoreJito.executing others).pending := by
  cases a with
  | env e => exact e.elim
  | spawn args => exact absurd trivial h
  | proc n b =>
    cases b with
    | stop => exact absurd trivial h
    | next scan =>
      unfold NoClash at h
      push Not at h
      obtain ⟨args, hn, q, hq, voteAccount, haccount, hpending⟩ := h
      refine ⟨n, scan, args, hn, rfl, ?_⟩
      obtain ⟨m, hm⟩ := List.mem_iff_getElem?.mp hq
      -- the other command has read, so there is something left to insert
      cases q with
      | selecting args' => cases hpending
      | executing others => exact ⟨m, others, hm, voteAccount, haccount, hpending⟩

/-- After a read that clashes, both commands running to their end give a key two rows. -/
theorem exists_duplicate {s s' : Procs (List (JitoRow C)) (StoreJito C)}
    {a : Move Empty (JitoArgs C) JitoStep} (hinv : Distinct s)
    (h : (jitoProtocol C).step s a = some s') (hclash : ¬ NoClash s a) :
    ∃ moves s'', exec (jitoProtocol C).step s' moves = some s'' ∧
      ¬ (s''.shared.map JitoRow.key).Nodup := by
  obtain ⟨n, scan, args, hn, rfl, m, others, hm, voteAccount, haccount, hpending⟩ :=
    clashes_of_not_noClash hclash
  have hne : n ≠ m := by
    rintro rfl
    rw [hm] at hn
    cases hn
  obtain ⟨own, hown⟩ : ∃ own, own = args.statements
      (getExistingVoteAccounts scan s.shared args.snapshotEpoch) := ⟨_, rfl⟩
  obtain rfl : (⟨s.shared, s.procs.set n (.executing own)⟩ : Procs _ _) = s' := by
    have hstep : (jitoProtocol C).step s (.proc n (.next scan)) =
        some ⟨s.shared, s.procs.set n (.executing own)⟩ :=
      Protocol.step_proc hn (by rw [hown]; rfl)
    exact Option.some.inj (hstep.symm.trans h)
  have hnew : (voteAccount, args.snapshotEpoch) ∉ s.shared.map JitoRow.key := fun hrow =>
    (List.nodup_append.mp hinv).2.2 _ hrow _
      (List.mem_flatMap.mpr ⟨_, List.mem_of_getElem? hm, hpending⟩) rfl
  have hmine : (voteAccount, args.snapshotEpoch) ∈ (StoreJito.executing own).pending := by
    rw [hown]
    exact ((pending_select args scan s.shared).2 _).mpr ⟨haccount, rfl, hnew⟩
  -- first the other command runs to its end, then this one
  obtain ⟨moves, s'', hexec, hkeys⟩ := exec_both_to_end
    (s := ⟨s.shared, s.procs.set n (.executing own)⟩) hne
    (List.getElem?_set_self (List.getElem?_eq_some_iff.mp hn).1)
    ((List.getElem?_set_ne hne).trans hm)
  refine ⟨moves, s'', hexec, fun hnd => ?_⟩
  rw [hkeys] at hnd
  exact (List.nodup_append.mp hnd).2.2 _ (List.mem_append_right _ hpending) _ hmine rfl

/-! ## Any number of commands -/

/-- In a run from empty tables in which no read clashes every vote account has at most
one row for an epoch, and the sums count it once. -/
theorem statesAll_oneRowEach (amount : C → Option Nat) (limitNullCount : Nat)
    {moves : List (Move Empty (JitoArgs C) JitoStep)}
    (hok : StepsAll (jitoProtocol C).step NoClash (jitoInit C) moves) :
    StatesAll (jitoProtocol C).step (OneRowEach amount limitNullCount) (jitoInit C) moves := by
  have hinit : Distinct (jitoInit C) := List.nodup_nil
  refine (statesAll_of_stepsAll (fun s a s' hinv hclash hstep => ?_) hinit hok).mono
    fun s => oneRowEach_of_distinct amount limitNullCount
  exact distinct_step hinv hclash hstep

/-- **One row for each validator and epoch**: for both account types, the property holds
throughout every run in which no read clashes; and a read that clashes, in a run without
a clash before it, can be followed by statements that give a key two rows. -/
theorem storeJito_one_row_each (mevMoves : List (Move Empty (JitoArgs MevColumns) JitoStep))
    (priorityMoves : List (Move Empty (JitoArgs PriorityFeeColumns) JitoStep)) :
    (StepsAll (jitoProtocol MevColumns).step NoClash (jitoInit _) mevMoves →
      StatesAll (jitoProtocol MevColumns).step
        (OneRowEach MevColumns.totalEpochRewards 10) (jitoInit _) mevMoves) ∧
    (StepsAll (jitoProtocol PriorityFeeColumns).step NoClash (jitoInit _) priorityMoves →
      StatesAll (jitoProtocol PriorityFeeColumns).step
        (OneRowEach PriorityFeeColumns.totalEpochRewards 1) (jitoInit _) priorityMoves) ∧
    ∀ (C : Type) moves a s s', StepsAll (jitoProtocol C).step NoClash (jitoInit C) moves →
      exec (jitoProtocol C).step (jitoInit C) moves = some s →
      (jitoProtocol C).step s a = some s' → ¬ NoClash s a →
        ∃ more s'', exec (jitoProtocol C).step s' more = some s'' ∧
          ¬ (s''.shared.map JitoRow.key).Nodup := by
  refine ⟨statesAll_oneRowEach _ 10, statesAll_oneRowEach _ 1, ?_⟩
  intro C moves a s s' hok hexec hstep hclash
  have hinit : Distinct (jitoInit C) := List.nodup_nil
  have hall : StatesAll (jitoProtocol C).step Distinct (jitoInit C) moves :=
    statesAll_of_stepsAll (fun _ _ _ hinv hclash hstep => distinct_step hinv hclash hstep) hinit hok
  have hinv := hall.last hexec
  exact exists_duplicate hinv hstep hclash

/-- A snapshot of one validator with a reward of one SOL. -/
def jitoSnapshot : JitoSnapshot where
  epoch := 700
  accountType := .mevTipDistribution
  loadedAtSlotIndex := 1000
  createdAt := 0
  validators := ⟨[("vote", .mevTipDistribution {
    voteAccount := "vote"
    mevCommission := 800
    epoch := 700
    totalEpochRewards := some 1000000000
    claimedEpochRewards := some 0
    totalEpochClaimants := some 10
    epochActiveClaimants := some 5 })], List.nodup_singleton _⟩
  voteAccounts := by simp [JitoValidatorSnapshot.voteAccount]
  epochs := by simp [JitoValidatorSnapshot.epoch]

/-- Two collection jobs store the snapshot: both read, then both insert. -/
def overlappingRuns : List (Move Empty (JitoArgs MevColumns) JitoStep) :=
  [.spawn (mevArgs jitoSnapshot), .spawn (mevArgs jitoSnapshot),
    .proc 0 (.next .sequential), .proc 1 (.next .sequential),
    .proc 0 (.next .sequential), .proc 1 (.next .sequential)]

/-- The validator gets two rows, and the sum of the epoch is two SOL instead of one. -/
theorem storeJito_duplicates :
    ¬ (∀ moves, StatesAll (jitoProtocol MevColumns).step
        (OneRowEach MevColumns.totalEpochRewards 10) (jitoInit _) moves) ∧
    ∃ s, exec (jitoProtocol MevColumns).step (jitoInit _) overlappingRuns = some s ∧
      s.shared.map JitoRow.key = [("vote", 700), ("vote", 700)] ∧
      getMevRewards s.shared 1 = [(700, 2)] := by
  have hrun : ∃ s, exec (jitoProtocol MevColumns).step (jitoInit _) overlappingRuns = some s ∧
      s.shared.map JitoRow.key = [("vote", 700), ("vote", 700)] ∧
      getMevRewards s.shared 1 = [(700, 2)] := ⟨_, rfl, by decide +kernel, by decide +kernel⟩
  refine ⟨fun hall => ?_, hrun⟩
  obtain ⟨s, hexec, hkeys, -⟩ := hrun
  have h := ((hall overlappingRuns).last hexec).1
  rw [hkeys] at h
  revert h
  decide

/-- Nothing clashes as long as nobody has anything left to insert. -/
theorem noClash_of_pending {s : Procs (List (JitoRow C)) (StoreJito C)}
    (h : ∀ p ∈ s.procs, p.pending = []) (a : Move Empty (JitoArgs C) JitoStep) : NoClash s a := by
  cases a with
  | env e => exact e.elim
  | spawn args => trivial
  | proc n b =>
    cases b with
    | stop => trivial
    | next scan =>
      rintro args - ⟨p, hp, voteAccount, -, hpending⟩
      rw [h p hp] at hpending
      cases hpending

/-- Only a read can clash. -/
theorem noClash_of_executing {s : Procs (List (JitoRow C)) (StoreJito C)} {n : Nat} {b : JitoStep}
    {statements : List (JitoStatement C)} (h : s.procs[n]? = some (.executing statements)) :
    NoClash s (.proc n b) := by
  cases b with
  | stop => trivial
  | next scan =>
    intro args hargs
    rw [h] at hargs
    cases hargs

/-- The same snapshot stored by one job after the other: the second one updates. -/
theorem storeJito_one_row_each_sequential :
    let moves : List (Move Empty (JitoArgs MevColumns) JitoStep) :=
      [.spawn (mevArgs jitoSnapshot), .proc 0 (.next .sequential), .proc 0 (.next .sequential),
        .spawn (mevArgs jitoSnapshot), .proc 1 (.next .sequential), .proc 1 (.next .sequential)]
    StatesAll (jitoProtocol MevColumns).step (OneRowEach MevColumns.totalEpochRewards 10)
      (jitoInit _) moves := by
  intro moves
  apply (storeJito_one_row_each moves []).1
  -- at both reads no command has anything left to insert
  refine .cons rfl trivial (.cons rfl (noClash_of_pending (by decide) _) ?_)
  refine .cons rfl (noClash_of_executing rfl) (.cons rfl trivial ?_)
  refine .cons rfl (noClash_of_pending (by decide) _) ?_
  exact .cons rfl (noClash_of_executing rfl) trivial

end DelegationStrategy.Store
