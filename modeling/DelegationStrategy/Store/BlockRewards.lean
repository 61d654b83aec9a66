import DelegationStrategy.Collect.BlockRewards
import DelegationStrategy.Lib.Autocommit
import DelegationStrategy.Lib.LastWins
import DelegationStrategy.Lib.Sql
import DelegationStrategy.Lib.Upsert
import Mathlib.Algebra.BigOperators.Ring.Finset
import Mathlib.Data.Rat.Cast.Order

/-!
# The `validators_block_rewards` table

`store_block_rewards` (`store/src/validators_block_rewards.rs`) collects the rows
of a snapshot into a hash map by identity and vote account and upserts the map,
500 rows a statement.

- What a complete run leaves of a key is the last row of the snapshot with it
  (`rowOf_storeBlockRewards`), rows of other keys stay, and a second run of the
  same snapshot, in any order and also an interrupted one, changes no row
  (`rows_again`).
- The amounts are *not* conserved. The map is no sum: of several rows of one
  identity and vote account all but the last are lost, and the amounts are
  conserved exactly if the lost ones are zero (`blockRewards_conserved_iff`).
  `load_take_rates` sums the same rows of the same BigQuery table.
-/

namespace DelegationStrategy.Store

open DelegationStrategy.Lib DelegationStrategy.Collect

/-! ## The table -/

/-- The columns of `UNIQUE(epoch, identity_account, vote_account)`. -/
structure BlockRewardsKey where
  epoch : Nat
  identityAccount : String
  voteAccount : String
  deriving DecidableEq, Repr

structure BlockRewardsRow extends BlockRewardsKey where
  id : Nat
  authorizedVoter : String
  amount : Rat
  createdAt : Timestamp
  updatedAt : Timestamp
  deriving DecidableEq, Repr

/-- `ON CONFLICT … DO UPDATE SET authorized_voter = EXCLUDED.authorized_voter, amount =
EXCLUDED.amount, updated_at = EXCLUDED.updated_at`. -/
def BlockRewardsRow.merge (row excluded : BlockRewardsRow) : BlockRewardsRow :=
  { row with
    authorizedVoter := excluded.authorizedVoter
    amount := excluded.amount
    updatedAt := excluded.updatedAt }

theorem BlockRewardsRow.merge_key (row excluded : BlockRewardsRow) :
    (row.merge excluded).toBlockRewardsKey = row.toBlockRewardsKey := rfl

/-- The table and the sequence of its `BIGSERIAL`. -/
structure BlockRewardsTable where
  rows : List BlockRewardsRow
  nextId : Nat
  unique : (rows.map BlockRewardsRow.toBlockRewardsKey).Nodup

def BlockRewardsTable.empty : BlockRewardsTable := ⟨[], 1, List.nodup_nil⟩

/-! ## `store_block_rewards` -/

structure ValidatorBlockReward extends BlockRewardsKey where
  authorizedVoter : String
  amount : Rat
  deriving DecidableEq, Repr

def ValidatorBlockReward.fromSnapshot (reward : ValidatorBlockRewards) (epoch : Nat) :
    ValidatorBlockReward where
  epoch := epoch
  identityAccount := reward.identityAccount
  voteAccount := reward.voteAccount
  authorizedVoter := reward.authorizedVoter
  amount := reward.amount

/-- The hash map `block_rewards`. -/
def blockRewards (snapshot : ValidatorsBlockRewardsSnapshot) :
    Dict (String × String) ValidatorBlockReward :=
  Dict.ofList (snapshot.blockRewards.map fun r =>
    (r.account, ValidatorBlockReward.fromSnapshot r snapshot.epoch))

/-- The values of the map, in the order in which it is traversed. -/
def records (scan : Scan) (snapshot : ValidatorsBlockRewardsSnapshot) :
    List ValidatorBlockReward :=
  (scan.order (blockRewards snapshot).entries).map Prod.snd

/-- A row of the `INSERT`. -/
def proposedRow (createdAt : Timestamp) (reward : ValidatorBlockReward) (id : Nat) :
    BlockRewardsRow :=
  { reward.toBlockRewardsKey with
    id := id
    authorizedVoter := reward.authorizedVoter
    amount := reward.amount
    createdAt := createdAt
    updatedAt := createdAt }

/-- The rows of the `INSERT`; each takes an id from the sequence. -/
def proposedRows (createdAt : Timestamp) (nextId : Nat) (rewards : List ValidatorBlockReward) :
    List BlockRewardsRow :=
  (rewards.zipIdx nextId).map fun entry => proposedRow createdAt entry.1 entry.2

/-- What the rows of the `INSERT` do to the table. -/
def upsertRewards (createdAt : Timestamp) (rewards : List ValidatorBlockReward)
    (table : BlockRewardsTable) : BlockRewardsTable where
  rows := upsertAll BlockRewardsRow.toBlockRewardsKey BlockRewardsRow.merge table.rows
    (proposedRows createdAt table.nextId rewards)
  nextId := table.nextId + rewards.length
  unique := nodup_upsertAll BlockRewardsRow.merge_key table.unique _

/-- The statement for one chunk. It fails if it would affect a row twice. -/
def upsertRewardsChunk (createdAt : Timestamp) (chunk : List ValidatorBlockReward) :
    Statement DbError BlockRewardsTable := fun table =>
  if (chunk.map ValidatorBlockReward.toBlockRewardsKey).Nodup then
    .ok (upsertRewards createdAt chunk table)
  else .error .cardinalityViolation

def BLOCK_REWARDS_CHUNK_SIZE : Nat := 500

/-- The statements of `store_block_rewards`. -/
def blockRewardsStatements (scan : Scan) (snapshot : ValidatorsBlockRewardsSnapshot) :
    List (Statement DbError BlockRewardsTable) :=
  (chunks BLOCK_REWARDS_CHUNK_SIZE (records scan snapshot)).map
    (upsertRewardsChunk snapshot.createdAt)

/-- `store_block_rewards`: what it leaves and its result. -/
def storeBlockRewards (fault : Nat → Option DbError) (scan : Scan)
    (snapshot : ValidatorsBlockRewardsSnapshot) (table : BlockRewardsTable) :
    BlockRewardsTable × Except DbError Unit :=
  autocommit fault (blockRewardsStatements scan snapshot) table

/-! ## The records -/

/-- The keys that the rows of a snapshot have in the table. -/
def snapshotKeys (snapshot : ValidatorsBlockRewardsSnapshot) : List BlockRewardsKey :=
  snapshot.blockRewards.map fun r => ⟨snapshot.epoch, r.identityAccount, r.voteAccount⟩

section Records

variable {snapshot : ValidatorsBlockRewardsSnapshot}

/-- The records are the last rows of their accounts. -/
theorem records_perm (scan : Scan) (snapshot : ValidatorsBlockRewardsSnapshot) :
    (records scan snapshot).Perm
      ((lastOfKey ValidatorBlockRewards.account snapshot.blockRewards).map fun r =>
        ValidatorBlockReward.fromSnapshot r snapshot.epoch) := by
  have hlast : lastOfKey Prod.fst (snapshot.blockRewards.map fun r =>
      (r.account, ValidatorBlockReward.fromSnapshot r snapshot.epoch)) = _ :=
    lastOfKey_map (fun _ => rfl) snapshot.blockRewards
  have hentries := (scan.perm _).trans (entries_ofList_perm
    (snapshot.blockRewards.map fun r =>
      (r.account, ValidatorBlockReward.fromSnapshot r snapshot.epoch)))
  rw [hlast] at hentries
  have h := hentries.map Prod.snd
  rwa [List.map_map] at h

theorem nodup_records (scan : Scan) (snapshot : ValidatorsBlockRewardsSnapshot) :
    ((records scan snapshot).map ValidatorBlockReward.toBlockRewardsKey).Nodup := by
  refine ((records_perm scan snapshot).map _).nodup_iff.mpr ?_
  rw [List.map_map]
  -- two keys of one epoch differ as the accounts do
  have haccounts : ((lastOfKey ValidatorBlockRewards.account snapshot.blockRewards).map
      ValidatorBlockRewards.account).Nodup := nodup_lastOfKey snapshot.blockRewards
  refine List.Nodup.of_map (fun k : BlockRewardsKey => (k.identityAccount, k.voteAccount)) ?_
  rw [List.map_map]
  exact haccounts

theorem mem_keys_records {scan : Scan} {k : BlockRewardsKey} :
    k ∈ (records scan snapshot).map ValidatorBlockReward.toBlockRewardsKey ↔
      k ∈ snapshotKeys snapshot := by
  rw [((records_perm scan snapshot).map _).mem_iff, List.map_map]
  unfold snapshotKeys
  have haccount : ∀ rows : List ValidatorBlockRewards,
      (k ∈ rows.map fun r => (⟨snapshot.epoch, r.identityAccount, r.voteAccount⟩ :
        BlockRewardsKey)) ↔
      k.epoch = snapshot.epoch ∧
        (k.identityAccount, k.voteAccount) ∈ rows.map ValidatorBlockRewards.account := by
    intro rows
    constructor
    · intro h
      obtain ⟨r, hr, rfl⟩ := List.mem_map.mp h
      exact ⟨rfl, List.mem_map_of_mem hr⟩
    · rintro ⟨hepoch, h⟩
      obtain ⟨r, hr, haccount⟩ := List.mem_map.mp h
      obtain ⟨hidentity, hvote⟩ := Prod.mk.inj haccount
      exact List.mem_map.mpr ⟨r, hr, by rw [← hepoch, hidentity, hvote]⟩
  refine (haccount _).trans (Iff.trans ?_ (haccount _).symm)
  rw [mem_map_lastOfKey]

/-- Whatever the order of the map, the records are the same. -/
theorem mem_records_scan {scan scan' : Scan} {reward : ValidatorBlockReward} :
    reward ∈ records scan snapshot ↔ reward ∈ records scan' snapshot :=
  ((records_perm scan snapshot).trans (records_perm scan' snapshot).symm).mem_iff

end Records

/-! ## The rows after the command -/

section Rows

variable {createdAt : Timestamp} {table : BlockRewardsTable} {scan : Scan}
variable {snapshot : ValidatorsBlockRewardsSnapshot}

theorem map_key_proposedRows (createdAt : Timestamp) (nextId : Nat)
    (rewards : List ValidatorBlockReward) :
    (proposedRows createdAt nextId rewards).map BlockRewardsRow.toBlockRewardsKey =
      rewards.map ValidatorBlockReward.toBlockRewardsKey := by
  unfold proposedRows
  rw [List.map_map]
  show (rewards.zipIdx nextId).map (ValidatorBlockReward.toBlockRewardsKey ∘ Prod.fst) = _
  rw [← List.map_map, List.zipIdx_map_fst]

/-- Statements after each other are one statement for all their rows. -/
theorem upsertRewards_append (createdAt : Timestamp) (rewards rest : List ValidatorBlockReward)
    (table : BlockRewardsTable) :
    upsertRewards createdAt rest (upsertRewards createdAt rewards table) =
      upsertRewards createdAt (rewards ++ rest) table := by
  have hrows : proposedRows createdAt table.nextId (rewards ++ rest) =
      proposedRows createdAt table.nextId rewards ++
        proposedRows createdAt (table.nextId + rewards.length) rest := by
    unfold proposedRows
    rw [List.zipIdx_append, List.map_append]
  unfold upsertRewards
  congr 1
  · dsimp only
    rw [hrows]
    unfold upsertAll
    rw [List.foldl_append]
  · dsimp only
    rw [List.length_append, Nat.add_assoc]

theorem byChunks_upsertRewards (createdAt : Timestamp) :
    ByChunks ValidatorBlockReward.toBlockRewardsKey (upsertRewards createdAt)
      (upsertRewardsChunk createdAt) where
  nil _ := rfl
  append := upsertRewards_append createdAt
  chunk _ _ hnd := if_pos hnd

/-- **What a run leaves**: the first records, all of them if nothing fails. -/
theorem storeBlockRewards_spec (fault : Nat → Option DbError) (scan : Scan)
    (snapshot : ValidatorsBlockRewardsSnapshot) (table : BlockRewardsTable) :
    ∃ k, (storeBlockRewards fault scan snapshot table).1 =
        upsertRewards snapshot.createdAt
          ((records scan snapshot).take (BLOCK_REWARDS_CHUNK_SIZE * k)) table ∧
      ((storeBlockRewards fault scan snapshot table).2 = .ok () →
        (records scan snapshot).take (BLOCK_REWARDS_CHUNK_SIZE * k) = records scan snapshot) :=
  (byChunks_upsertRewards snapshot.createdAt).autocommit_spec (by decide)
    (nodup_records scan snapshot) fault table

/-- What a row says of a record. -/
structure Carries (createdAt : Timestamp) (reward : ValidatorBlockReward) (row : BlockRewardsRow) :
    Prop where
  authorizedVoter : row.authorizedVoter = reward.authorizedVoter
  amount : row.amount = reward.amount
  updatedAt : row.updatedAt = createdAt

theorem Carries.merge {reward : ValidatorBlockReward} {row : BlockRewardsRow}
    (h : Carries createdAt reward row) (id : Nat) :
    row.merge (proposedRow createdAt reward id) = row := by
  obtain ⟨hvoter, hamount, hupdated⟩ := h
  unfold BlockRewardsRow.merge proposedRow
  rw [← hvoter, ← hamount, ← hupdated]

theorem exists_of_mem_proposedRows {nextId : Nat} {rewards : List ValidatorBlockReward}
    {row : BlockRewardsRow} (h : row ∈ proposedRows createdAt nextId rewards) :
    ∃ reward ∈ rewards, ∃ id, row = proposedRow createdAt reward id := by
  obtain ⟨⟨reward, id⟩, hentry, rfl⟩ := List.mem_map.mp h
  exact ⟨reward, List.fst_mem_of_mem_zipIdx hentry, id, rfl⟩

theorem rowOf_proposedRows (createdAt : Timestamp) {rewards : List ValidatorBlockReward}
    (hnd : (rewards.map ValidatorBlockReward.toBlockRewardsKey).Nodup)
    {reward : ValidatorBlockReward} (hreward : reward ∈ rewards) (nextId : Nat) :
    ∃ id, rowOf BlockRewardsRow.toBlockRewardsKey (proposedRows createdAt nextId rewards)
      reward.toBlockRewardsKey = some (proposedRow createdAt reward id) := by
  have hkeys := map_key_proposedRows createdAt nextId rewards
  cases hnew : rowOf BlockRewardsRow.toBlockRewardsKey (proposedRows createdAt nextId rewards)
      reward.toBlockRewardsKey with
  | none =>
    exact absurd (hkeys ▸ List.mem_map_of_mem hreward) (rowOf_eq_none_iff.mp hnew)
  | some new =>
    obtain ⟨hmem, hkey⟩ := mem_of_rowOf hnew
    obtain ⟨reward', hreward', id, rfl⟩ := exists_of_mem_proposedRows hmem
    obtain rfl := List.inj_on_of_nodup_map hnd hreward' hreward hkey
    exact ⟨id, rfl⟩

/-- The row of a record that is stored. -/
theorem rowOf_upsertRewards {rewards : List ValidatorBlockReward}
    (hnd : (rewards.map ValidatorBlockReward.toBlockRewardsKey).Nodup)
    {reward : ValidatorBlockReward} (hreward : reward ∈ rewards) :
    ∃ row, rowOf BlockRewardsRow.toBlockRewardsKey (upsertRewards createdAt rewards table).rows
        reward.toBlockRewardsKey = some row ∧ Carries createdAt reward row := by
  have hkeys := map_key_proposedRows createdAt table.nextId rewards
  obtain ⟨id, hnew⟩ := rowOf_proposedRows createdAt hnd hreward table.nextId
  show ∃ row, rowOf _ (upsertAll _ _ table.rows _) _ = some row ∧ _
  rw [rowOf_upsertAll BlockRewardsRow.merge_key (hkeys ▸ hnd), hnew]
  refine ⟨_, rfl, ?_⟩
  cases rowOf BlockRewardsRow.toBlockRewardsKey table.rows reward.toBlockRewardsKey with
  | none => exact ⟨rfl, rfl, rfl⟩
  | some row => exact ⟨rfl, rfl, rfl⟩

/-- The rows of the other keys. -/
theorem rowOf_upsertRewards_of_not_mem {rewards : List ValidatorBlockReward}
    (hnd : (rewards.map ValidatorBlockReward.toBlockRewardsKey).Nodup) {k : BlockRewardsKey}
    (hk : k ∉ rewards.map ValidatorBlockReward.toBlockRewardsKey) :
    rowOf BlockRewardsRow.toBlockRewardsKey (upsertRewards createdAt rewards table).rows k =
      rowOf BlockRewardsRow.toBlockRewardsKey table.rows k := by
  have hkeys := map_key_proposedRows createdAt table.nextId rewards
  show rowOf _ (upsertAll _ _ table.rows _) _ = _
  rw [rowOf_upsertAll BlockRewardsRow.merge_key (hkeys ▸ hnd),
    rowOf_eq_none_iff.mpr (hkeys ▸ hk)]

/-- A complete run leaves the whole map. -/
theorem storeBlockRewards_eq {fault : Nat → Option DbError}
    (hok : (storeBlockRewards fault scan snapshot table).2 = .ok ()) :
    (storeBlockRewards fault scan snapshot table).1 =
      upsertRewards snapshot.createdAt (records scan snapshot) table := by
  obtain ⟨k, hleft, hall⟩ := storeBlockRewards_spec fault scan snapshot table
  rw [hleft, hall hok]

/-- Without a fault the run is complete. -/
theorem storeBlockRewards_complete (scan : Scan) (snapshot : ValidatorsBlockRewardsSnapshot)
    (table : BlockRewardsTable) :
    (storeBlockRewards (fun _ => none) scan snapshot table).2 = .ok () := by
  unfold storeBlockRewards blockRewardsStatements
  rw [(byChunks_upsertRewards snapshot.createdAt).autocommit_complete (by decide)
    (nodup_records scan snapshot)]

/-! ## What holds of every complete run -/

variable {fault : Nat → Option DbError}

/-- The row of a record after a complete run. -/
theorem rowOf_storeBlockRewards (hok : (storeBlockRewards fault scan snapshot table).2 = .ok ())
    {reward : ValidatorBlockReward} (hreward : reward ∈ records scan snapshot) :
    ∃ row, rowOf BlockRewardsRow.toBlockRewardsKey
        (storeBlockRewards fault scan snapshot table).1.rows reward.toBlockRewardsKey = some row ∧
      Carries snapshot.createdAt reward row := by
  rw [storeBlockRewards_eq hok]
  exact rowOf_upsertRewards (nodup_records scan snapshot) hreward

/-- Rows of other keys stay, whether the run is complete or not. -/
theorem mem_storeBlockRewards_iff {row : BlockRewardsRow}
    (hother : row.toBlockRewardsKey ∉ snapshotKeys snapshot) :
    row ∈ (storeBlockRewards fault scan snapshot table).1.rows ↔ row ∈ table.rows := by
  obtain ⟨k, hleft, -⟩ := storeBlockRewards_spec fault scan snapshot table
  have hsub := (List.take_sublist (BLOCK_REWARDS_CHUNK_SIZE * k) (records scan snapshot)).map
    ValidatorBlockReward.toBlockRewardsKey
  have hnot : row.toBlockRewardsKey ∉
      ((records scan snapshot).take (BLOCK_REWARDS_CHUNK_SIZE * k)).map
        ValidatorBlockReward.toBlockRewardsKey :=
    fun hmem => hother (mem_keys_records.mp (hsub.subset hmem))
  rw [hleft, mem_iff_rowOf (BlockRewardsTable.unique _), mem_iff_rowOf table.unique,
    rowOf_upsertRewards_of_not_mem ((nodup_records scan snapshot).sublist hsub) hnot]

/-- **A second run** changes no row, in whatever order it traverses the map and wherever it
is interrupted. -/
theorem rows_again (hok : (storeBlockRewards fault scan snapshot table).2 = .ok ())
    (fault' : Nat → Option DbError) (scan' : Scan) :
    (storeBlockRewards fault' scan' snapshot
        (storeBlockRewards fault scan snapshot table).1).1.rows =
      (storeBlockRewards fault scan snapshot table).1.rows := by
  obtain ⟨k, hleft, -⟩ := storeBlockRewards_spec fault' scan' snapshot
    (storeBlockRewards fault scan snapshot table).1
  rw [hleft]
  refine upsertAll_eq_self (BlockRewardsTable.unique _) fun new hnew => ?_
  obtain ⟨reward, hreward, id, rfl⟩ := exists_of_mem_proposedRows hnew
  obtain ⟨row, hrow, hcarries⟩ := rowOf_storeBlockRewards hok
    (mem_records_scan.mp ((List.take_sublist _ _).subset hreward))
  exact ⟨row, hrow, hcarries.merge id⟩

end Rows

/-! ## Conservation -/

/-- The sum of the amounts stored for some keys. -/
def storedAmount (table : BlockRewardsTable) (keys : List BlockRewardsKey) : Rat :=
  ((table.rows.filter fun row => row.toBlockRewardsKey ∈ keys).map BlockRewardsRow.amount).sum

/-- What a run should do: the amounts of the snapshot are stored, other rows stay, and
storing the snapshot again changes nothing. -/
structure Conserves (fault : Nat → Option DbError) (scan : Scan)
    (snapshot : ValidatorsBlockRewardsSnapshot) (table : BlockRewardsTable) : Prop where
  amounts : storedAmount (storeBlockRewards fault scan snapshot table).1 (snapshotKeys snapshot) =
    ((snapshot.blockRewards.map ValidatorBlockRewards.amount).sum : Nat)
  others : ∀ row : BlockRewardsRow, row.toBlockRewardsKey ∉ snapshotKeys snapshot →
    (row ∈ (storeBlockRewards fault scan snapshot table).1.rows ↔ row ∈ table.rows)
  again : ∀ fault' scan', (storeBlockRewards fault' scan' snapshot
      (storeBlockRewards fault scan snapshot table).1).1.rows =
    (storeBlockRewards fault scan snapshot table).1.rows

section Conservation

variable {fault : Nat → Option DbError} {scan : Scan}
variable {snapshot : ValidatorsBlockRewardsSnapshot} {table : BlockRewardsTable}

/-- The amounts of the keys of a snapshot are those of its records. -/
theorem storedAmount_eq (hok : (storeBlockRewards fault scan snapshot table).2 = .ok ()) :
    storedAmount (storeBlockRewards fault scan snapshot table).1 (snapshotKeys snapshot) =
      ((records scan snapshot).map ValidatorBlockReward.amount).sum := by
  have hnd := nodup_records scan snapshot
  have hkeys := map_key_proposedRows snapshot.createdAt 0 (records scan snapshot)
  -- the rows of the keys and the records, proposed as rows, agree on key and amount
  have hperm : (((storeBlockRewards fault scan snapshot table).1.rows.filter fun row =>
        row.toBlockRewardsKey ∈ snapshotKeys snapshot).map
          fun row => (row.toBlockRewardsKey, row.amount)).Perm
      ((proposedRows snapshot.createdAt 0 (records scan snapshot)).map
          fun row => (row.toBlockRewardsKey, row.amount)) := by
    refine perm_of_rowOf _ Prod.fst (fun _ => rfl)
      ((BlockRewardsTable.unique _).sublist (List.filter_sublist.map _)) (hkeys ▸ hnd) fun k => ?_
    rw [rowOf_filter]
    by_cases hk : k ∈ snapshotKeys snapshot
    · obtain ⟨reward, hreward, rfl⟩ := List.mem_map.mp (mem_keys_records.mpr hk)
      obtain ⟨row, hrow, hcarries⟩ := rowOf_storeBlockRewards hok hreward
      obtain ⟨id, hnew⟩ := rowOf_proposedRows snapshot.createdAt hnd hreward 0
      rw [if_pos hk, hrow, hnew, Option.map_some, Option.map_some, hcarries.amount,
        (mem_of_rowOf hrow).2]
      rfl
    · rw [if_neg hk, rowOf_eq_none_iff.mpr]
      rwa [hkeys, mem_keys_records]
  have hsum := (hperm.map Prod.snd).sum_eq
  rw [List.map_map, List.map_map] at hsum
  refine hsum.trans ?_
  unfold proposedRows
  rw [List.map_map]
  show ((((records scan snapshot).zipIdx 0).map (ValidatorBlockReward.amount ∘ Prod.fst))).sum = _
  rw [← List.map_map, List.zipIdx_map_fst]

/-- … which are the amounts of the rows that the map keeps. -/
theorem sum_records (scan : Scan) (snapshot : ValidatorsBlockRewardsSnapshot) :
    ((records scan snapshot).map ValidatorBlockReward.amount).sum =
      (((lastOfKey ValidatorBlockRewards.account snapshot.blockRewards).map
        ValidatorBlockRewards.amount).sum : Nat) := by
  rw [((records_perm scan snapshot).map _).sum_eq, List.map_map, Nat.cast_list_sum, List.map_map]
  rfl

/-- **When block rewards are conserved**: by a complete run, exactly if every row that
another row of its identity and vote account follows has amount zero. -/
theorem blockRewards_conserved_iff (fault : Nat → Option DbError) (scan : Scan)
    (snapshot : ValidatorsBlockRewardsSnapshot) (table : BlockRewardsTable)
    (hok : (storeBlockRewards fault scan snapshot table).2 = .ok ()) :
    Conserves fault scan snapshot table ↔
      ∀ r ∈ overwritten ValidatorBlockRewards.account snapshot.blockRewards, r.amount = 0 := by
  have hstored : storedAmount (storeBlockRewards fault scan snapshot table).1
        (snapshotKeys snapshot) = _ := (storedAmount_eq hok).trans (sum_records scan snapshot)
  rw [← sum_lastOfKey_eq_iff]
  constructor
  · rintro ⟨hamounts, -, -⟩
    exact Nat.cast_injective (R := Rat) (hstored.symm.trans hamounts)
  · intro hsum
    exact ⟨by rw [hstored, hsum], fun _ => mem_storeBlockRewards_iff, rows_again hok⟩

end Conservation

/-! ### Two authorized voters for one account -/

/-- Rows of six validators of epoch 800, two authorized voters each. -/
def twoVotersTable : List BlockRewardsEtlRow :=
  (List.range 12).map fun i => {
    epoch := 800
    identityAccount := toString (i / 2)
    voteAccount := toString (i / 2)
    amount := "5000000"
    authorizedVoter := toString i }

/-- The snapshot of `twoVotersTable`. -/
def twoVoters : ValidatorsBlockRewardsSnapshot where
  epoch := 800
  createdAt := 0
  blockRewards := (List.range 12).map fun i => {
    identityAccount := toString (i / 2)
    voteAccount := toString (i / 2)
    authorizedVoter := toString i
    amount := 5000000 }

/-- A snapshot with a row for each account is conserved. -/
theorem blockRewards_conserved_iff_distinct :
    Conserves (fun _ => none) .reverse
      { twoVoters with blockRewards := [⟨"a", "a", "x", 1⟩, ⟨"a", "b", "x", 2⟩] } .empty :=
  (blockRewards_conserved_iff _ _ _ _ (storeBlockRewards_complete _ _ _)).mpr
    (by decide)

/-- The collector writes the rows of both voters, and the amounts of one are stored. -/
theorem blockRewards_not_conserved :
    collectValidatorBlockRewardsInfo ⟨10, none, 12⟩ 0 801 5000 .sequential twoVotersTable =
        .ok (some twoVoters) ∧
      (storeBlockRewards (fun _ => none) .sequential twoVoters .empty).2 = .ok () ∧
        ¬ Conserves (fun _ => none) .sequential twoVoters .empty := by
  refine ⟨by decide, storeBlockRewards_complete _ _ _, fun h => ?_⟩
  exact absurd h.amounts (by decide +kernel)

end DelegationStrategy.Store
