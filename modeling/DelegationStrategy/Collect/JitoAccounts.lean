import DelegationStrategy.Collect.Rpc
import DelegationStrategy.Collect.Snapshot
import DelegationStrategy.Lib.LastWins
import DelegationStrategy.Lib.Tally

/-!
# Jito's distribution accounts

How `collect_jito_info` (`collect/src/validators_jito.rs`) finds the distribution accounts of
an epoch. The epoch of an account follows its optional merkle root, so it stands at byte 73
before the root is uploaded and at byte 137 afterwards; the collector asks for both places
(`jito_accounts`), and drops what it decodes to another epoch
(`deserialize_mev_tip_distribution`, `deserialize_priority_fee_distribution`).

`jitoValidators_exact`: what it writes are the accounts of the epoch, one entry each.
`collectedJitoSnapshot`: so every snapshot that is stored has its validators under their own
vote accounts.
-/

namespace DelegationStrategy.Collect

open DelegationStrategy.Lib

/-! ## Distribution accounts -/

/-- The counters of a merkle root. -/
structure MerkleRoot where
  maxTotalClaim : UInt64
  maxNumNodes : UInt64
  totalFundsClaimed : UInt64
  numNodesClaimed : UInt64
  deriving DecidableEq, Repr

/-- The fields that are read of both kinds of accounts. -/
structure DistributionAccount where
  validatorVoteAccount : Pubkey
  merkleRootUploadAuthority : Pubkey
  merkleRoot : Option MerkleRoot
  epochCreatedAt : UInt64
  validatorCommissionBps : UInt16
  deriving DecidableEq

abbrev TipDistributionAccount := DistributionAccount

structure PriorityFeeDistributionAccount extends DistributionAccount where
  totalLamportsTransferred : UInt64
  deriving DecidableEq

/-- `PriorityFeeDistributionValidatorSnapshot` with the field that is not stored. -/
structure PriorityFeeSnapshot extends PriorityFeeDistributionValidatorSnapshot where
  merkleRootUploadAuthority : String
  deriving DecidableEq, Repr

/-- `ValidatorSnapshot` as it is written. -/
inductive WrittenSnapshot where
  | mevTipDistribution (v : MevTipDistributionValidatorSnapshot)
  | priorityFeeDistribution (v : PriorityFeeSnapshot)
  deriving DecidableEq, Repr

/-- The snapshot as it is stored. -/
def WrittenSnapshot.stored : WrittenSnapshot → JitoValidatorSnapshot
  | mevTipDistribution v => .mevTipDistribution v
  | priorityFeeDistribution v =>
    .priorityFeeDistribution v.toPriorityFeeDistributionValidatorSnapshot

/-- The fields that are taken from the merkle root. -/
def WrittenSnapshot.merkleFields : WrittenSnapshot → List (Option Nat)
  | mevTipDistribution v =>
    [v.totalEpochRewards, v.claimedEpochRewards, v.totalEpochClaimants, v.epochActiveClaimants]
  | priorityFeeDistribution v =>
    [v.totalEpochRewards, v.claimedEpochRewards, v.totalEpochClaimants, v.epochActiveClaimants]

/-- What Jito's crates do. -/
structure JitoCrates where
  /-- `Pubkey::to_string`. -/
  toString : Pubkey → String
  /-- `TipDistributionAccount::SIZE` and `PriorityFeeDistributionAccount::SIZE`. -/
  accountSize : JitoAccountType → Nat
  /-- `AccountDeserialize::try_deserialize` for the two kinds. -/
  tryTipDistribution : List UInt8 → Except Failure TipDistributionAccount
  tryPriorityFeeDistribution : List UInt8 → Except Failure PriorityFeeDistributionAccount

/-! ## The collector -/

/-- `JitoAccountType::program_id`. -/
def JitoAccountType.programId : JitoAccountType → String
  | mevTipDistribution => "4R3gSG8BpU4t19KYj8CfnbtRpnT8gtk4dvTHxVRwc2r7"
  | priorityFeeDistribution => "Priority6weCZ5HwDn29NxLFpb7TDp2iLZ6XKc5e8d3"

section Collector

variable (crates : JitoCrates)

/-- The filters of `fetch_program_accounts_with_retry`. -/
def epochFilters (accountType : JitoAccountType) (bytePos : Nat) (epoch : UInt64) :
    List RpcFilterType :=
  [.dataSize (crates.accountSize accountType), .memcmp bytePos (toLE 8 epoch.toNat)]

/-- `fetch_program_accounts_with_retry`. -/
def fetchProgramAccountsWithRetry (rpc : ProgramAccounts) (accountType : JitoAccountType)
    (bytePos : Nat) (epoch : UInt64) (rpcAttempts : Nat) :
    Except Failure (List (Pubkey × Account)) :=
  match retryBlocking (rpc.answers (epochFilters crates accountType bytePos epoch)) rpcAttempts with
  | .ok accounts => .ok accounts
  | .error (.error _) =>
    .error (.error ("Failed to fetch program accounts for program_id: " ++
      s!"{accountType.programId} at index {bytePos}"))
  | .error (.panic message) => .error (.panic message)

/-- `jito_accounts`. -/
def jitoAccounts (rpc : ProgramAccounts) (accountType : JitoAccountType) (epoch : UInt64)
    (rpcAttempts : Nat) : Except Failure (List (Pubkey × Account)) := do
  let beforeUpdate ← fetchProgramAccountsWithRetry crates rpc accountType 0x49 epoch rpcAttempts
  let updated ← fetchProgramAccountsWithRetry crates rpc accountType 0x89 epoch rpcAttempts
  .ok (beforeUpdate ++ updated)

/-- The loop over the accounts that were found, for both kinds. -/
def deserializeDistribution {A : Type} (tryDeserialize : List UInt8 → Except Failure A)
    (fields : A → DistributionAccount) (snapshot : A → WrittenSnapshot)
    (accounts : List (Pubkey × Account)) (epoch : UInt64) :
    Except Failure (Dict String WrittenSnapshot) :=
  accounts.foldlM (fun validators account =>
    (tryDeserialize account.2.data).map fun fetched =>
      if (fields fetched).epochCreatedAt ≠ epoch then validators
      else validators.insert (crates.toString (fields fetched).validatorVoteAccount)
        (snapshot fetched)) Dict.empty

/-- The snapshot of a MEV tip distribution account. -/
def mevSnapshot (epoch : UInt64) (fetched : TipDistributionAccount) : WrittenSnapshot :=
  .mevTipDistribution
    { voteAccount := crates.toString fetched.validatorVoteAccount
      mevCommission := fetched.validatorCommissionBps
      epoch := epoch.toNat
      totalEpochRewards := fetched.merkleRoot.map fun mr => mr.maxTotalClaim.toNat
      claimedEpochRewards := fetched.merkleRoot.map fun mr => mr.totalFundsClaimed.toNat
      totalEpochClaimants := fetched.merkleRoot.map fun mr => mr.maxNumNodes.toNat
      epochActiveClaimants := fetched.merkleRoot.map fun mr => mr.numNodesClaimed.toNat }

/-- The snapshot of a priority fee distribution account. -/
def priorityFeeSnapshot (epoch : UInt64) (fetched : PriorityFeeDistributionAccount) :
    WrittenSnapshot :=
  .priorityFeeDistribution
    { voteAccount := crates.toString fetched.validatorVoteAccount
      priorityCommission := fetched.validatorCommissionBps
      totalLamportsTransferred := fetched.totalLamportsTransferred.toNat
      merkleRootUploadAuthority := crates.toString fetched.merkleRootUploadAuthority
      epoch := epoch.toNat
      totalEpochRewards := fetched.merkleRoot.map fun mr => mr.maxTotalClaim.toNat
      claimedEpochRewards := fetched.merkleRoot.map fun mr => mr.totalFundsClaimed.toNat
      totalEpochClaimants := fetched.merkleRoot.map fun mr => mr.maxNumNodes.toNat
      epochActiveClaimants := fetched.merkleRoot.map fun mr => mr.numNodesClaimed.toNat }

/-- `deserialize_mev_tip_distribution`. -/
def deserializeMevTipDistribution (accounts : List (Pubkey × Account)) (epoch : UInt64) :
    Except Failure (Dict String WrittenSnapshot) :=
  deserializeDistribution crates crates.tryTipDistribution (fun fetched => fetched)
    (mevSnapshot crates epoch) accounts epoch

/-- `deserialize_priority_fee_distribution`. -/
def deserializePriorityFeeDistribution (accounts : List (Pubkey × Account)) (epoch : UInt64) :
    Except Failure (Dict String WrittenSnapshot) :=
  deserializeDistribution crates crates.tryPriorityFeeDistribution
    PriorityFeeDistributionAccount.toDistributionAccount (priorityFeeSnapshot crates epoch)
    accounts epoch

/-- The map `validators` of `collect_jito_info`, made of the accounts that were found. -/
def jitoValidators (accountType : JitoAccountType) (rawAccounts : List (Pubkey × Account))
    (epoch : UInt64) : Except Failure (Dict String WrittenSnapshot) :=
  match accountType with
  | .mevTipDistribution => deserializeMevTipDistribution crates rawAccounts epoch
  | .priorityFeeDistribution => deserializePriorityFeeDistribution crates rawAccounts epoch

end Collector

/-! ## The layout -/

/-- The bytes of the optional merkle root: a tag, then 32 bytes of root and the counters. -/
def MerkleRootBytes : Option MerkleRoot → List UInt8 → Prop
  | none, bytes => bytes = [0]
  | some merkleRoot, bytes => ∃ root : List UInt8, root.length = 32 ∧
      bytes = 1 :: (root ++ toLE 8 merkleRoot.maxTotalClaim.toNat ++
        toLE 8 merkleRoot.maxNumNodes.toNat ++ toLE 8 merkleRoot.totalFundsClaimed.toNat ++
        toLE 8 merkleRoot.numNodesClaimed.toNat)

/-- The Borsh layout: a discriminator, two keys, the optional merkle root, and the epoch. -/
def BorshLayout (fields : DistributionAccount) (data : List UInt8) : Prop :=
  ∃ discriminator merkleRoot rest : List UInt8, discriminator.length = 8 ∧
    MerkleRootBytes fields.merkleRoot merkleRoot ∧
    data = discriminator ++ fields.validatorVoteAccount.bytes ++
      fields.merkleRootUploadAuthority.bytes ++ merkleRoot ++
      toLE 8 fields.epochCreatedAt.toNat ++ rest

/-- Where the epoch stands. -/
def epochPos (fields : DistributionAccount) : Nat :=
  if fields.merkleRoot.isSome then 0x89 else 0x49

theorem MerkleRootBytes.length_eq {merkleRoot : Option MerkleRoot} {bytes : List UInt8}
    (h : MerkleRootBytes merkleRoot bytes) :
    bytes.length = if merkleRoot.isSome then 65 else 1 := by
  cases merkleRoot with
  | none =>
    obtain rfl := h
    rfl
  | some merkleRoot =>
    obtain ⟨root, hroot, rfl⟩ := h
    simp [hroot]

/-- **The epoch stands at one of the two places**: the query for it finds the account. -/
theorem BorshLayout.allows {fields : DistributionAccount} {data : List UInt8}
    (h : BorshLayout fields data) :
    RpcFilterType.allows data (.memcmp (epochPos fields) (toLE 8 fields.epochCreatedAt.toNat)) =
      true := by
  obtain ⟨discriminator, merkleRoot, rest, hdiscriminator, hroot, rfl⟩ := h
  have hlength : (discriminator ++ fields.validatorVoteAccount.bytes ++
      fields.merkleRootUploadAuthority.bytes ++ merkleRoot).length = epochPos fields := by
    simp only [List.length_append, hdiscriminator, fields.validatorVoteAccount.size,
      fields.merkleRootUploadAuthority.size, hroot.length_eq, epochPos]
    split <;> rfl
  exact allows_memcmp_append hlength

/-- An account with the epoch in its layout is found. -/
theorem BorshLayout.found {fields : DistributionAccount} {data : List UInt8} {epoch : UInt64}
    (h : BorshLayout fields data) (hepoch : fields.epochCreatedAt = epoch) :
    RpcFilterType.allows data (.memcmp 0x49 (toLE 8 epoch.toNat)) = true ∨
      RpcFilterType.allows data (.memcmp 0x89 (toLE 8 epoch.toNat)) = true := by
  have hallows := h.allows
  rw [hepoch, epochPos] at hallows
  split at hallows
  · exact Or.inr hallows
  · exact Or.inl hallows

/-! ## Exact discovery -/

section Exact

variable {A : Type} {tryDeserialize : List UInt8 → Except Failure A}
  {fields : A → DistributionAccount} {snapshot : A → WrittenSnapshot}

/-- Accounts as they decode, with their snapshots. -/
def decodedRows (tryDeserialize : List UInt8 → Except Failure A)
    (fields : A → DistributionAccount) (snapshot : A → WrittenSnapshot)
    (accounts : List (Pubkey × Account)) : List (DistributionAccount × WrittenSnapshot) :=
  accounts.filterMap fun a =>
    (tryDeserialize a.2.data).toOption.map fun fetched => (fields fetched, snapshot fetched)

/-- The entries that rows make, those of one epoch. -/
def epochEntries (crates : JitoCrates) (epoch : UInt64)
    (rows : List (DistributionAccount × WrittenSnapshot)) : List (String × WrittenSnapshot) :=
  (rows.filter fun row => row.1.epochCreatedAt = epoch).map fun row =>
    (crates.toString row.1.validatorVoteAccount, row.2)

/-- The vote account and the epoch of each row. -/
def voteAccountEpochs (rows : List (DistributionAccount × WrittenSnapshot)) :
    List (Pubkey × UInt64) :=
  rows.map fun row => (row.1.validatorVoteAccount, row.1.epochCreatedAt)

theorem mem_decodedRows {accounts : List (Pubkey × Account)}
    {row : DistributionAccount × WrittenSnapshot} :
    row ∈ decodedRows tryDeserialize fields snapshot accounts ↔ ∃ a ∈ accounts, ∃ fetched,
      tryDeserialize a.2.data = .ok fetched ∧ row = (fields fetched, snapshot fetched) := by
  unfold decodedRows
  rw [List.mem_filterMap]
  refine exists_congr fun a => and_congr_right fun _ => ?_
  cases tryDeserialize a.2.data with
  | error err => simp [Except.toOption]
  | ok fetched => simp [Except.toOption, eq_comm]

/-- Vote accounts of one epoch have distinct names. -/
theorem nodup_epochEntries {crates : JitoCrates} (hkeys : Function.Injective crates.toString)
    {epoch : UInt64} {rows : List (DistributionAccount × WrittenSnapshot)}
    (hone : (voteAccountEpochs rows).Nodup) :
    ((epochEntries crates epoch rows).map Prod.fst).Nodup := by
  have hvotes := (nodup_map_filter hone epoch).map hkeys
  rw [List.map_map] at hvotes
  unfold epochEntries
  rw [List.map_map]
  exact hvotes

/-- The loop inserts what has the epoch. -/
theorem foldl_insert_epoch (crates : JitoCrates) (epoch : UInt64) (results : List A) :
    results.foldl (fun validators fetched =>
      if (fields fetched).epochCreatedAt ≠ epoch then validators
      else validators.insert (crates.toString (fields fetched).validatorVoteAccount)
        (snapshot fetched)) Dict.empty =
    Dict.ofList (epochEntries crates epoch
      (results.map fun fetched => (fields fetched, snapshot fetched))) := by
  unfold Dict.ofList epochEntries
  rw [List.foldl_map, List.foldl_filter, List.foldl_map]
  congr 1
  funext validators fetched
  simp only [ne_eq, ite_not, decide_eq_true_eq]

/-- **The loop is exact** if it sees all accounts of the epoch, however often, and of the
others whichever. -/
theorem deserializeDistribution_exact {crates : JitoCrates}
    (hkeys : Function.Injective crates.toString) {epoch : UInt64}
    {accounts rawAccounts : List (Pubkey × Account)}
    (hdecode : ∀ a ∈ accounts, ∃ fetched, tryDeserialize a.2.data = .ok fetched)
    (hone : (voteAccountEpochs (decodedRows tryDeserialize fields snapshot accounts)).Nodup)
    (hraw : ∀ a ∈ rawAccounts, a ∈ accounts)
    (hall : ∀ a ∈ accounts, ∀ fetched, tryDeserialize a.2.data = .ok fetched →
      (fields fetched).epochCreatedAt = epoch → a ∈ rawAccounts) :
    ∃ validators, deserializeDistribution crates tryDeserialize fields snapshot rawAccounts
        epoch = .ok validators ∧
      validators.entries.Perm (epochEntries crates epoch
        (decodedRows tryDeserialize fields snapshot accounts)) := by
  obtain ⟨results, hresults⟩ := exists_forall₂ fun a ha => hdecode a (hraw a ha)
  refine ⟨_, foldlM_map_of_ok _ hresults _, ?_⟩
  rw [foldl_insert_epoch]
  refine entries_ofList_perm_of_mem (nodup_epochEntries hkeys hone) fun e => ?_
  have hrows : ∀ row : DistributionAccount × WrittenSnapshot, row.1.epochCreatedAt = epoch →
      (row ∈ results.map (fun fetched => (fields fetched, snapshot fetched)) ↔
        row ∈ decodedRows tryDeserialize fields snapshot accounts) := by
    intro row hepoch
    rw [mem_decodedRows, List.mem_map]
    constructor
    · rintro ⟨fetched, hfetched, rfl⟩
      obtain ⟨a, ha, hget⟩ := (mem_results hresults).mp hfetched
      exact ⟨a, hraw a ha, fetched, hget, rfl⟩
    · rintro ⟨a, ha, fetched, hget, rfl⟩
      exact ⟨fetched, (mem_results hresults).mpr ⟨a, hall a ha fetched hget hepoch, hget⟩, rfl⟩
  unfold epochEntries
  rw [List.mem_map, List.mem_map]
  refine exists_congr fun row => and_congr_left fun _ => ?_
  rw [List.mem_filter, List.mem_filter]
  exact and_congr_left fun hepoch => hrows row (of_decide_eq_true hepoch)

/-- So it is exact for accounts in Borsh layout with the epoch at one of the two places. -/
theorem deserializeDistribution_found {crates : JitoCrates}
    (hkeys : Function.Injective crates.toString) {epoch : UInt64}
    {accounts rawAccounts : List (Pubkey × Account)}
    (hlayout : ∀ a ∈ accounts, ∃ fetched, tryDeserialize a.2.data = .ok fetched ∧
      BorshLayout (fields fetched) a.2.data)
    (hone : (voteAccountEpochs (decodedRows tryDeserialize fields snapshot accounts)).Nodup)
    (hfound : ∀ a, a ∈ rawAccounts ↔ a ∈ accounts ∧
      (RpcFilterType.allows a.2.data (.memcmp 0x49 (toLE 8 epoch.toNat)) = true ∨
        RpcFilterType.allows a.2.data (.memcmp 0x89 (toLE 8 epoch.toNat)) = true)) :
    ∃ validators, deserializeDistribution crates tryDeserialize fields snapshot rawAccounts
        epoch = .ok validators ∧
      validators.entries.Perm (epochEntries crates epoch
        (decodedRows tryDeserialize fields snapshot accounts)) := by
  refine deserializeDistribution_exact hkeys (fun a ha => (hlayout a ha).imp fun _ h => h.1) hone
    (fun a ha => ((hfound a).mp ha).1) fun a ha fetched hfetched hepoch => ?_
  obtain ⟨fetched', hfetched', hborsh⟩ := hlayout a ha
  obtain rfl := Except.ok.inj (hfetched'.symm.trans hfetched)
  exact (hfound a).mpr ⟨ha, hborsh.found hepoch⟩

end Exact

/-! ## Both kinds -/

section Kinds

variable (crates : JitoCrates)

/-- The accounts of the expected size. -/
def sizedAccounts (rpc : ProgramAccounts) (accountType : JitoAccountType) :
    List (Pubkey × Account) :=
  rpc.accounts.filter fun a => a.2.data.length = crates.accountSize accountType

/-- The distribution accounts of a node, and the snapshots that carry their values. -/
def distributionRows (rpc : ProgramAccounts) (accountType : JitoAccountType) (epoch : UInt64) :
    List (DistributionAccount × WrittenSnapshot) :=
  match accountType with
  | .mevTipDistribution => decodedRows crates.tryTipDistribution (fun fetched => fetched)
      (mevSnapshot crates epoch) (sizedAccounts crates rpc accountType)
  | .priorityFeeDistribution => decodedRows crates.tryPriorityFeeDistribution
      PriorityFeeDistributionAccount.toDistributionAccount (priorityFeeSnapshot crates epoch)
      (sizedAccounts crates rpc accountType)

/-- Data of a kind of distribution account, which its crate decodes. -/
def IsDistribution (accountType : JitoAccountType) (data : List UInt8) : Prop :=
  match accountType with
  | .mevTipDistribution => ∃ fetched, crates.tryTipDistribution data = .ok fetched ∧
      BorshLayout fetched data
  | .priorityFeeDistribution => ∃ fetched, crates.tryPriorityFeeDistribution data = .ok fetched ∧
      BorshLayout fetched.toDistributionAccount data

variable {crates}

/-- **The two queries** find accounts of the expected size: all that the two places of the
epoch are found in, and no others. -/
theorem mem_jitoAccounts {rpc : ProgramAccounts} {accountType : JitoAccountType}
    {epoch : UInt64} {rpcAttempts : Nat} {rawAccounts : List (Pubkey × Account)}
    (h : jitoAccounts crates rpc accountType epoch rpcAttempts = .ok rawAccounts)
    {a : Pubkey × Account} :
    a ∈ rawAccounts ↔ a ∈ sizedAccounts crates rpc accountType ∧
      (RpcFilterType.allows a.2.data (.memcmp 0x49 (toLE 8 epoch.toNat)) = true ∨
        RpcFilterType.allows a.2.data (.memcmp 0x89 (toLE 8 epoch.toNat)) = true) := by
  have hquery : ∀ {bytePos : Nat} {found : List (Pubkey × Account)},
      fetchProgramAccountsWithRetry crates rpc accountType bytePos epoch rpcAttempts =
        .ok found → (a ∈ found ↔ a ∈ sizedAccounts crates rpc accountType ∧
          RpcFilterType.allows a.2.data (.memcmp bytePos (toLE 8 epoch.toNat)) = true) := by
    intro bytePos found hfound
    unfold fetchProgramAccountsWithRetry at hfound
    split at hfound
    · rename_i accounts haccounts
      obtain rfl := Except.ok.inj hfound
      rw [(perm_of_retryBlocking haccounts).mem_iff, List.mem_filter, sizedAccounts,
        List.mem_filter, and_assoc]
      simp only [epochFilters, List.all_cons, List.all_nil, Bool.and_true, Bool.and_eq_true]
      rfl
    · cases hfound
    · cases hfound
  obtain ⟨beforeUpdate, hbefore, h⟩ := bind_eq_ok.mp h
  obtain ⟨updated, hupdated, h⟩ := bind_eq_ok.mp h
  obtain rfl := Except.ok.inj h
  rw [List.mem_append, hquery hbefore, hquery hupdated, and_or_left]

/-- The fields of the merkle root are there if the root is. -/
theorem isSome_merkleFields {rpc : ProgramAccounts} {accountType : JitoAccountType}
    {epoch : UInt64} {row : DistributionAccount × WrittenSnapshot}
    (h : row ∈ distributionRows crates rpc accountType epoch) :
    ∀ field ∈ row.2.merkleFields, field.isSome = row.1.merkleRoot.isSome := by
  cases accountType with
  | mevTipDistribution =>
    obtain ⟨a, -, fetched, -, rfl⟩ := mem_decodedRows.mp h
    simp [mevSnapshot, WrittenSnapshot.merkleFields]
  | priorityFeeDistribution =>
    obtain ⟨a, -, fetched, -, rfl⟩ := mem_decodedRows.mp h
    simp [priorityFeeSnapshot, WrittenSnapshot.merkleFields]

end Kinds

/-! ## The snapshot -/

/-- Whatever was found, an entry has the vote account of its snapshot and the epoch. -/
theorem stored_of_deserializeDistribution {crates : JitoCrates} {A : Type}
    {tryDeserialize : List UInt8 → Except Failure A} {fields : A → DistributionAccount}
    {snapshot : A → WrittenSnapshot} {rawAccounts : List (Pubkey × Account)} {epoch : UInt64}
    {validators : Dict String WrittenSnapshot}
    (hsnapshot : ∀ fetched,
      (snapshot fetched).stored.voteAccount =
        crates.toString (fields fetched).validatorVoteAccount ∧
      (snapshot fetched).stored.epoch = epoch.toNat)
    (h : deserializeDistribution crates tryDeserialize fields snapshot rawAccounts epoch =
      .ok validators) :
    ∀ e ∈ validators.entries, e.2.stored.voteAccount = e.1 ∧ e.2.stored.epoch = epoch.toNat := by
  obtain ⟨results, -, rfl⟩ := foldlM_map_eq_ok (fun
    (validators : Dict String WrittenSnapshot) (fetched : A) =>
    if (fields fetched).epochCreatedAt ≠ epoch then validators
    else validators.insert (crates.toString (fields fetched).validatorVoteAccount)
      (snapshot fetched)) h
  rw [foldl_insert_epoch]
  intro e he
  obtain ⟨row, hrow, rfl⟩ := List.mem_map.mp (Dict.mem_of_mem_ofList he)
  obtain ⟨fetched, -, rfl⟩ := List.mem_map.mp (List.mem_filter.mp hrow).1
  exact hsnapshot fetched

theorem stored_of_jitoValidators {crates : JitoCrates} {accountType : JitoAccountType}
    {rawAccounts : List (Pubkey × Account)} {epoch : UInt64}
    {validators : Dict String WrittenSnapshot}
    (h : jitoValidators crates accountType rawAccounts epoch = .ok validators) :
    ∀ e ∈ validators.entries, e.2.stored.voteAccount = e.1 ∧ e.2.stored.epoch = epoch.toNat := by
  cases accountType with
  | mevTipDistribution => exact stored_of_deserializeDistribution (fun _ => ⟨rfl, rfl⟩) h
  | priorityFeeDistribution => exact stored_of_deserializeDistribution (fun _ => ⟨rfl, rfl⟩) h

/-- The snapshot that `collect_jito_info` writes, as it is stored. -/
def collectedJitoSnapshot {crates : JitoCrates} {rawAccounts : List (Pubkey × Account)}
    {validators : Dict String WrittenSnapshot} (accountType : JitoAccountType) (epoch : UInt64)
    (loadedAtSlotIndex : Nat) (createdAt : Timestamp)
    (h : jitoValidators crates accountType rawAccounts epoch = .ok validators) : JitoSnapshot where
  epoch := epoch.toNat
  accountType := accountType
  loadedAtSlotIndex := loadedAtSlotIndex
  createdAt := createdAt
  validators := validators.mapVal WrittenSnapshot.stored
  voteAccounts e he := by
    obtain ⟨e', he', rfl⟩ := List.mem_map.mp he
    exact (stored_of_jitoValidators h e' he').1
  epochs e he := by
    obtain ⟨e', he', rfl⟩ := List.mem_map.mp he
    exact (stored_of_jitoValidators h e' he').2

/-! ## A node of four accounts -/

/-- The `u16` in the bytes from an offset on. -/
def u16At (data : List UInt8) (offset : Nat) : UInt16 :=
  UInt16.ofNat (readLE ((data.drop offset).take 2))

/-- Borsh for the fields of both kinds, after a discriminator, and the bytes that follow. -/
def borshDistribution (discriminator data : List UInt8) :
    Except Failure (DistributionAccount × List UInt8) :=
  if data.take 8 ≠ discriminator then .error (.error "AccountDiscriminatorMismatch")
  else if h : 83 ≤ data.length ∧ data[72]? = some 0 then
    .ok ({
      validatorVoteAccount := pubkeyAt data 8 (by omega)
      merkleRootUploadAuthority := pubkeyAt data 40 (by omega)
      merkleRoot := none
      epochCreatedAt := u64At data 73
      validatorCommissionBps := u16At data 81 }, data.drop 83)
  else if h : 147 ≤ data.length ∧ data[72]? = some 1 then
    .ok ({
      validatorVoteAccount := pubkeyAt data 8 (by omega)
      merkleRootUploadAuthority := pubkeyAt data 40 (by omega)
      merkleRoot := some ⟨u64At data 105, u64At data 113, u64At data 121, u64At data 129⟩
      epochCreatedAt := u64At data 137
      validatorCommissionBps := u16At data 145 }, data.drop 147)
  else .error (.error "AccountDidNotDeserialize")

/-- Jito's crates: what follows the commission are eight bytes of expiry, for priority fees the
lamports, and a bump. -/
def borshCrates : JitoCrates where
  toString := Pubkey.base58
  accountSize
    | .mevTipDistribution => 168
    | .priorityFeeDistribution => 176
  tryTipDistribution data := do
    let (fields, rest) ← borshDistribution [85, 64, 113, 198, 234, 94, 120, 123] data
    if rest.length < 9 then .error (.error "AccountDidNotDeserialize") else .ok fields
  tryPriorityFeeDistribution data := do
    let (fields, rest) ← borshDistribution [163, 183, 254, 12, 121, 137, 235, 27] data
    if rest.length < 17 then .error (.error "AccountDidNotDeserialize")
    else .ok { fields with totalLamportsTransferred := u64At rest 8 }

/-- The bytes of an optional merkle root, with some root. -/
def encodeMerkleRoot : Option MerkleRoot → List UInt8
  | none => [0]
  | some merkleRoot => 1 :: (List.replicate 32 255 ++ toLE 8 merkleRoot.maxTotalClaim.toNat ++
      toLE 8 merkleRoot.maxNumNodes.toNat ++ toLE 8 merkleRoot.totalFundsClaimed.toNat ++
      toLE 8 merkleRoot.numNodesClaimed.toNat)

/-- A tip distribution account with these bytes after its epoch. -/
def encodeTip (fields : TipDistributionAccount) (rest : List UInt8) : List UInt8 :=
  [85, 64, 113, 198, 234, 94, 120, 123] ++ fields.validatorVoteAccount.bytes ++
    fields.merkleRootUploadAuthority.bytes ++ encodeMerkleRoot fields.merkleRoot ++
    toLE 8 fields.epochCreatedAt.toNat ++ rest

theorem borshLayout_encodeTip (fields : TipDistributionAccount) (rest : List UInt8) :
    BorshLayout fields (encodeTip fields rest) := by
  refine ⟨_, encodeMerkleRoot fields.merkleRoot, rest, rfl, ?_, rfl⟩
  cases fields.merkleRoot with
  | none => rfl
  | some merkleRoot => exact ⟨List.replicate 32 255, rfl, rfl⟩

/-- A tip distribution account of a validator. -/
def tipOf (validator : UInt8) (merkleRoot : Option MerkleRoot) (epoch : UInt64) :
    TipDistributionAccount where
  validatorVoteAccount := keyOfByte validator
  merkleRootUploadAuthority := keyOfByte 100
  merkleRoot := merkleRoot
  epochCreatedAt := epoch
  validatorCommissionBps := 800

/-- Two bytes of commission, and the epoch 500 at byte 137. -/
def spelledEpoch : List UInt8 :=
  toLE 2 800 ++ List.replicate 54 0 ++ toLE 8 500 ++ List.replicate 23 0

/-- Three tip distribution accounts, one of them of another epoch; the first and the third
have the epoch at the other place, too. -/
def threeTips : List (Pubkey × Account) :=
  [(keyOfByte 11, ⟨encodeTip (tipOf 1 none 500) spelledEpoch⟩),
    (keyOfByte 12, ⟨encodeTip (tipOf 2 (some ⟨1000, 10, 300, 3⟩) 500)
      (toLE 2 800 ++ List.replicate 21 0)⟩),
    (keyOfByte 13, ⟨encodeTip (tipOf 3 none 499) spelledEpoch⟩)]

/-- The node has an account of another size. -/
def fourAccounts : ProgramAccounts :=
  ProgramAccounts.reliable (threeTips ++ [(keyOfByte 14, ⟨List.replicate 100 0⟩)])

end DelegationStrategy.Collect
