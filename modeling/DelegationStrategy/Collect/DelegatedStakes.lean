import DelegationStrategy.Collect.SelfStake

/-!
# Stakes by delegation authority

`collect/src/marinade_service.rs` adds up the effective stake of the accounts of a delegation
authority by validator: for Marinade, for its native stake, for the institutional stake and for
the foundation. Each of the four asks the node for the accounts that have the authority at the
offset of the staker.

- `getStakesGroupedByValidator_spec`: the amount of a validator is the effective stake of the
  accounts that pass the filters and are delegated to it.
- `columns_notCountedTwice`: no account passes the filters of two of them, so the four columns
  of a snapshot row are at most the stake that is delegated to the validator.
-/

namespace DelegationStrategy.Collect

open DelegationStrategy.Lib

/-! ## Authorities -/

/-- 4bZ6o3eUUNXhKuqjdCnCoPAoLgWiuLYixKaxoa8PpiKk -/
def marinadeDelegationAuthority : Pubkey where
  bytes := [53, 109, 26, 143, 162, 193, 40, 246, 201, 67, 252, 19, 89, 52, 168, 66,
    3, 56, 165, 101, 156, 139, 110, 122, 97, 237, 147, 66, 57, 124, 21, 91]
  size := rfl

/-- 9eG63CdHjsfhHmobHgLtESGC8GabbmRcaSpHAZrtmhco -/
def marinadeWithdrawerAuthority : Pubkey where
  bytes := [128, 105, 11, 75, 26, 70, 232, 174, 118, 30, 122, 50, 88, 195, 121, 49,
    69, 134, 218, 111, 194, 230, 98, 141, 215, 226, 42, 234, 104, 189, 106, 236]
  size := rfl

/-- STNi1NHDUi6Hvibvonawgze8fM83PFLeJhuGMEXyGps -/
def institutionalAuthority : Pubkey where
  bytes := [6, 133, 87, 121, 104, 77, 17, 121, 197, 152, 201, 234, 234, 145, 217, 207,
    226, 48, 160, 133, 161, 145, 96, 67, 218, 241, 101, 44, 9, 99, 100, 52]
  size := rfl

/-- mpa4abUkjQoAvPzREkh5Mo75hZhPFQ2FSH6w7dWKuQ5, and on the testnet
4UeMu1PU7goa4rYzViSiuZjDvo9px3JtsXUoinmkSrCX -/
def foundationAuthority (url : String) : Pubkey where
  bytes :=
    if "testnet".toList <:+: url.toList then
      [51, 167, 252, 108, 213, 130, 34, 147, 127, 175, 111, 225, 179, 142, 236, 9,
        115, 86, 228, 140, 233, 40, 58, 56, 107, 210, 111, 172, 251, 164, 233, 88]
    else
      [11, 123, 87, 220, 40, 255, 201, 183, 213, 131, 240, 127, 204, 185, 40, 99,
        9, 73, 63, 21, 54, 56, 217, 22, 202, 7, 198, 123, 139, 31, 50, 42]
  size := by split <;> rfl

/-- stWirqFCf2Uts1JBL1Jsd3r6VBWhgnpdPxCTe1MFjrq -/
def marinadeNativeStakeAuthority : Pubkey where
  bytes := [13, 9, 73, 39, 129, 76, 5, 241, 154, 247, 30, 76, 210, 159, 21, 122,
    69, 64, 48, 97, 178, 188, 15, 69, 127, 52, 31, 249, 56, 20, 231, 226]
  size := rfl

example : marinadeDelegationAuthority.base58 = "4bZ6o3eUUNXhKuqjdCnCoPAoLgWiuLYixKaxoa8PpiKk" := by
  decide

/-! ## The collectors -/

/-- The filters of `get_stake_accounts`. -/
def authorityFilters (delegationAuthority : Pubkey) (withdrawerAuthority : Option Pubkey) :
    List RpcFilterType :=
  .memcmp (4 + 8) delegationAuthority.bytes ::
    (withdrawerAuthority.map fun authority =>
      .memcmp (4 + 8 + 32) authority.bytes).toList

section Collectors

variable (program : StakeProgram) (rpc : ProgramAccounts) (scan : Scan)

/-- `get_stake_accounts`. -/
def getStakeAccounts (delegationAuthority : Pubkey) (withdrawerAuthority : Option Pubkey) :
    Except Failure (Dict Pubkey StakeStateV2) := do
  let accounts ← rpc.answers (authorityFilters delegationAuthority withdrawerAuthority) 0
  let states ← accounts.mapM fun account =>
    match program.deserialize account.2.data with
    | some state => .ok (account.1, state)
    | none => .error (.panic "called `Result::unwrap()` on an `Err` value")
  .ok (Dict.ofList states)

variable (epoch : Nat) (stakeHistory : StakeHistory)

/-- The closure of `filter_map` in `get_stakes_grouped_by_validator`. -/
def effectiveStake (account : Pubkey × StakeStateV2) : Option (String × UInt64) :=
  account.2.delegation.bind fun delegation =>
    let effective :=
      (program.stakeActivatingAndDeactivating delegation epoch stakeHistory).effective
    if effective = 0 then none else some (program.toString delegation.voterPubkey, effective)

/-- `get_stakes_grouped_by_validator`. -/
def getStakesGroupedByValidator (delegationAuthority : Pubkey)
    (withdrawerAuthority : Option Pubkey) : Except Failure (Dict String UInt64) := do
  let stakes ← getStakeAccounts program rpc delegationAuthority withdrawerAuthority
  .ok (tallyAll Dict.empty
    ((scan.order stakes.entries).filterMap (effectiveStake program epoch stakeHistory)))

/-- `get_marinade_stakes`. -/
def getMarinadeStakes : Except Failure (Dict String UInt64) :=
  getStakesGroupedByValidator program rpc scan epoch stakeHistory marinadeDelegationAuthority
    (some marinadeWithdrawerAuthority)

/-- `get_institutional_stakes`. -/
def getInstitutionalStakes : Except Failure (Dict String UInt64) :=
  getStakesGroupedByValidator program rpc scan epoch stakeHistory institutionalAuthority none

/-- `get_foundation_stakes`. -/
def getFoundationStakes (url : String) : Except Failure (Dict String UInt64) := do
  let foundationStakes ← getStakesGroupedByValidator program rpc scan epoch stakeHistory
    (foundationAuthority url) none
  if foundationStakes.entries = [] then
    .error (.panic ("No stake accounts found for foundation delegation authority " ++
      s!"{program.toString (foundationAuthority url)}. Authority may have been rotated; verify " ++
      "on-chain history of this pubkey and update the code if necessary."))
  else .ok foundationStakes

/-- `get_marinade_native_stakes`. -/
def getMarinadeNativeStakes : Except Failure (Dict String UInt64) :=
  getStakesGroupedByValidator program rpc scan epoch stakeHistory marinadeNativeStakeAuthority none

end Collectors

/-! ## The amount of a validator -/

section Amounts

variable (program : StakeProgram) (epoch : Nat) (stakeHistory : StakeHistory)

/-- The effective stake that an account has delegated to a vote account. -/
def delegatedStake (voteAccount : String) (account : Pubkey × Account) : Nat :=
  match program.deserialize account.2.data with
  | some (.stake _ delegation) =>
    if program.toString delegation.voterPubkey = voteAccount then
      (program.stakeActivatingAndDeactivating delegation epoch stakeHistory).effective.toNat
    else 0
  | _ => 0

/-- The stake that accounts have delegated to a vote account together. -/
def delegatedTotal (accounts : List (Pubkey × Account)) (voteAccount : String) : Nat :=
  (accounts.map (delegatedStake program epoch stakeHistory voteAccount)).sum

/-- The accounts that pass the filters of an authority. -/
def accountsOf (accounts : List (Pubkey × Account)) (delegationAuthority : Pubkey)
    (withdrawerAuthority : Option Pubkey) : List (Pubkey × Account) :=
  accounts.filter fun a =>
    (authorityFilters delegationAuthority withdrawerAuthority).all (RpcFilterType.allows a.2.data)

variable {program epoch stakeHistory}

/-- What an account adds to the entry of a vote account. -/
theorem delegatedStake_eq {account : Pubkey × Account} {state : StakeStateV2}
    (h : program.deserialize account.2.data = some state) (voteAccount : String) :
    delegatedStake program epoch stakeHistory voteAccount account =
      ((amountsOf voteAccount (effectiveStake program epoch stakeHistory
        (account.1, state)).toList).map UInt64.toNat).sum := by
  unfold delegatedStake effectiveStake
  rw [h]
  cases state with
  | stake authorized delegation =>
    simp only [StakeStateV2.delegation, Option.bind_some]
    by_cases heffective :
        (program.stakeActivatingAndDeactivating delegation epoch stakeHistory).effective = 0
    · simp [heffective, amountsOf]
    · by_cases hvote : program.toString delegation.voterPubkey = voteAccount
      · simp [heffective, hvote, amountsOf]
      · simp [heffective, hvote, amountsOf]
  | uninitialized => rfl
  | initialized authorized => rfl
  | rewardsPool => rfl

/-- The entries of the map add what their accounts have delegated. -/
theorem map_effectiveStake {found : List (Pubkey × Account)}
    {entries : List (Pubkey × StakeStateV2)} {voteAccount : String}
    (h : List.Forall₂ (fun account entry => entry.1 = account.1 ∧
      program.deserialize account.2.data = some entry.2) found entries) :
    (entries.map fun entry => ((amountsOf voteAccount
      (effectiveStake program epoch stakeHistory entry).toList).map UInt64.toNat).sum) =
        found.map (delegatedStake program epoch stakeHistory voteAccount) := by
  induction h with
  | nil => rfl
  | cons hfirst _ ih =>
    rw [List.map_cons, List.map_cons, ih, delegatedStake_eq hfirst.2]
    rfl

variable {rpc : ProgramAccounts} {scan : Scan} {delegationAuthority : Pubkey}
variable {withdrawerAuthority : Option Pubkey}

/-- The map of the stake accounts has the accounts that pass the filters. -/
theorem getStakeAccounts_eq_ok (hkeys : (rpc.accounts.map Prod.fst).Nodup)
    {stakes : Dict Pubkey StakeStateV2}
    (h : getStakeAccounts program rpc delegationAuthority withdrawerAuthority = .ok stakes) :
    ∃ found : List (Pubkey × Account),
      found.Perm (accountsOf rpc.accounts delegationAuthority withdrawerAuthority) ∧
      List.Forall₂ (fun account entry => entry.1 = account.1 ∧
        program.deserialize account.2.data = some entry.2) found stakes.entries := by
  obtain ⟨found, hfound, h⟩ := bind_eq_ok.mp h
  obtain ⟨states, hstates, h⟩ := bind_eq_ok.mp h
  obtain rfl := Except.ok.inj h
  have hperm := rpc.exact _ _ _ hfound
  have hentries : List.Forall₂ (fun account entry => entry.1 = account.1 ∧
      program.deserialize account.2.data = some entry.2) found states := by
    refine (forall₂_of_mapM hstates).imp fun account entry hentry => ?_
    cases hstate : program.deserialize account.2.data with
    | none =>
      rw [hstate] at hentry
      cases hentry
    | some state =>
      rw [hstate] at hentry
      obtain rfl := Except.ok.inj hentry
      exact ⟨rfl, rfl⟩
  have hsame : states.map Prod.fst = found.map Prod.fst := by
    have heq : List.Forall₂ Eq (found.map Prod.fst) (states.map Prod.fst) :=
      List.forall₂_map_left_iff.mpr (List.forall₂_map_right_iff.mpr
        (hentries.imp fun _ _ hentry => hentry.1.symm))
    exact (List.forall₂_eq_eq_eq ▸ heq : _ = _).symm
  have hnd : (states.map Prod.fst).Nodup := by
    rw [hsame, (hperm.map Prod.fst).nodup_iff]
    exact hkeys.sublist (List.filter_sublist.map _)
  rw [Dict.entries_ofList hnd]
  exact ⟨found, hperm, hentries⟩

/-- **The amount of a validator** is the effective stake that the accounts of the authority have
delegated to it. -/
theorem getStakesGroupedByValidator_spec (hkeys : (rpc.accounts.map Prod.fst).Nodup)
    {stakes : Dict String UInt64}
    (h : getStakesGroupedByValidator program rpc scan epoch stakeHistory delegationAuthority
      withdrawerAuthority = .ok stakes) (voteAccount : String)
    (hfit : delegatedTotal program epoch stakeHistory
      (accountsOf rpc.accounts delegationAuthority withdrawerAuthority) voteAccount < 2 ^ 64) :
    ((stakes.get? voteAccount).getD 0).toNat = delegatedTotal program epoch stakeHistory
      (accountsOf rpc.accounts delegationAuthority withdrawerAuthority) voteAccount := by
  obtain ⟨accounts, haccounts, h⟩ := bind_eq_ok.mp h
  obtain rfl := Except.ok.inj h
  obtain ⟨found, hperm, hentries⟩ := getStakeAccounts_eq_ok hkeys haccounts
  have hamounts : ((amountsOf voteAccount ((scan.order accounts.entries).filterMap
      (effectiveStake program epoch stakeHistory))).map UInt64.toNat).sum =
        delegatedTotal program epoch stakeHistory
          (accountsOf rpc.accounts delegationAuthority withdrawerAuthority) voteAccount := by
    rw [sum_amountsOf_filterMap, ((scan.perm accounts.entries).map _).sum_eq]
    unfold delegatedTotal
    rw [← (hperm.map _).sum_eq]
    rw [map_effectiveStake hentries]
  rw [getD_tallyAll]
  show (0 + _ : UInt64).toNat = _
  rw [zero_add, toNat_sum (by rw [hamounts]; exact hfit), hamounts]

end Amounts

/-! ## The columns of a row -/

/-- The bytes of an account at the offset of the staker. -/
def stakerBytes (account : Pubkey × Account) : List UInt8 := (account.2.data.drop 12).take 32

/-- An account that passes the filters of an authority has it at the offset of the staker. -/
theorem stakerBytes_of_mem {accounts : List (Pubkey × Account)} {delegationAuthority : Pubkey}
    {withdrawerAuthority : Option Pubkey} {account : Pubkey × Account}
    (h : account ∈ accountsOf accounts delegationAuthority withdrawerAuthority) :
    stakerBytes account = delegationAuthority.bytes := by
  have hall := (List.mem_filter.mp h).2
  rw [authorityFilters, List.all_cons, Bool.and_eq_true] at hall
  have hbytes := hall.1
  rw [RpcFilterType.allows, Bool.and_eq_true, beq_iff_eq, delegationAuthority.size] at hbytes
  exact hbytes.2

/-- The authorities of the four columns, each with its withdrawer. -/
def delegationAuthorities (url : String) : List (Pubkey × Option Pubkey) :=
  [(marinadeDelegationAuthority, some marinadeWithdrawerAuthority),
    (institutionalAuthority, none), (foundationAuthority url, none),
    (marinadeNativeStakeAuthority, none)]

theorem nodup_delegationAuthorities (url : String) :
    ((delegationAuthorities url).map fun authority => authority.1.bytes).Nodup := by
  unfold delegationAuthorities foundationAuthority
  by_cases htestnet : "testnet".toList <:+: url.toList
  · simp only [htestnet, if_true, List.map_cons, List.map_nil]
    decide
  · simp only [htestnet, if_false, List.map_cons, List.map_nil]
    decide

section Columns

variable {program : StakeProgram} {epoch : Nat} {stakeHistory : StakeHistory}
variable {accounts : List (Pubkey × Account)}

theorem delegatedTotal_le {found : List (Pubkey × Account)} (h : found.Sublist accounts)
    (voteAccount : String) : delegatedTotal program epoch stakeHistory found voteAccount ≤
      delegatedTotal program epoch stakeHistory accounts voteAccount :=
  (h.map _).sum_le_sum fun _ _ => Nat.zero_le _

/-- The accounts of an authority are among those with its bytes. -/
theorem accountsOf_sublist (delegationAuthority : Pubkey) (withdrawerAuthority : Option Pubkey) :
    (accountsOf accounts delegationAuthority withdrawerAuthority).Sublist
      (accounts.filter fun a => stakerBytes a = delegationAuthority.bytes) := by
  have hsame : accountsOf accounts delegationAuthority withdrawerAuthority =
      accountsOf (accounts.filter fun a => stakerBytes a = delegationAuthority.bytes)
        delegationAuthority withdrawerAuthority := by
    unfold accountsOf
    rw [List.filter_filter]
    refine List.filter_congr fun a ha => ?_
    by_cases hpass : (authorityFilters delegationAuthority withdrawerAuthority).all
        (RpcFilterType.allows a.2.data)
    · have hbytes := stakerBytes_of_mem (List.mem_filter.mpr ⟨ha, hpass⟩)
      simp [hbytes]
    · simp [hpass]
  rw [hsame]
  exact List.filter_sublist

/-- The stakes of distinct authorities are together at most the stake of all accounts. -/
theorem sum_delegatedTotal_le {authorities : List (Pubkey × Option Pubkey)}
    (hnd : (authorities.map fun authority => authority.1.bytes).Nodup) (voteAccount : String) :
    (authorities.map fun authority => delegatedTotal program epoch stakeHistory
      (accountsOf accounts authority.1 authority.2) voteAccount).sum ≤
        delegatedTotal program epoch stakeHistory accounts voteAccount := by
  have hslices := ((slices_perm_filter stakerBytes hnd accounts).map
    (delegatedStake program epoch stakeHistory voteAccount)).sum_eq
  rw [List.flatMap_map, List.map_flatMap, List.flatMap, List.sum_flatten, List.map_map]
    at hslices
  calc (authorities.map fun authority => delegatedTotal program epoch stakeHistory
        (accountsOf accounts authority.1 authority.2) voteAccount).sum
      ≤ (authorities.map fun authority => delegatedTotal program epoch stakeHistory
          (accounts.filter fun a => stakerBytes a = authority.1.bytes) voteAccount).sum :=
        List.sum_le_sum fun authority _ => delegatedTotal_le (accountsOf_sublist _ _) voteAccount
    _ ≤ delegatedTotal program epoch stakeHistory accounts voteAccount :=
        hslices.trans_le (delegatedTotal_le List.filter_sublist voteAccount)

end Columns

/-! ## The snapshot -/

/-- The four maps of `collect_validators_info`, asked from one node. -/
structure CollectedStakes (program : StakeProgram) (rpc : ProgramAccounts) (epoch : Nat)
    (stakeHistory : StakeHistory) (url : String) (sources : ValidatorsSources) : Prop where
  marinade : ∃ scan stakes, getMarinadeStakes program rpc scan epoch stakeHistory = .ok stakes ∧
    sources.marinadeStake = stakes.mapVal UInt64.toNat
  institutional : ∃ scan stakes,
    getInstitutionalStakes program rpc scan epoch stakeHistory = .ok stakes ∧
      sources.institutionalStake = stakes.mapVal UInt64.toNat
  foundation : ∃ scan stakes,
    getFoundationStakes program rpc scan epoch stakeHistory url = .ok stakes ∧
      sources.foundationStake = stakes.mapVal UInt64.toNat
  marinadeNative : ∃ scan stakes,
    getMarinadeNativeStakes program rpc scan epoch stakeHistory = .ok stakes ∧
      sources.marinadeNativeStake = stakes.mapVal UInt64.toNat

section Snapshot

variable {program : StakeProgram} {rpc : ProgramAccounts} {scan : Scan} {epoch : Nat}
variable {stakeHistory : StakeHistory} {url : String} {sources : ValidatorsSources}

/-- The map of the foundation is grouped as the others are. -/
theorem getFoundationStakes_eq_ok {stakes : Dict String UInt64}
    (h : getFoundationStakes program rpc scan epoch stakeHistory url = .ok stakes) :
    getStakesGroupedByValidator program rpc scan epoch stakeHistory (foundationAuthority url) none =
      .ok stakes := by
  obtain ⟨foundationStakes, hstakes, h⟩ := bind_eq_ok.mp h
  split at h
  · cases h
  · obtain rfl := Except.ok.inj h
    exact hstakes

/-- An entry of a map whose values were converted. -/
theorem getD_mapVal_toNat (stakes : Dict String UInt64) (voteAccount : String) :
    ((stakes.mapVal UInt64.toNat).get? voteAccount).getD 0 =
      ((stakes.get? voteAccount).getD 0).toNat := by
  rw [Dict.get?_mapVal]
  cases stakes.get? voteAccount with
  | none => rfl
  | some stake => rfl

/-- A column of a row is the stake that the accounts of its authority have delegated. -/
theorem column_of_grouped {program : StakeProgram} {rpc : ProgramAccounts} {scan : Scan}
    {epoch : Nat} {stakeHistory : StakeHistory} {authority : Pubkey} {withdrawer : Option Pubkey}
    {stakes : Dict String UInt64} {voteAccount : String}
    (hkeys : (rpc.accounts.map Prod.fst).Nodup)
    (hgrouped : getStakesGroupedByValidator program rpc scan epoch stakeHistory authority
      withdrawer = .ok stakes)
    (hfit : delegatedTotal program epoch stakeHistory rpc.accounts voteAccount < 2 ^ 64) :
    ((stakes.mapVal UInt64.toNat).get? voteAccount).getD 0 =
      delegatedTotal program epoch stakeHistory (accountsOf rpc.accounts authority withdrawer)
        voteAccount := by
  rw [getD_mapVal_toNat]
  exact getStakesGroupedByValidator_spec hkeys hgrouped _
    ((delegatedTotal_le List.filter_sublist _).trans_lt hfit)

/-- The four maps of a collected snapshot. -/
theorem stakeColumns {program : StakeProgram} {rpc : ProgramAccounts} {epoch : Nat}
    {stakeHistory : StakeHistory} {url : String} {sources : ValidatorsSources}
    (voteAccount : String) (hkeys : (rpc.accounts.map Prod.fst).Nodup)
    (hstakes : CollectedStakes program rpc epoch stakeHistory url sources)
    (hfit : delegatedTotal program epoch stakeHistory rpc.accounts voteAccount < 2 ^ 64) :
    let stakeOf := fun authority withdrawer => delegatedTotal program epoch stakeHistory
      (accountsOf rpc.accounts authority withdrawer) voteAccount
    (sources.marinadeStake.get? voteAccount).getD 0 =
      stakeOf marinadeDelegationAuthority (some marinadeWithdrawerAuthority) ∧
    (sources.institutionalStake.get? voteAccount).getD 0 = stakeOf institutionalAuthority none ∧
    (sources.foundationStake.get? voteAccount).getD 0 = stakeOf (foundationAuthority url) none ∧
    (sources.marinadeNativeStake.get? voteAccount).getD 0 =
      stakeOf marinadeNativeStakeAuthority none := by
  obtain ⟨_, marinade, hmarinade, hm⟩ := hstakes.marinade
  obtain ⟨_, institutional, hinstitutional, hi⟩ := hstakes.institutional
  obtain ⟨_, foundation, hfoundation, hf⟩ := hstakes.foundation
  obtain ⟨_, native, hnative, hn⟩ := hstakes.marinadeNative
  rw [hm, hi, hf, hn]
  exact ⟨column_of_grouped hkeys hmarinade hfit, column_of_grouped hkeys hinstitutional hfit,
    column_of_grouped hkeys (getFoundationStakes_eq_ok hfoundation) hfit,
    column_of_grouped hkeys hnative hfit⟩

/-- **No stake is counted twice**: the columns of a row are the stakes that the accounts of the
four authorities have delegated to the validator, and together they are at most the stake that
all accounts have delegated to it. -/
theorem columns_notCountedTwice (program : StakeProgram) (rpc : ProgramAccounts) (epoch : Nat)
    (stakeHistory : StakeHistory) (url : String) (sources : ValidatorsSources)
    (snapshot : Snapshot) (hkeys : (rpc.accounts.map Prod.fst).Nodup)
    (hstakes : CollectedStakes program rpc epoch stakeHistory url sources)
    (hsnapshot : collectValidatorsInfo sources = some snapshot) :
    ∀ row ∈ snapshot.validators,
      delegatedTotal program epoch stakeHistory rpc.accounts row.voteAccount < 2 ^ 64 →
      let stakeOf := fun authority withdrawer => delegatedTotal program epoch stakeHistory
        (accountsOf rpc.accounts authority withdrawer) row.voteAccount
      row.marinadeStake =
        stakeOf marinadeDelegationAuthority (some marinadeWithdrawerAuthority) ∧
      row.institutionalStake = stakeOf institutionalAuthority none ∧
      row.foundationStake = stakeOf (foundationAuthority url) none ∧
      row.marinadeNativeStake = stakeOf marinadeNativeStakeAuthority none ∧
      row.marinadeStake + row.institutionalStake + row.foundationStake +
        row.marinadeNativeStake ≤
          delegatedTotal program epoch stakeHistory rpc.accounts row.voteAccount := by
  intro row hrow hfit
  obtain ⟨validators, hvalidators, hsnapshot⟩ := Option.bind_eq_some_iff.mp hsnapshot
  obtain rfl := Option.some.inj hsnapshot
  obtain ⟨voteAccount, -, hvoteAccount⟩ := (mem_mapM hvalidators).mp hrow
  obtain ⟨performance, -, rfl⟩ := Option.map_eq_some_iff.mp hvoteAccount
  obtain ⟨hmarinadeColumn, hinstitutionalColumn, hfoundationColumn, hnativeColumn⟩ :=
    stakeColumns voteAccount.votePubkey hkeys hstakes hfit
  refine ⟨hmarinadeColumn, hinstitutionalColumn, hfoundationColumn, hnativeColumn, ?_⟩
  have hsum : _ ≤ delegatedTotal program epoch stakeHistory rpc.accounts voteAccount.votePubkey :=
    sum_delegatedTotal_le (nodup_delegationAuthorities url) voteAccount.votePubkey
  simp only [delegationAuthorities, List.map_cons, List.map_nil, List.sum_cons, List.sum_nil,
    add_zero] at hsum
  rw [← add_assoc, ← add_assoc] at hsum
  show (sources.marinadeStake.get? voteAccount.votePubkey).getD 0 +
    (sources.institutionalStake.get? voteAccount.votePubkey).getD 0 +
    (sources.foundationStake.get? voteAccount.votePubkey).getD 0 +
    (sources.marinadeNativeStake.get? voteAccount.votePubkey).getD 0 ≤ _
  rw [hmarinadeColumn, hinstitutionalColumn, hfoundationColumn, hnativeColumn]
  exact hsum

end Snapshot

/-- An old stake account. -/
def delegatedAccount (staker withdrawer voter : Pubkey) (stake : Nat) : Account where
  data := toLE 4 2 ++ toLE 8 2282880 ++ staker.bytes ++ withdrawer.bytes ++
    List.replicate 48 0 ++ voter.bytes ++ toLE 8 stake ++ toLE 8 (2 ^ 64 - 1) ++
    toLE 8 (2 ^ 64 - 1) ++ List.replicate 20 0

/-- Stake of Marinade, of the foundation and of somebody else, and stake with the staker but not
the withdrawer of Marinade. -/
def fourStakers : ProgramAccounts :=
  ProgramAccounts.reliable
    [(keyOfByte 1, delegatedAccount marinadeDelegationAuthority marinadeWithdrawerAuthority
        (keyOfByte 9) 1000),
      (keyOfByte 2, delegatedAccount (foundationAuthority "") (keyOfByte 7) (keyOfByte 9) 500),
      (keyOfByte 3, delegatedAccount (keyOfByte 7) (keyOfByte 7) (keyOfByte 9) 70),
      (keyOfByte 4, delegatedAccount marinadeDelegationAuthority (keyOfByte 7) (keyOfByte 9) 3)]

/-- The map of a collector that succeeds. -/
def stakesOrEmpty (result : Except Failure (Dict String UInt64)) : Dict String Nat :=
  ((result.toOption).getD Dict.empty).mapVal UInt64.toNat

theorem exists_stakes {result : Except Failure (Dict String UInt64)}
    (h : result.toOption.isSome = true) :
    ∃ stakes, result = .ok stakes ∧ stakesOrEmpty result = stakes.mapVal UInt64.toNat := by
  cases result with
  | error failure => cases h
  | ok stakes => exact ⟨stakes, rfl, rfl⟩

/-- A cluster with one vote account and these stakes. -/
def stakedSources : ValidatorsSources :=
  let program := youngStakeProgram
  { fourSources with
    voteAccounts := ⟨[⟨(keyOfByte 9).base58, "identity", 2000⟩], []⟩
    marinadeStake := stakesOrEmpty (getMarinadeStakes program fourStakers .sequential 500 [])
    institutionalStake :=
      stakesOrEmpty (getInstitutionalStakes program fourStakers .sequential 500 [])
    foundationStake := stakesOrEmpty (getFoundationStakes program fourStakers .sequential 500 [] "")
    marinadeNativeStake :=
      stakesOrEmpty (getMarinadeNativeStakes program fourStakers .sequential 500 [])
    performance := Dict.ofList ((singleSnapshot 0 5 false).validators.entries.map fun e =>
      ((keyOfByte 9).base58, e.2)) }

/-- The four collectors succeed. -/
theorem stakedSources_collected :
    CollectedStakes youngStakeProgram fourStakers 500 [] "" stakedSources where
  marinade := ⟨.sequential, exists_stakes (by decide +kernel)⟩
  institutional := ⟨.sequential, exists_stakes (by decide +kernel)⟩
  foundation := ⟨.sequential, exists_stakes (by decide +kernel)⟩
  marinadeNative := ⟨.sequential, exists_stakes (by decide +kernel)⟩

/-- 1500 of the 1573 lamports that are delegated to the validator are in its columns. -/
theorem columns_notCountedTwice_four : ∃ snapshot,
    collectValidatorsInfo stakedSources = some snapshot ∧ ∀ row ∈ snapshot.validators,
      row.marinadeStake + row.institutionalStake + row.foundationStake +
        row.marinadeNativeStake ≤ 1573 := by
  have hrun : (collectValidatorsInfo stakedSources).isSome = true := by decide
  obtain ⟨snapshot, hsnapshot⟩ := Option.isSome_iff_exists.mp hrun
  have hvote : ∀ row ∈ snapshot.validators, row.voteAccount = (keyOfByte 9).base58 := by
    have hall : ((collectValidatorsInfo stakedSources).all fun snapshot =>
        snapshot.validators.all fun row => row.voteAccount = (keyOfByte 9).base58) = true := by
      decide
    rw [hsnapshot] at hall
    simpa using hall
  have htotal : delegatedTotal youngStakeProgram 500 [] fourStakers.accounts
      (keyOfByte 9).base58 = 1573 := by decide +kernel
  refine ⟨snapshot, hsnapshot, fun row hrow => ?_⟩
  have hfit : delegatedTotal youngStakeProgram 500 [] fourStakers.accounts row.voteAccount <
      2 ^ 64 := by
    rw [hvote row hrow, htotal]
    decide
  obtain ⟨-, -, -, -, hsum⟩ := columns_notCountedTwice youngStakeProgram fourStakers 500 []
    "" stakedSources snapshot (by decide) stakedSources_collected hsnapshot row
    hrow hfit
  rw [hvote row hrow, htotal] at hsum
  exact hsum

end DelegationStrategy.Collect
