import DelegationStrategy.Collect.Rpc
import DelegationStrategy.Collect.Superminority
import DelegationStrategy.Lib.Tally
import DelegationStrategy.Store.Scoring
import Mathlib.Data.Finset.Dedup

/-!
# Self stake

`get_self_stake` (`collect/src/solana_service.rs`): the stake whose withdrawer may also
withdraw from the vote account it is delegated to. The stake accounts are fetched in 256
pages, by the first byte of the withdrawer, and the amounts of all pages are added up in one
map; then the funded amounts of the bonds are added to it (`fetch_bonds`,
`collect/src/marinade_service.rs`).

Every account of 200 bytes has one byte at the offset of the pages, so it is on exactly one
page, whatever its bytes mean. `getSelfStake_spec`: each of them is counted once, in
whatever order the node returns them.
-/

namespace DelegationStrategy.Collect

open DelegationStrategy.Lib DelegationStrategy.Store

/-! ## Stake accounts -/

/-- The field `authorized` of a stake account's meta data. -/
structure Authorized where
  staker : Pubkey
  withdrawer : Pubkey
  deriving DecidableEq

/-- The field `delegation` of a stake; the warmup rate is not used any more. -/
structure Delegation where
  voterPubkey : Pubkey
  stake : UInt64
  activationEpoch : UInt64
  deactivationEpoch : UInt64
  deriving DecidableEq

/-- `StakeStateV2`, as far as it is read. -/
inductive StakeStateV2 where
  | uninitialized
  | initialized (authorized : Authorized)
  | stake (authorized : Authorized) (delegation : Delegation)
  | rewardsPool
  deriving DecidableEq

def StakeStateV2.authorized : StakeStateV2 → Option Authorized
  | .initialized authorized => some authorized
  | .stake authorized _ => some authorized
  | _ => none

def StakeStateV2.delegation : StakeStateV2 → Option Delegation
  | .stake _ delegation => some delegation
  | _ => none

structure StakeHistoryEntry where
  effective : UInt64
  activating : UInt64
  deactivating : UInt64
  deriving DecidableEq, Repr

/-- The history of the cluster's stake by epoch. -/
abbrev StakeHistory := List (Nat × StakeHistoryEntry)

/-- What the stake program's crates do. -/
structure StakeProgram where
  /-- `Pubkey::to_string`. -/
  toString : Pubkey → String
  /-- `bincode::deserialize`. -/
  deserialize : List UInt8 → Option StakeStateV2
  /-- `Delegation::stake_activating_and_deactivating`. -/
  stakeActivatingAndDeactivating : Delegation → Nat → StakeHistory → StakeHistoryEntry

/-! ## Sources -/

/-- The fields of `ValidatorBond` that are read. -/
structure ValidatorBond where
  voteAccount : String
  fundedAmount : Rat
  deriving DecidableEq, Repr

/-- The response of the bonds API, and its body if it is a `BondsResponse`. -/
structure BondsReply where
  success : Bool
  status : String
  bonds : Option (List ValidatorBond)
  deriving DecidableEq, Repr

/-- `fetch_bonds`. -/
def fetchBonds (reply : Except String BondsReply) : Except Failure (List ValidatorBond) :=
  match reply with
  | .error err => .error (.error err)
  | .ok response =>
    if response.success then
      match response.bonds with
      | some bonds => .ok bonds
      | none => .error (.error "Failed to parse bonds response JSON")
    else
      .error (.error ("Failed to fetch bonds. Status: " ++ response.status))

/-- What the collector asks for. -/
structure SelfStakeSources where
  voteAccounts : Except String (List (Pubkey × Account))
  stakeAccounts : ProgramAccounts
  bondsUrl : String
  bondsReply : Except String BondsReply

section Collector

variable (program : StakeProgram)

/-- The pair of a vote account: the bytes from 36 on are its withdrawer. -/
def withdrawAuthority (voteAccount : Pubkey × Account) : Option (String × String) :=
  if h : voteAccount.2.data.length < 68 then none
  else some (program.toString (pubkeyAt voteAccount.2.data 36 (by omega)),
    program.toString voteAccount.1)

/-- `get_withdraw_authorities`. -/
def getWithdrawAuthorities (voteAccounts : Except String (List (Pubkey × Account))) :
    Except Failure (Finset (String × String)) :=
  match voteAccounts with
  | .error err => .error (.error err)
  | .ok voteAccounts => .ok (voteAccounts.filterMap (withdrawAuthority program)).toFinset

/-- `WITHDRAW_AUTHORITY_OFFSET`. -/
def withdrawAuthorityOffset : Nat := 4 + 8 + 32

/-- The filters of `fetch_stake_accounts_on_page`. -/
def pageFilters (page : UInt8) : List RpcFilterType :=
  [.dataSize 200, .memcmp withdrawAuthorityOffset [page]]

/-- `fetch_stake_accounts_on_page`. -/
def fetchStakeAccountsOnPage (rpc : ProgramAccounts) (page : UInt8) (rpcAttempts : Nat) :
    Except Failure (List (Pubkey × Account)) :=
  retryBlocking (rpc.answers (pageFilters page)) rpcAttempts

/-- `get_withdrawer_and_vote_keys`. -/
def getWithdrawerAndVoteKeys (stakeAccount : StakeStateV2) : Option (String × String) :=
  stakeAccount.delegation.bind fun voteAccount =>
    stakeAccount.authorized.map fun withdrawer =>
      (program.toString withdrawer.withdrawer, program.toString voteAccount.voterPubkey)

/-- `update_self_stake`. -/
def updateSelfStake (selfStake : Dict String UInt64) (voteKey : String) (lamports : UInt64) :
    Dict String UInt64 := tally selfStake voteKey lamports

variable (withdrawAuthorities : Finset (String × String)) (epoch : Nat)
  (stakeHistory : StakeHistory)

/-- The body of the loop of `process_accounts_for_self_stake`. -/
def processAccount (state : UInt64 × Dict String UInt64) (account : Pubkey × Account) :
    UInt64 × Dict String UInt64 :=
  match program.deserialize account.2.data with
  | none => state
  | some stakeAccount =>
    -- whoever has keys has a delegation, so the `unwrap` of the source never fails
    match getWithdrawerAndVoteKeys program stakeAccount, stakeAccount.delegation with
    | some (withdrawerKey, voteKey), some delegation =>
      let effective :=
        (program.stakeActivatingAndDeactivating delegation epoch stakeHistory).effective
      if (withdrawerKey, voteKey) ∈ withdrawAuthorities ∧ effective ≠ 0 then
        (state.1 + 1, updateSelfStake state.2 voteKey effective)
      else state
    | _, _ => state

/-- `process_accounts_for_self_stake`: how many accounts were counted, and the map. -/
def processAccountsForSelfStake (accounts : List (Pubkey × Account))
    (selfStake : Dict String UInt64) : UInt64 × Dict String UInt64 :=
  accounts.foldl (processAccount program withdrawAuthorities epoch stakeHistory) (0, selfStake)

/-- `0..=u8::MAX`. -/
def allPages : List UInt8 := (List.range 256).map UInt8.ofNat

/-- A page, or the panic. -/
def stakeAccountsOnPage (rpc : ProgramAccounts) (rpcAttempts : Nat) (page : UInt8) :
    Except Failure (List (Pubkey × Account)) :=
  match fetchStakeAccountsOnPage rpc page rpcAttempts with
  | .ok accounts => .ok accounts
  | .error (.error err) =>
    .error (.panic s!"Failed to fetch stake accounts on page {page}: {err}")
  | .error (.panic message) => .error (.panic message)

/-- `fetch_self_stake`. -/
def fetchSelfStake (rpc : ProgramAccounts) (rpcAttempts : Nat) :
    Except Failure (Dict String UInt64) :=
  allPages.foldlM (fun selfStake page =>
    (stakeAccountsOnPage rpc rpcAttempts page).map fun accounts =>
      (processAccountsForSelfStake program withdrawAuthorities epoch stakeHistory accounts
        selfStake).2) Dict.empty

end Collector

/-- The truncated funded amount of a bond, under its vote account. -/
def fundedAmountU64 (bond : ValidatorBond) : Except Failure (String × UInt64) :=
  match decimalToU64 bond.fundedAmount with
  | some fundedAmount => .ok (bond.voteAccount, UInt64.ofNat fundedAmount)
  | none => .error (.error "Failed to convert Bond Decimal value to u64")

/-- `get_self_stake`. -/
def getSelfStake (program : StakeProgram) (sources : SelfStakeSources) (epoch : Nat)
    (stakeHistory : StakeHistory) (allowZeroFundedBonds : Bool) (rpcAttempts : Nat) :
    Except Failure (Dict String UInt64) := do
  let withdrawAuthorities ← getWithdrawAuthorities program sources.voteAccounts
  let selfStake ← fetchSelfStake program withdrawAuthorities epoch stakeHistory
    sources.stakeAccounts rpcAttempts
  if selfStake.entries = [] then .error (.panic "Failed to fetch self stake data") else do
  let bonds ← fetchBonds sources.bondsReply
  if bonds = [] then
    .error (.error (s!"Fetched empty bonds list from {sources.bondsUrl} for epoch {epoch}, " ++
      "expected at least one bond"))
  else if (∀ bond ∈ bonds, bond.fundedAmount = 0) ∧ allowZeroFundedBonds = false then
    .error (.error (s!"All {bonds.length} bonds from {sources.bondsUrl} for epoch {epoch} have " ++
      "zero funded amounts, expected at least one non-zero amount"))
  else
    bonds.foldlM (fun selfStake bond =>
      (fundedAmountU64 bond).map fun e => tally selfStake e.1 e.2) selfStake

/-! ## Pages -/

section Pages

/-- The accounts that a node serves for a page. -/
def onPage (accounts : List (Pubkey × Account)) (page : UInt8) : List (Pubkey × Account) :=
  accounts.filter fun a => (pageFilters page).all (RpcFilterType.allows a.2.data)

/-- An account passes the filters of the page of its byte. -/
theorem pageFilters_iff {data : List UInt8} {page : UInt8} :
    (pageFilters page).all (RpcFilterType.allows data) = true ↔
      data.length = 200 ∧ data[withdrawAuthorityOffset]? = some page := by
  have hoffset : withdrawAuthorityOffset = 44 := rfl
  simp only [pageFilters, RpcFilterType.allows, List.all_cons, List.all_nil, Bool.and_true,
    Bool.and_eq_true, decide_eq_true_iff, beq_iff_eq, List.length_singleton, hoffset]
  refine and_congr_right fun hlength => ?_
  rw [List.take_one, List.head?_drop, List.getElem?_eq_getElem (by omega)]
  simp
  omega

theorem mem_allPages (page : UInt8) : page ∈ allPages :=
  List.mem_map.mpr ⟨page.toNat, List.mem_range.mpr page.toNat_lt, UInt8.ofNat_toNat⟩

theorem nodup_allPages : allPages.Nodup := by
  refine List.Nodup.map_on (fun m hm n hn h => ?_) List.nodup_range
  have hmod : (UInt8.ofNat m).toNat = (UInt8.ofNat n).toNat := congrArg UInt8.toNat h
  rw [UInt8.toNat_ofNat', UInt8.toNat_ofNat'] at hmod
  have hm := List.mem_range.mp hm
  have hn := List.mem_range.mp hn
  omega

/-- **The pages** have every account of 200 bytes once, and no other. -/
theorem allPages_perm (accounts : List (Pubkey × Account)) :
    (allPages.flatMap (onPage accounts)).Perm (accounts.filter fun a => a.2.data.length = 200) := by
  have hpage : ∀ page, onPage accounts page =
      (accounts.filter fun a => a.2.data.length = 200).filter fun a =>
        a.2.data[withdrawAuthorityOffset]? = some page := by
    intro page
    rw [List.filter_filter]
    refine List.filter_congr fun a _ => ?_
    rw [Bool.eq_iff_iff, pageFilters_iff, and_comm]
    simp
  have hbyte : ∀ a ∈ accounts.filter fun a => a.2.data.length = 200,
      a.2.data[withdrawAuthorityOffset]? ∈ allPages.map some := by
    intro a ha
    have hlength : a.2.data.length = 200 := by simpa using (List.mem_filter.mp ha).2
    have hoffset : withdrawAuthorityOffset = 44 := rfl
    rw [List.getElem?_eq_getElem (by omega)]
    exact List.mem_map_of_mem (mem_allPages _)
  have hslices := slices_perm (fun a : Pubkey × Account => a.2.data[withdrawAuthorityOffset]?)
    (nodup_allPages.map (Option.some_injective _)) hbyte
  rw [List.flatMap_map] at hslices
  rw [List.flatMap_congr fun page _ => hpage page]
  exact hslices

end Pages

/-! ## Adding up -/

section Process

variable (program : StakeProgram) (withdrawAuthorities : Finset (String × String)) (epoch : Nat)
  (stakeHistory : StakeHistory)

/-- The amount that an account adds to the map. -/
def contribution (account : Pubkey × Account) : Option (String × UInt64) :=
  match program.deserialize account.2.data with
  | some (.stake authorized delegation) =>
    let effective :=
      (program.stakeActivatingAndDeactivating delegation epoch stakeHistory).effective
    if (program.toString authorized.withdrawer, program.toString delegation.voterPubkey) ∈
        withdrawAuthorities ∧ effective ≠ 0 then
      some (program.toString delegation.voterPubkey, effective)
    else none
  | _ => none

/-- What an account counts for a vote account: the effective stake of a delegated account of
200 bytes with one of the pairs. -/
def countedStake (voteAccount : String) (account : Pubkey × Account) : Nat :=
  match program.deserialize account.2.data with
  | some (.stake authorized delegation) =>
    if account.2.data.length = 200 ∧
        (program.toString authorized.withdrawer, program.toString delegation.voterPubkey) ∈
          withdrawAuthorities ∧
        program.toString delegation.voterPubkey = voteAccount then
      (program.stakeActivatingAndDeactivating delegation epoch stakeHistory).effective.toNat
    else 0
  | _ => 0

variable {program withdrawAuthorities epoch stakeHistory}

/-- The step of the loop over a page. -/
theorem processAccount_snd (state : UInt64 × Dict String UInt64) (account : Pubkey × Account) :
    (processAccount program withdrawAuthorities epoch stakeHistory state account).2 =
      tallyAll state.2
        (contribution program withdrawAuthorities epoch stakeHistory account).toList := by
  unfold processAccount contribution
  cases program.deserialize account.2.data with
  | none => rfl
  | some stakeAccount =>
    cases stakeAccount with
    | stake authorized delegation =>
      simp only [getWithdrawerAndVoteKeys, StakeStateV2.delegation, StakeStateV2.authorized,
        Option.bind_some, Option.map_some]
      split
      · rfl
      · rfl
    | uninitialized => rfl
    | initialized authorized => rfl
    | rewardsPool => rfl

/-- A page adds the amounts of its accounts. -/
theorem processAccountsForSelfStake_snd (accounts : List (Pubkey × Account))
    (selfStake : Dict String UInt64) :
    (processAccountsForSelfStake program withdrawAuthorities epoch stakeHistory accounts
      selfStake).2 = tallyAll selfStake
        (accounts.filterMap (contribution program withdrawAuthorities epoch stakeHistory)) := by
  rw [List.filterMap_eq_flatMap_toList]
  exact foldl_tallyAll Prod.snd processAccount_snd accounts (0, selfStake)

/-- **All pages** add the amounts of the accounts of 200 bytes, in some order. -/
theorem fetchSelfStake_eq_ok {rpc : ProgramAccounts} {rpcAttempts : Nat}
    {selfStake : Dict String UInt64}
    (h : fetchSelfStake program withdrawAuthorities epoch stakeHistory rpc rpcAttempts =
      .ok selfStake) :
    ∃ found : List (Pubkey × Account),
      found.Perm (rpc.accounts.filter fun a => a.2.data.length = 200) ∧
      selfStake = tallyAll Dict.empty
        (found.filterMap (contribution program withdrawAuthorities epoch stakeHistory)) := by
  obtain ⟨results, hresults, rfl⟩ := foldlM_map_eq_ok (fun selfStake accounts =>
    (processAccountsForSelfStake program withdrawAuthorities epoch stakeHistory accounts
      selfStake).2) h
  refine ⟨results.flatten, ?_, ?_⟩
  · refine (flatten_perm (hresults.imp fun page found hfound => ?_)).trans
      (allPages_perm rpc.accounts)
    unfold stakeAccountsOnPage at hfound
    split at hfound
    · rename_i accounts hfetch
      obtain rfl := Except.ok.inj hfound
      exact perm_of_retryBlocking hfetch
    · cases hfound
    · cases hfound
  · rw [List.filterMap_flatten]
    exact foldl_tallyAll (fun selfStake => selfStake) (fun selfStake accounts =>
      processAccountsForSelfStake_snd accounts selfStake) results Dict.empty

/-- An account of 200 bytes counts what it adds to the entry of the vote account. -/
theorem countedStake_of_length {voteAccount : String} {account : Pubkey × Account}
    (h : account.2.data.length = 200) :
    countedStake program withdrawAuthorities epoch stakeHistory voteAccount account =
      ((amountsOf voteAccount (contribution program withdrawAuthorities epoch stakeHistory
        account).toList).map UInt64.toNat).sum := by
  unfold countedStake contribution
  cases program.deserialize account.2.data with
  | none => rfl
  | some stakeAccount =>
    cases stakeAccount with
    | stake authorized delegation =>
      simp only [h, true_and]
      by_cases hpair : (program.toString authorized.withdrawer,
          program.toString delegation.voterPubkey) ∈ withdrawAuthorities
      · by_cases heffective :
            (program.stakeActivatingAndDeactivating delegation epoch stakeHistory).effective = 0
        · simp [hpair, heffective, amountsOf]
        · by_cases hvote : program.toString delegation.voterPubkey = voteAccount
          · subst hvote
            simp [hpair, heffective, amountsOf]
          · simp [hpair, heffective, hvote, amountsOf]
      · simp [hpair, amountsOf]
    | uninitialized => rfl
    | initialized authorized => rfl
    | rewardsPool => rfl

/-- An account of another size counts nothing. -/
theorem countedStake_of_length_ne {voteAccount : String} {account : Pubkey × Account}
    (h : account.2.data.length ≠ 200) :
    countedStake program withdrawAuthorities epoch stakeHistory voteAccount account = 0 := by
  unfold countedStake
  split
  · rw [if_neg fun hcounted => h hcounted.1]
  · rfl

/-- The amounts of a vote account are what all accounts count for it. -/
theorem sum_amountsOf_contribution (accounts : List (Pubkey × Account)) (voteAccount : String) :
    ((amountsOf voteAccount ((accounts.filter fun a => a.2.data.length = 200).filterMap
      (contribution program withdrawAuthorities epoch stakeHistory))).map UInt64.toNat).sum =
      (accounts.map
        (countedStake program withdrawAuthorities epoch stakeHistory voteAccount)).sum := by
  induction accounts with
  | nil => rfl
  | cons account accounts ih =>
    rw [List.map_cons, List.sum_cons, ← ih]
    by_cases hlength : account.2.data.length = 200
    · rw [List.filter_cons, if_pos (decide_eq_true hlength), countedStake_of_length hlength,
        ← List.sum_append, ← List.map_append, ← amountsOf_append, List.filterMap_cons]
      cases contribution program withdrawAuthorities epoch stakeHistory account <;> rfl
    · rw [List.filter_cons, if_neg (by simpa using hlength), countedStake_of_length_ne hlength,
        Nat.zero_add]

end Process

/-! ## Bonds -/

/-- What a bond counts for a vote account: its truncated funded amount. -/
def countedBond (voteAccount : String) (bond : ValidatorBond) : Nat :=
  if bond.voteAccount = voteAccount then bond.fundedAmount.floor.toNat else 0

theorem fundedAmountU64_eq_ok {bond : ValidatorBond} {e : String × UInt64}
    (h : fundedAmountU64 bond = .ok e) :
    e.1 = bond.voteAccount ∧ e.2.toNat = bond.fundedAmount.floor.toNat := by
  unfold fundedAmountU64 decimalToU64 at h
  split at h
  · rename_i amount hamount
    obtain rfl := Except.ok.inj h
    split at hamount
    · rename_i hfit
      obtain rfl := Option.some.inj hamount
      exact ⟨rfl, UInt64.toNat_ofNat_of_lt' hfit.2⟩
    · cases hamount
  · cases h

/-- The amounts of a vote account are what the bonds count for it. -/
theorem sum_amountsOf_bonds {bonds : List ValidatorBond} {amounts : List (String × UInt64)}
    (h : List.Forall₂ (fun bond e => fundedAmountU64 bond = .ok e) bonds amounts)
    (voteAccount : String) :
    ((amountsOf voteAccount amounts).map UInt64.toNat).sum =
      (bonds.map (countedBond voteAccount)).sum := by
  induction h with
  | nil => rfl
  | @cons bond e bonds amounts hfirst _ ih =>
    obtain ⟨hvote, hamount⟩ := fundedAmountU64_eq_ok hfirst
    rw [List.map_cons, List.sum_cons, ← ih]
    unfold countedBond amountsOf
    rw [← hvote, ← hamount]
    by_cases hk : e.1 = voteAccount <;> simp [hk]

/-! ## The self stake of a vote account -/

/-- What all accounts and all bonds count for a vote account. -/
def counted (program : StakeProgram) (withdrawAuthorities : Finset (String × String))
    (epoch : Nat) (stakeHistory : StakeHistory) (accounts : List (Pubkey × Account))
    (bonds : List ValidatorBond) (voteAccount : String) : Nat :=
  (accounts.map
    (countedStake program withdrawAuthorities epoch stakeHistory voteAccount)).sum +
    (bonds.map (countedBond voteAccount)).sum

/-- What `get_self_stake` did when it succeeded. -/
theorem getSelfStake_eq_ok {program : StakeProgram} {sources : SelfStakeSources} {epoch : Nat}
    {stakeHistory : StakeHistory} {allowZeroFundedBonds : Bool} {rpcAttempts : Nat}
    {selfStake : Dict String UInt64}
    (h : getSelfStake program sources epoch stakeHistory allowZeroFundedBonds rpcAttempts =
      .ok selfStake) :
    ∃ withdrawAuthorities fetched bonds,
      getWithdrawAuthorities program sources.voteAccounts = .ok withdrawAuthorities ∧
      fetchSelfStake program withdrawAuthorities epoch stakeHistory sources.stakeAccounts
        rpcAttempts = .ok fetched ∧
      fetchBonds sources.bondsReply = .ok bonds ∧
      bonds.foldlM (fun selfStake bond =>
        (fundedAmountU64 bond).map fun e => tally selfStake e.1 e.2) fetched = .ok selfStake := by
  obtain ⟨withdrawAuthorities, hauthorities, h⟩ := bind_eq_ok.mp h
  obtain ⟨fetched, hfetched, h⟩ := bind_eq_ok.mp h
  split at h
  · cases h
  · obtain ⟨bonds, hbonds, h⟩ := bind_eq_ok.mp h
    refine ⟨withdrawAuthorities, fetched, bonds, hauthorities, hfetched, hbonds, ?_⟩
    split at h
    · cases h
    · split at h
      · cases h
      · exact h

/-- **Every stake account counts once**: the entry of a vote account is the effective stake of
the delegated accounts of 200 bytes whose withdrawer may withdraw from it, and the truncated
funded amounts of its bonds. -/
theorem getSelfStake_spec (program : StakeProgram) (sources : SelfStakeSources) (epoch : Nat)
    (stakeHistory : StakeHistory) (allowZeroFundedBonds : Bool) (rpcAttempts : Nat)
    (selfStake : Dict String UInt64)
    (h : getSelfStake program sources epoch stakeHistory allowZeroFundedBonds rpcAttempts =
      .ok selfStake) :
    ∃ withdrawAuthorities bonds,
      getWithdrawAuthorities program sources.voteAccounts = .ok withdrawAuthorities ∧
      fetchBonds sources.bondsReply = .ok bonds ∧
      ∀ voteAccount, counted program withdrawAuthorities epoch stakeHistory
          sources.stakeAccounts.accounts bonds voteAccount < 2 ^ 64 →
        ((selfStake.get? voteAccount).getD 0).toNat = counted program withdrawAuthorities epoch
          stakeHistory sources.stakeAccounts.accounts bonds voteAccount := by
  obtain ⟨withdrawAuthorities, fetched, bonds, hauthorities, hfetched, hbonds, h⟩ :=
    getSelfStake_eq_ok h
  refine ⟨withdrawAuthorities, bonds, hauthorities, hbonds, ?_⟩
  intro voteAccount hfit
  unfold counted at hfit ⊢
  obtain ⟨found, hfound, rfl⟩ := fetchSelfStake_eq_ok hfetched
  obtain ⟨amounts, hamounts, rfl⟩ := foldlM_map_eq_ok (fun selfStake (e : String × UInt64) =>
    tally selfStake e.1 e.2) h
  have hstakes := ((amountsOf_perm (hfound.filterMap
    (contribution program withdrawAuthorities epoch stakeHistory)) voteAccount).map
      UInt64.toNat).sum_eq
  rw [sum_amountsOf_contribution] at hstakes
  have hbond := sum_amountsOf_bonds hamounts voteAccount
  rw [← hstakes, ← hbond, ← List.sum_append, ← List.map_append] at hfit ⊢
  rw [show amounts.foldl (fun selfStake e => tally selfStake e.1 e.2)
      (tallyAll Dict.empty (found.filterMap _)) =
        tallyAll (tallyAll Dict.empty (found.filterMap
          (contribution program withdrawAuthorities epoch stakeHistory))) amounts from rfl,
    getD_tallyAll, getD_tallyAll, ← toNat_sum hfit, List.sum_append]
  show (0 + _ + _ : UInt64).toNat = _
  rw [zero_add]

/-! ## The layout of stake accounts -/

/-- `bincode` for `StakeStateV2`: a tag of four bytes, eight bytes of rent, staker, withdrawer
and 48 bytes of lockup, then the delegation; bytes that follow are not read. -/
def bincodeStakeState (data : List UInt8) : Option StakeStateV2 :=
  if data.length < 4 then none
  else if readLE (data.take 4) = 0 then some .uninitialized
  else if readLE (data.take 4) = 1 then
    if h : 124 ≤ data.length then
      some (.initialized ⟨pubkeyAt data 12 (by omega), pubkeyAt data 44 (by omega)⟩)
    else none
  else if readLE (data.take 4) = 2 then
    if h : 197 ≤ data.length then
      some (.stake ⟨pubkeyAt data 12 (by omega), pubkeyAt data 44 (by omega)⟩
        { voterPubkey := pubkeyAt data 124 (by omega)
          stake := u64At data 156
          activationEpoch := u64At data 164
          deactivationEpoch := u64At data 172 })
    else none
  else if readLE (data.take 4) = 3 then some .rewardsPool
  else none

/-- **The pages** are by the first byte of the withdrawer. -/
theorem withdrawer_on_page {data : List UInt8} {authorized : Authorized}
    {delegation : Delegation} (h : bincodeStakeState data = some (.stake authorized delegation)) :
    data[withdrawAuthorityOffset]? = authorized.withdrawer.bytes.head? := by
  unfold bincodeStakeState at h
  -- only an account with tag 2 and all its bytes is delegated
  split_ifs at h <;> cases h
  show data[44]? = ((data.drop 44).take 32).head?
  rw [List.head?_take, if_neg (by decide), List.head?_drop]

/-- `stake_activating_and_deactivating` with an empty history: a change of stake is complete
in the epoch after the one in which it was made. -/
def withoutHistory (delegation : Delegation) (epoch : Nat) : StakeHistoryEntry :=
  let reached : UInt64 × UInt64 :=
    if delegation.activationEpoch = 18446744073709551615 then (delegation.stake, 0)
    else if delegation.activationEpoch = delegation.deactivationEpoch then (0, 0)
    else if epoch = delegation.activationEpoch.toNat then (0, delegation.stake)
    else if epoch < delegation.activationEpoch.toNat then (0, 0)
    else (delegation.stake, 0)
  if epoch < delegation.deactivationEpoch.toNat then ⟨reached.1, reached.2, 0⟩
  else if epoch = delegation.deactivationEpoch.toNat then ⟨reached.1, 0, reached.1⟩
  else ⟨0, 0, 0⟩

/-- The stake program before there is any history. -/
def youngStakeProgram : StakeProgram where
  toString := Pubkey.base58
  deserialize := bincodeStakeState
  stakeActivatingAndDeactivating delegation epoch _ := withoutHistory delegation epoch

/-- A delegated stake account, with three bytes that are not used. -/
def stakeAccountOf (withdrawer voter : Pubkey) (stake activation deactivation : Nat) : Account where
  data := toLE 4 2 ++ toLE 8 2282880 ++ withdrawer.bytes ++ withdrawer.bytes ++
    List.replicate 48 0 ++ voter.bytes ++ toLE 8 stake ++ toLE 8 activation ++
    toLE 8 deactivation ++ List.replicate 20 0

/-- A vote account that one key may withdraw from and stake accounts: an old one, one that was
activated, one that was deactivated at once, one of another withdrawer, and bytes. -/
def fiveStakeAccounts : SelfStakeSources where
  voteAccounts := .ok [(keyOfByte 9, ⟨List.replicate 36 0 ++ (keyOfByte 7).bytes⟩)]
  stakeAccounts := ProgramAccounts.reliable
    [(keyOfByte 1, stakeAccountOf (keyOfByte 7) (keyOfByte 9) 1000 (2 ^ 64 - 1) (2 ^ 64 - 1)),
      (keyOfByte 2, stakeAccountOf (keyOfByte 7) (keyOfByte 9) 500 100 (2 ^ 64 - 1)),
      (keyOfByte 3, stakeAccountOf (keyOfByte 7) (keyOfByte 9) 50 100 100),
      (keyOfByte 4, stakeAccountOf (keyOfByte 8) (keyOfByte 9) 70 100 (2 ^ 64 - 1)),
      (keyOfByte 5, ⟨List.replicate 200 255⟩)]
  bondsUrl := "bonds"
  bondsReply := .ok
    ⟨true, "200 OK", some [⟨(keyOfByte 9).base58, 5 / 2⟩, ⟨(keyOfByte 6).base58, 1⟩]⟩

/-- Two stake accounts and the truncated bond count. -/
theorem getSelfStake_spec_five :
    ∃ selfStake, getSelfStake youngStakeProgram fiveStakeAccounts 500 [] false 3 =
        .ok selfStake ∧
      ((selfStake.get? (keyOfByte 9).base58).getD 0).toNat = 1502 := by
  have hok : ((getSelfStake youngStakeProgram fiveStakeAccounts 500 [] false 3).toOption).isSome =
      true := by decide +kernel
  cases hrun : getSelfStake youngStakeProgram fiveStakeAccounts 500 [] false 3 with
  | error err =>
    rw [hrun] at hok
    cases hok
  | ok selfStake =>
    obtain ⟨authorities, bonds, hauthorities, hbonds, htotal⟩ :=
      getSelfStake_spec youngStakeProgram fiveStakeAccounts 500 [] false 3 selfStake hrun
    have hpair : getWithdrawAuthorities youngStakeProgram fiveStakeAccounts.voteAccounts =
        .ok {((keyOfByte 7).base58, (keyOfByte 9).base58)} := rfl
    obtain rfl := Except.ok.inj (hpair.symm.trans hauthorities)
    have hreply : fetchBonds fiveStakeAccounts.bondsReply =
        .ok [⟨(keyOfByte 9).base58, 5 / 2⟩, ⟨(keyOfByte 6).base58, 1⟩] := rfl
    obtain rfl := Except.ok.inj (hreply.symm.trans hbonds)
    have hcounted : counted youngStakeProgram {((keyOfByte 7).base58, (keyOfByte 9).base58)} 500 []
        fiveStakeAccounts.stakeAccounts.accounts
        [⟨(keyOfByte 9).base58, 5 / 2⟩, ⟨(keyOfByte 6).base58, 1⟩] (keyOfByte 9).base58 = 1502 := by
      decide +kernel
    refine ⟨selfStake, rfl, ?_⟩
    rw [htotal _ (by rw [hcounted]; decide), hcounted]

end DelegationStrategy.Collect
