import DelegationStrategy.Collect.NodeVersions
import DelegationStrategy.Collect.Rpc
import DelegationStrategy.Collect.Snapshot
import DelegationStrategy.Lib.Binary64
import DelegationStrategy.Lib.Tally
import Mathlib.Algebra.BigOperators.Group.List.Basic
import Mathlib.Algebra.Group.Prod
import Mathlib.Data.Finset.Dedup

/-!
# Block production

How many slots a validator led and in how many of them it produced a block:
`get_block_production_by_validator` (`collect/src/solana_service.rs`), and the skip rate that
`validators_performance` (`collect/src/validators_performance.rs`) makes of it. For the current
epoch the node has the pairs; for a past epoch they are counted, from the leader schedule, with
slots relative to the epoch, and the history of confirmed slots.

- `getBlockProduction_past`: for a past epoch every slot and every confirmed slot is counted,
  for the validator that led it.
- `skipRate_mem`: the skip rate is between zero and one, whatever is rounded.
-/

namespace DelegationStrategy.Collect

open DelegationStrategy.Lib

/-! ## What a node answers -/

/-- `EpochSchedule`, by its methods. -/
structure EpochSchedule where
  getFirstSlotInEpoch : Nat → Nat
  getLastSlotInEpoch : Nat → Nat

/-- The value of `get_block_production`: pairs by identity, and where the range starts. -/
structure RpcBlockProduction where
  byIdentity : Dict String (Nat × Nat)
  firstSlot : Nat

/-- `slot_history::Check`. -/
inductive SlotCheck where
  | future
  | tooOld
  | found
  | notFound
  deriving DecidableEq, Repr

/-- `SlotHistory`, by its methods. -/
structure SlotHistory where
  oldest : Nat
  newest : Nat
  check : Nat → SlotCheck

/-- What a node answers while block production is read. -/
structure ProductionReplies where
  epochSchedule : Except Failure EpochSchedule
  blockProduction : Except Failure RpcBlockProduction
  /-- `None` if there is no such account or if it is malformed. -/
  slotHistory : Except Failure (Option SlotHistory)
  leaderSchedule : Nat → Except Failure (Option (Dict String (List Nat)))
  /-- The order in which the leader schedule is iterated. -/
  iteration : Scan

/-- `Option::unwrap`. -/
def unwrap {α : Type} : Option α → Except Failure α
  | some a => .ok a
  | none => .error (.panic "called `Option::unwrap()` on a `None` value")

theorem bind_unwrap_eq_ok {α : Type} {reply : Except Failure (Option α)} {a : α} :
    (reply >>= unwrap) = .ok a ↔ reply = .ok (some a) := by
  rw [bind_eq_ok]
  constructor
  · rintro ⟨value, hreply, hunwrap⟩
    cases value with
    | none => cases hunwrap
    | some a' =>
      obtain rfl := Except.ok.inj hunwrap
      exact hreply
  · exact fun hreply => ⟨some a, hreply, rfl⟩

/-! ## Counting -/

/-- `get_confirmed_blocks`. -/
def getConfirmedBlocks (slotHistoryAccount : Except Failure (Option SlotHistory))
    (startSlot endSlot : Nat) : Except Failure (Finset Nat) := do
  let slotHistory ← slotHistoryAccount >>= unwrap
  if startSlot ≥ slotHistory.oldest ∧ endSlot ≤ slotHistory.newest then
    .ok ((List.range' startSlot (endSlot + 1 - startSlot)).filter fun slot =>
      slotHistory.check slot = .found).toFinset
  else .error (.error "slot range is not within the SlotHistory sysvar")

/-- The inner loop: `validator_slots` and `validator_blocks`. -/
def countSlots (firstSlot : Nat) (confirmedBlocks : Finset Nat) (relativeSlots : List Nat) :
    Nat × Nat :=
  relativeSlots.foldl (fun counts relativeSlot =>
    let slot := firstSlot + relativeSlot
    (counts.1 + 1, if slot ∈ confirmedBlocks then counts.2 + 1 else counts.2)) (0, 0)

/-- The body of the outer loop. -/
def addValidator (firstSlot : Nat) (confirmedBlocks : Finset Nat)
    (blocksAndSlots : Dict String (Nat × Nat)) (leader : String × List Nat) :
    Dict String (Nat × Nat) :=
  let counts := countSlots firstSlot confirmedBlocks leader.2
  if 0 < counts.1 then tally blocksAndSlots leader.1 counts else blocksAndSlots

/-- The outer loop. -/
def countProduction (iteration : Scan) (firstSlot : Nat) (confirmedBlocks : Finset Nat)
    (leaderSchedule : Dict String (List Nat)) : Dict String (Nat × Nat) :=
  (iteration.order leaderSchedule.entries).foldl (addValidator firstSlot confirmedBlocks)
    Dict.empty

/-- `get_block_production_by_validator`. -/
def getBlockProductionByValidator (replies : ProductionReplies) (epoch : Nat) :
    Except Failure (Dict String (Nat × Nat)) := do
  let epochSchedule ← replies.epochSchedule
  let firstSlotInEpoch := epochSchedule.getFirstSlotInEpoch epoch
  let lastSlotInEpoch := epochSchedule.getLastSlotInEpoch epoch
  let currentEpochProduction ← replies.blockProduction
  if firstSlotInEpoch = currentEpochProduction.firstSlot then
    .ok currentEpochProduction.byIdentity
  else do
    let confirmedBlocks ← getConfirmedBlocks replies.slotHistory firstSlotInEpoch lastSlotInEpoch
    let leaderSchedule ← replies.leaderSchedule firstSlotInEpoch >>= unwrap
    .ok (countProduction replies.iteration firstSlotInEpoch confirmedBlocks leaderSchedule)

/-! ## Performance -/

/-- The fields of `RpcVoteAccountInfo` that are read here. -/
structure VoteAccountPerformance where
  votePubkey : String
  nodePubkey : String
  commission : UInt8
  /-- Epoch, credits and previous credits. -/
  epochCredits : List (Nat × UInt64 × UInt64)
  deriving DecidableEq, Repr

structure VoteAccountStatus where
  current : List VoteAccountPerformance
  delinquent : List VoteAccountPerformance
  deriving DecidableEq, Repr

/-- `current.iter().chain(delinquent.iter())`. -/
def VoteAccountStatus.chained (voteAccounts : VoteAccountStatus) : List VoteAccountPerformance :=
  voteAccounts.current ++ voteAccounts.delinquent

/-- `get_credits`. -/
def getCredits (voteAccounts : Except Failure VoteAccountStatus) (epoch : Nat) :
    Except Failure (Dict String UInt64) :=
  voteAccounts.map fun voteAccounts =>
    Dict.ofList (voteAccounts.chained.flatMap fun voteAccount =>
      voteAccount.epochCredits.filterMap fun record =>
        if record.1 = epoch then some (voteAccount.votePubkey, record.2.1 - record.2.2) else none)

/-- The field `skip_rate`, in `f64`. -/
def skipRate (leaderSlots blocksProduced : Nat) : Rat :=
  if leaderSlots = 0 then 0
  else roundBinary64 (1 -
    roundBinary64 (roundBinary64 blocksProduced / roundBinary64 leaderSlots))

/-- What `validators_performance` reads. -/
structure PerformanceSources where
  voteAccounts : VoteAccountStatus
  /-- The replies to each call of `get_block_production_by_validator`. -/
  production : Nat → ProductionReplies
  clusterNodes : Except Failure (List ClusterNode)
  creditsVoteAccounts : Except Failure VoteAccountStatus

/-- `validators_performance`. -/
def validatorsPerformance (sources : PerformanceSources) (epoch rpcAttempts : Nat) :
    Except Failure (Dict String ValidatorPerformance) := do
  let productionByValidator ← retryBlocking (fun call =>
    getBlockProductionByValidator (sources.production call) epoch) rpcAttempts
  let nodeVersions ← sources.clusterNodes.map getClusterNodesVersions
  let credits ← getCredits sources.creditsVoteAccounts epoch
  .ok (Dict.ofList (sources.voteAccounts.chained.map fun voteAccount =>
    let identity := voteAccount.nodePubkey
    let (leaderSlots, blocksProduced) := (productionByValidator.get? identity).getD (0, 0)
    (voteAccount.votePubkey,
      { commission := voteAccount.commission
        version := nodeVersions.get? identity
        credits := ((credits.get? voteAccount.votePubkey).getD 0).toNat
        leaderSlots := leaderSlots
        blocksProduced := blocksProduced
        skipRate := skipRate leaderSlots blocksProduced
        delinquent := voteAccount.votePubkey ∈
          sources.voteAccounts.delinquent.map VoteAccountPerformance.votePubkey })))

/-! ## Pairs -/

/-- The pair of a leader: its slots, and second those of them with a block. -/
def productionOf (leaderSlots : List Nat) (hasBlock : Nat → Bool) : Nat × Nat :=
  (leaderSlots.length, leaderSlots.countP hasBlock)

/-- A pair that counts the slots of a leader, in this order. -/
def CountsProduction (pair : Nat × Nat) : Prop :=
  ∃ leaderSlots hasBlock, pair = productionOf leaderSlots hasBlock

theorem CountsProduction.le {pair : Nat × Nat} (h : CountsProduction pair) : pair.2 ≤ pair.1 := by
  obtain ⟨leaderSlots, hasBlock, rfl⟩ := h
  exact List.countP_le_length

/-- **The skip rate** is between zero and one. -/
theorem skipRate_mem {leaderSlots blocksProduced : Nat} (h : blocksProduced ≤ leaderSlots) :
    0 ≤ skipRate leaderSlots blocksProduced ∧ skipRate leaderSlots blocksProduced ≤ 1 := by
  unfold skipRate
  by_cases hslots : leaderSlots = 0
  · rw [if_pos hslots]
    exact ⟨le_rfl, zero_le_one⟩
  · rw [if_neg hslots]
    have hblocks : (0 : ℚ) ≤ roundBinary64 blocksProduced :=
      roundBinary64_nonneg (Nat.cast_nonneg _)
    have hle : roundBinary64 blocksProduced ≤ roundBinary64 leaderSlots :=
      roundBinary64_mono (Nat.cast_nonneg _) (by exact_mod_cast h)
    have hquotient := roundBinary64_mem_unit (div_nonneg hblocks (hblocks.trans hle))
      (div_le_one_of_le₀ hle (hblocks.trans hle))
    exact roundBinary64_mem_unit (sub_nonneg.mpr hquotient.2) (sub_le_self 1 hquotient.1)

section Counting

variable {firstSlot : Nat} {confirmedBlocks : Finset Nat}

theorem countSlots_eq (relativeSlots : List Nat) :
    countSlots firstSlot confirmedBlocks relativeSlots =
      productionOf relativeSlots fun s => firstSlot + s ∈ confirmedBlocks := by
  have hloop : ∀ counts : Nat × Nat, relativeSlots.foldl (fun counts relativeSlot =>
      (counts.1 + 1,
        if firstSlot + relativeSlot ∈ confirmedBlocks then counts.2 + 1 else counts.2)) counts =
      counts + productionOf relativeSlots fun s => firstSlot + s ∈ confirmedBlocks := by
    induction relativeSlots with
    | nil => exact fun counts => rfl
    | cons slot slots ih =>
      intro counts
      rw [List.foldl_cons, ih]
      unfold productionOf
      rw [List.length_cons, List.countP_cons]
      by_cases hslot : firstSlot + slot ∈ confirmedBlocks
      · simp [hslot, Prod.ext_iff]
        omega
      · simp [hslot, Prod.ext_iff]
        omega
  exact (hloop (0, 0)).trans (zero_add _)

/-- The pair that a leader adds to the map; one without slots adds none. -/
def leaderAmount (firstSlot : Nat) (confirmedBlocks : Finset Nat) (leader : String × List Nat) :
    Option (String × (Nat × Nat)) :=
  if leader.2 = [] then none
  else some (leader.1, productionOf leader.2 fun s => firstSlot + s ∈ confirmedBlocks)

theorem addValidator_eq (blocksAndSlots : Dict String (Nat × Nat)) (leader : String × List Nat) :
    addValidator firstSlot confirmedBlocks blocksAndSlots leader =
      tallyAll blocksAndSlots (leaderAmount firstSlot confirmedBlocks leader).toList := by
  unfold addValidator leaderAmount
  rw [countSlots_eq]
  cases hslots : leader.2 with
  | nil => rfl
  | cons slot slots =>
    rw [if_neg (List.cons_ne_nil _ _)]
    rfl

/-- The outer loop adds up the pairs of all leaders. -/
theorem countProduction_eq (iteration : Scan) (leaderSchedule : Dict String (List Nat)) :
    countProduction iteration firstSlot confirmedBlocks leaderSchedule = tallyAll Dict.empty
      ((iteration.order leaderSchedule.entries).filterMap
        (leaderAmount firstSlot confirmedBlocks)) := by
  rw [List.filterMap_eq_flatMap_toList]
  exact foldl_tallyAll (fun blocksAndSlots => blocksAndSlots) addValidator_eq _ Dict.empty

/-- **Every leader with slots** has its pair, and nobody else has one. -/
theorem get?_countProduction (iteration : Scan) (leaderSchedule : Dict String (List Nat))
    (identity : String) :
    (countProduction iteration firstSlot confirmedBlocks leaderSchedule).get? identity =
      (leaderSchedule.get? identity).bind fun relativeSlots =>
        if relativeSlots = [] then none
        else some (productionOf relativeSlots fun s => firstSlot + s ∈ confirmedBlocks) := by
  have hkey : ∀ (leader : String × List Nat) (e : String × (Nat × Nat)),
      leaderAmount firstSlot confirmedBlocks leader = some e → e.1 = leader.1 := by
    intro leader e he
    obtain ⟨-, heq⟩ := Option.ite_none_left_eq_some.mp he
    rw [← Option.some.inj heq]
  rw [countProduction_eq, get?_tallyAll_empty, amountsOf_filterMap hkey, filter_entries]
  cases leaderSchedule.get? identity with
  | none => rfl
  | some relativeSlots =>
    by_cases hslots : relativeSlots = []
    · simp [leaderAmount, hslots]
    · simp [leaderAmount, hslots]

theorem productionOf_append (l₁ l₂ : List Nat) (hasBlock : Nat → Bool) :
    productionOf (l₁ ++ l₂) hasBlock = productionOf l₁ hasBlock + productionOf l₂ hasBlock := by
  unfold productionOf
  rw [List.length_append, List.countP_append]
  rfl

theorem productionOf_perm {l₁ l₂ : List Nat} (h : l₁.Perm l₂) (hasBlock : Nat → Bool) :
    productionOf l₁ hasBlock = productionOf l₂ hasBlock := by
  unfold productionOf
  rw [h.length_eq, h.countP_eq]

/-- **All pairs together** are the pair of all slots that were assigned. -/
theorem total_countProduction (iteration : Scan) (leaderSchedule : Dict String (List Nat)) :
    (countProduction iteration firstSlot confirmedBlocks leaderSchedule).total =
      productionOf (leaderSchedule.entries.flatMap Prod.snd)
        fun s => firstSlot + s ∈ confirmedBlocks := by
  have hsum : ∀ leaders : List (String × List Nat),
      ((leaders.filterMap (leaderAmount firstSlot confirmedBlocks)).map Prod.snd).sum =
        productionOf (leaders.flatMap Prod.snd) fun s => firstSlot + s ∈ confirmedBlocks := by
    intro leaders
    induction leaders with
    | nil => rfl
    | cons leader leaders ih =>
      rw [List.flatMap_cons, productionOf_append, ← ih, List.filterMap_cons]
      unfold leaderAmount
      by_cases hslots : leader.2 = []
      · rw [if_pos hslots, hslots]
        exact (zero_add _).symm
      · rw [if_neg hslots]
        rfl
  rw [countProduction_eq, sum_tallyAll, hsum]
  exact (zero_add _).trans (productionOf_perm ((iteration.perm _).flatMap_right _) _)

end Counting

/-! ## Past epochs -/

/-- The replies about a past epoch: each of its slots is assigned to one identity. -/
structure PastEpoch (replies : ProductionReplies) (epoch firstSlot slots : Nat)
    (history : SlotHistory) (schedule : Dict String (List Nat)) : Prop where
  epochSchedule : ∀ epochSchedule, replies.epochSchedule = .ok epochSchedule →
    epochSchedule.getFirstSlotInEpoch epoch = firstSlot ∧
      epochSchedule.getLastSlotInEpoch epoch + 1 = firstSlot + slots
  past : ∀ current, replies.blockProduction = .ok current → current.firstSlot ≠ firstSlot
  slotHistory : replies.slotHistory = .ok (some history)
  leaderSchedule : replies.leaderSchedule firstSlot = .ok (some schedule)
  assigned : (schedule.entries.flatMap Prod.snd).Perm (List.range slots)

theorem getConfirmedBlocks_eq_ok {slotHistoryAccount : Except Failure (Option SlotHistory)}
    {startSlot endSlot : Nat} {confirmedBlocks : Finset Nat}
    (h : getConfirmedBlocks slotHistoryAccount startSlot endSlot = .ok confirmedBlocks) :
    ∃ history, slotHistoryAccount = .ok (some history) ∧ ∀ slot, slot ∈ confirmedBlocks ↔
      (startSlot ≤ slot ∧ slot < endSlot + 1) ∧ history.check slot = .found := by
  obtain ⟨history, haccount, h⟩ := bind_eq_ok.mp h
  refine ⟨history, bind_unwrap_eq_ok.mp haccount, fun slot => ?_⟩
  split at h
  · obtain rfl := Except.ok.inj h
    rw [List.mem_toFinset, List.mem_filter, List.mem_range'_1, decide_eq_true_iff]
    refine and_congr_left fun _ => ?_
    omega
  · cases h

/-- Either path: the pairs of the node, or those that are counted. -/
theorem getBlockProduction_cases {replies : ProductionReplies} {epoch : Nat}
    {production : Dict String (Nat × Nat)}
    (h : getBlockProductionByValidator replies epoch = .ok production) :
    ∃ epochSchedule current, replies.epochSchedule = .ok epochSchedule ∧
      replies.blockProduction = .ok current ∧
      ((epochSchedule.getFirstSlotInEpoch epoch = current.firstSlot ∧
          production = current.byIdentity) ∨
        ∃ confirmedBlocks leaderSchedule,
          getConfirmedBlocks replies.slotHistory (epochSchedule.getFirstSlotInEpoch epoch)
            (epochSchedule.getLastSlotInEpoch epoch) = .ok confirmedBlocks ∧
          replies.leaderSchedule (epochSchedule.getFirstSlotInEpoch epoch) =
            .ok (some leaderSchedule) ∧
          production = countProduction replies.iteration
            (epochSchedule.getFirstSlotInEpoch epoch) confirmedBlocks leaderSchedule) := by
  obtain ⟨epochSchedule, hepoch, h⟩ := bind_eq_ok.mp h
  obtain ⟨current, hcurrent, h⟩ := bind_eq_ok.mp h
  refine ⟨epochSchedule, current, hepoch, hcurrent, ?_⟩
  split at h
  · rename_i hfirst
    exact Or.inl ⟨hfirst, (Except.ok.inj h).symm⟩
  · obtain ⟨confirmedBlocks, hconfirmed, h⟩ := bind_eq_ok.mp h
    obtain ⟨leaderSchedule, hleaders, h⟩ := bind_eq_ok.mp h
    exact Or.inr ⟨confirmedBlocks, leaderSchedule, hconfirmed, bind_unwrap_eq_ok.mp hleaders,
      (Except.ok.inj h).symm⟩

/-- **A past epoch**: each leader has the pair of its slots, and together they have every slot
of the epoch and every confirmed one. -/
theorem getBlockProduction_past {replies : ProductionReplies} {epoch firstSlot slots : Nat}
    {history : SlotHistory} {leaderSchedule : Dict String (List Nat)}
    (hpast : PastEpoch replies epoch firstSlot slots history leaderSchedule)
    {production : Dict String (Nat × Nat)}
    (h : getBlockProductionByValidator replies epoch = .ok production) :
    (∀ identity, production.get? identity = (leaderSchedule.get? identity).bind
      fun relativeSlots => if relativeSlots = [] then none
        else some (productionOf relativeSlots
          fun s => history.check (firstSlot + s) = .found)) ∧
    production.total = productionOf (List.range' firstSlot slots)
      fun slot => history.check slot = .found := by
  obtain ⟨epochSchedule, current, hepoch, hcurrent, hcases⟩ := getBlockProduction_cases h
  obtain ⟨hfirst, hlast⟩ := hpast.epochSchedule epochSchedule hepoch
  rw [hfirst] at hcases
  obtain ⟨heq, -⟩ | ⟨confirmedBlocks, leaders, hconfirmed, hleaders, rfl⟩ := hcases
  · exact absurd heq.symm (hpast.past current hcurrent)
  obtain rfl := Option.some.inj (Except.ok.inj (hleaders.symm.trans hpast.leaderSchedule))
  obtain ⟨history', hhistory, hmem⟩ := getConfirmedBlocks_eq_ok hconfirmed
  obtain rfl := Option.some.inj (Except.ok.inj (hhistory.symm.trans hpast.slotHistory))
  have hfound : ∀ s ∈ List.range slots, decide (firstSlot + s ∈ confirmedBlocks) =
      decide (history'.check (firstSlot + s) = .found) := by
    intro s hs
    have hlt := List.mem_range.mp hs
    rw [decide_eq_decide, hmem]
    exact and_iff_right ⟨by omega, by omega⟩
  have hcount : ∀ relativeSlots : List Nat, (∀ s ∈ relativeSlots, s ∈ List.range slots) →
      productionOf relativeSlots (fun s => firstSlot + s ∈ confirmedBlocks) =
        productionOf relativeSlots fun s => history'.check (firstSlot + s) = .found := by
    intro relativeSlots hrelative
    unfold productionOf
    rw [List.countP_congr fun s hs => by rw [hfound s (hrelative s hs)]]
  constructor
  · intro identity
    rw [get?_countProduction]
    cases hget : leaders.get? identity with
    | none => rfl
    | some relativeSlots =>
      have hrelative : ∀ s ∈ relativeSlots, s ∈ List.range slots := fun s hs =>
        hpast.assigned.subset (List.mem_flatMap.mpr ⟨_, Dict.mem_of_get? hget, hs⟩)
      rw [Option.bind_some, Option.bind_some, hcount relativeSlots hrelative]
  · rw [total_countProduction, productionOf_perm hpast.assigned, hcount _ fun s hs => hs,
      List.range'_eq_map_range]
    unfold productionOf
    rw [List.length_map, List.countP_map]
    rfl

/-! ## Skip rates -/

/-- On either path the pairs count the slots of leaders. -/
theorem countsProduction_of_ok {replies : ProductionReplies} {epoch : Nat}
    (hrpc : ∀ current, replies.blockProduction = .ok current →
      ∀ e ∈ current.byIdentity.entries, CountsProduction e.2)
    {production : Dict String (Nat × Nat)}
    (h : getBlockProductionByValidator replies epoch = .ok production) :
    ∀ e ∈ production.entries, CountsProduction e.2 := by
  obtain ⟨epochSchedule, current, -, hcurrent, hcases⟩ := getBlockProduction_cases h
  obtain ⟨-, rfl⟩ | ⟨confirmedBlocks, leaderSchedule, -, -, rfl⟩ := hcases
  · exact hrpc current hcurrent
  · rintro ⟨identity, pair⟩ he
    have hget := Dict.get?_of_mem he
    rw [get?_countProduction] at hget
    obtain ⟨relativeSlots, -, hpair⟩ := Option.bind_eq_some_iff.mp hget
    obtain ⟨-, heq⟩ := Option.ite_none_left_eq_some.mp hpair
    exact ⟨relativeSlots, _, (Option.some.inj heq).symm⟩

/-- The skip rate of a validator is that of its identity's pair. -/
theorem mem_validatorsPerformance {sources : PerformanceSources} {epoch rpcAttempts : Nat}
    {performance : Dict String ValidatorPerformance}
    (h : validatorsPerformance sources epoch rpcAttempts = .ok performance)
    {e : String × ValidatorPerformance} (he : e ∈ performance.entries) :
    ∃ call production identity,
      getBlockProductionByValidator (sources.production call) epoch = .ok production ∧
      e.2.skipRate = skipRate ((production.get? identity).getD (0, 0)).1
        ((production.get? identity).getD (0, 0)).2 := by
  obtain ⟨production, hretry, h⟩ := bind_eq_ok.mp h
  obtain ⟨nodeVersions, -, h⟩ := bind_eq_ok.mp h
  obtain ⟨credits, -, h⟩ := bind_eq_ok.mp h
  obtain rfl := Except.ok.inj h
  obtain ⟨call, hcall⟩ := exists_call_of_retryBlocking hretry
  obtain ⟨voteAccount, -, rfl⟩ := List.mem_map.mp (Dict.mem_of_mem_ofList he)
  exact ⟨call, production, voteAccount.nodePubkey, hcall, rfl⟩

/-- **Block production adds up**: for a past epoch every leader has its slots and those of them
that were confirmed, which together are the slots and the confirmed slots of the epoch; the
pairs count the same as those of the node; and every skip rate is between zero and one. -/
theorem blockProduction_addsUp (sources : PerformanceSources) (epoch rpcAttempts : Nat)
    (hrpc : ∀ call current, (sources.production call).blockProduction = .ok current →
      ∀ e ∈ current.byIdentity.entries, CountsProduction e.2) :
    (∀ call firstSlot slots history schedule production,
      PastEpoch (sources.production call) epoch firstSlot slots history schedule →
      getBlockProductionByValidator (sources.production call) epoch = .ok production →
      (∀ identity relativeSlots, schedule.get? identity = some relativeSlots →
        relativeSlots ≠ [] → production.get? identity = some (productionOf relativeSlots
          fun s => history.check (firstSlot + s) = .found)) ∧
      (∀ e ∈ production.entries, e.2.2 ≤ e.2.1) ∧
      (production.entries.map fun e => e.2.1).sum = slots ∧
      (production.entries.map fun e => e.2.2).sum =
        (List.range' firstSlot slots).countP fun slot => history.check slot = .found) ∧
    (∀ call production,
      getBlockProductionByValidator (sources.production call) epoch = .ok production →
      ∀ e ∈ production.entries, CountsProduction e.2) ∧
    ∀ performance, validatorsPerformance sources epoch rpcAttempts = .ok performance →
      ∀ e ∈ performance.entries, 0 ≤ e.2.skipRate ∧ e.2.skipRate ≤ 1 := by
  refine ⟨?_, fun call production h => countsProduction_of_ok (hrpc call) h, ?_⟩
  · intro call firstSlot slots history schedule production hpast h
    obtain ⟨hget, htotal⟩ := getBlockProduction_past hpast h
    refine ⟨fun identity relativeSlots hleader hslots => ?_, fun e he =>
      (countsProduction_of_ok (hrpc call) h e he).le, ?_, ?_⟩
    · rw [hget, hleader, Option.bind_some, if_neg hslots]
    · refine (sum_map_entries (AddMonoidHom.fst Nat Nat) production).trans ?_
      rw [htotal]
      exact List.length_range'
    · refine (sum_map_entries (AddMonoidHom.snd Nat Nat) production).trans ?_
      rw [htotal]
      rfl
  · intro performance h e he
    obtain ⟨call, production, identity, hcall, hskip⟩ := mem_validatorsPerformance h he
    rw [hskip]
    refine skipRate_mem ?_
    cases hget : production.get? identity with
    | none => exact le_rfl
    | some pair =>
      exact (countsProduction_of_ok (hrpc call) hcall _ (Dict.mem_of_get? hget)).le

/-- A past epoch of four slots from 400 on, the last of which was skipped, and a node that is
two epochs further. -/
def fourSlots : ProductionReplies where
  epochSchedule := .ok ⟨fun epoch => 4 * epoch, fun epoch => 4 * epoch + 3⟩
  blockProduction := .ok ⟨⟨[("first", (2, 1))], by decide⟩, 408⟩
  slotHistory := .ok (some ⟨0, 409, fun slot => if slot = 403 then .notFound else .found⟩)
  leaderSchedule _ := .ok (some ⟨[("first", [0, 1, 3]), ("second", [2])], by decide⟩)
  iteration := Scan.reverse

/-- Two validators, and no call that fails. -/
def twoLeaders : PerformanceSources where
  voteAccounts := ⟨[⟨"vote", "first", 5, [(100, 30, 10)]⟩], [⟨"late", "second", 0, []⟩]⟩
  production _ := fourSlots
  clusterNodes := .ok []
  creditsVoteAccounts := .ok ⟨[⟨"vote", "first", 5, [(100, 30, 10)]⟩], []⟩

/-- The first leader missed one of its three slots. -/
theorem blockProduction_addsUp_two :
    ∃ production performance,
      getBlockProductionByValidator fourSlots 100 = .ok production ∧
      production.get? "first" = some (3, 2) ∧
      (production.entries.map fun e => e.2.1).sum = 4 ∧
      (production.entries.map fun e => e.2.2).sum = 3 ∧
      validatorsPerformance twoLeaders 100 2 = .ok performance ∧
      ∀ e ∈ performance.entries, 0 ≤ e.2.skipRate ∧ e.2.skipRate ≤ 1 := by
  have hrpc : ∀ call current, (twoLeaders.production call).blockProduction = .ok current →
      ∀ e ∈ current.byIdentity.entries, CountsProduction e.2 := by
    intro call current hcurrent e he
    obtain rfl := Except.ok.inj hcurrent
    obtain rfl := List.mem_singleton.mp he
    exact ⟨[0, 1], fun s => s = 0, by decide⟩
  obtain ⟨hpast, -, hskip⟩ := blockProduction_addsUp twoLeaders 100 2 hrpc
  have hepoch : PastEpoch (twoLeaders.production 0) 100 400 4
      ⟨0, 409, fun slot => if slot = 403 then .notFound else .found⟩
      ⟨[("first", [0, 1, 3]), ("second", [2])], by decide⟩ := by
    refine ⟨fun epochSchedule h => ?_, fun current h => ?_, rfl, rfl, by decide⟩
    · obtain rfl := Except.ok.inj h
      exact ⟨rfl, rfl⟩
    · obtain rfl := Except.ok.inj h
      decide
  obtain ⟨hget, -, hslots, hblocks⟩ := hpast 0 400 4 _ _ _ hepoch rfl
  exact ⟨_, _, rfl, hget "first" [0, 1, 3] (by decide) (by decide), hslots,
    hblocks.trans (by decide), rfl, hskip _ rfl⟩

end DelegationStrategy.Collect
