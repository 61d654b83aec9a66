import DelegationStrategy.Lib.Entries
import DelegationStrategy.Lib.Pages
import DelegationStrategy.Lib.Replay
import DelegationStrategy.Store.Histories
import Mathlib.Data.Prod.Lex

/-!
# The report of commission changes

`handler` (`api/src/handlers/reports_commission_changes.rs`) sorts the commission records of
each vote account of the cache, scans them for changes, and sorts the changes of all vote
accounts. Both sorts are stable and by `(epoch, epoch_slot)`, where records may tie.

The entries of a vote account replay its records (`Replays`, `reports_replay`): the second
sort does not reorder them, for they are in order already.
-/

namespace DelegationStrategy.Api

open DelegationStrategy.Lib DelegationStrategy.Store

structure CommissionChange where
  voteAccount : String
  from_ : UInt8
  to_ : UInt8
  epoch : Nat
  epochSlot : Nat
  deriving DecidableEq, Repr

/-! ## The handler -/

/-- The comparison of the first `sort_by`. -/
def recordOrder (record : CommissionRecord) : Lex (Nat × Nat) :=
  toLex (record.epoch, record.epochSlot)

/-- The comparison of the second `sort_by`. -/
def changeOrder (change : CommissionChange) : Lex (Nat × Nat) :=
  toLex (change.epoch, change.epochSlot)

/-- One turn of the inner loop on `previous_commission` and `commission_changes`. -/
def pushChange (voteAccount : String) (state : Option UInt8 × List CommissionChange)
    (record : CommissionRecord) : Option UInt8 × List CommissionChange :=
  match state.1 with
  | some previousCommission =>
    if record.commission ≠ previousCommission then
      (some record.commission, state.2 ++ [{
        voteAccount := voteAccount
        from_ := previousCommission
        to_ := record.commission
        epoch := record.epoch
        epochSlot := record.epochSlot }])
    else (some record.commission, state.2)
  | none => (some record.commission, state.2)

/-- One turn of the outer loop. -/
def pushChanges (commissionChanges : List CommissionChange)
    (e : String × List CommissionRecord) : List CommissionChange :=
  ((sortBy recordOrder e.2).foldl (pushChange e.1) (none, commissionChanges)).2

/-- `handler`, on the cached commissions. -/
def reportsCommissionChanges (scan : Scan) (commissions : Dict String (List CommissionRecord)) :
    List CommissionChange :=
  sortBy changeOrder ((scan.order commissions.entries).foldl pushChanges [])

/-! ## The loops -/

/-- The entry for a change of the commission. -/
def commissionChange (voteAccount : String) (c : UInt8 × CommissionRecord) : CommissionChange where
  voteAccount := voteAccount
  from_ := c.1
  to_ := c.2.commission
  epoch := c.2.epoch
  epochSlot := c.2.epochSlot

/-- The entries of a vote account. -/
def changesOf (voteAccount : String) (records : List CommissionRecord) : List CommissionChange :=
  (changes CommissionRecord.commission (sortBy recordOrder records)).map
    (commissionChange voteAccount)

theorem foldl_pushChange_some (voteAccount : String) (previousCommission : UInt8)
    (pushed : List CommissionChange) (records : List CommissionRecord) :
    (records.foldl (pushChange voteAccount) (some previousCommission, pushed)).2 =
      pushed ++ (changesFrom CommissionRecord.commission previousCommission records).map
        (commissionChange voteAccount) := by
  induction records generalizing previousCommission pushed with
  | nil => exact (List.append_nil _).symm
  | cons record records ih =>
    rw [List.foldl_cons]
    by_cases h : record.commission = previousCommission
    · subst h
      have hstep : pushChange voteAccount (some record.commission, pushed) record =
          (some record.commission, pushed) := if_neg fun hne => hne rfl
      rw [hstep, ih, changesFrom_cons_self]
    · have hstep : pushChange voteAccount (some previousCommission, pushed) record =
          (some record.commission,
            pushed ++ [commissionChange voteAccount (previousCommission, record)]) := if_pos h
      rw [hstep, ih, changesFrom_cons_of_ne h, List.map_cons, List.append_assoc]
      rfl

theorem pushChanges_eq (pushed : List CommissionChange) (e : String × List CommissionRecord) :
    pushChanges pushed e = pushed ++ changesOf e.1 e.2 := by
  unfold pushChanges changesOf
  cases sortBy recordOrder e.2 with
  | nil => exact (List.append_nil _).symm
  | cons record records => exact foldl_pushChange_some e.1 record.commission pushed records

theorem foldl_pushChanges (pushed : List CommissionChange)
    (entries : List (String × List CommissionRecord)) :
    entries.foldl pushChanges pushed = pushed ++ entries.flatMap fun e => changesOf e.1 e.2 := by
  induction entries generalizing pushed with
  | nil => exact (List.append_nil _).symm
  | cons e entries ih =>
    rw [List.foldl_cons, ih, pushChanges_eq, List.flatMap_cons, List.append_assoc]

/-! ## The entries of a vote account -/

theorem filter_changesOf (voteAccount voteAccount' : String) (records : List CommissionRecord) :
    (changesOf voteAccount records).filter (fun change => change.voteAccount = voteAccount') =
      if voteAccount = voteAccount' then changesOf voteAccount records else [] := by
  unfold changesOf
  rw [List.filter_map]
  split
  · rename_i h
    rw [List.filter_eq_self.mpr fun c _ => by simp [commissionChange, h]]
  · rename_i h
    rw [List.filter_eq_nil_iff.mpr fun c _ => by simp [commissionChange, h], List.map_nil]

/-- The loops push the entries of each vote account of the cache. -/
theorem filter_foldl_pushChanges (scan : Scan)
    (commissions : Dict String (List CommissionRecord)) (voteAccount : String) :
    ((scan.order commissions.entries).foldl pushChanges []).filter
        (fun change => change.voteAccount = voteAccount) =
      changesOf voteAccount ((commissions.get? voteAccount).getD []) := by
  rw [foldl_pushChanges, List.nil_append, List.filter_flatMap]
  simp only [filter_changesOf]
  rw [flatMap_entries scan commissions voteAccount fun e => changesOf e.1 e.2]
  cases commissions.get? voteAccount with
  | none => rfl
  | some records => rfl

/-- The entries of a vote account are in order before the second sort. -/
theorem pairwise_changesOf (voteAccount : String) (records : List CommissionRecord) :
    (changesOf voteAccount records).Pairwise fun c c' => changeOrder c ≤ changeOrder c' := by
  unfold changesOf
  rw [List.pairwise_map]
  have hsorted := pairwise_sortBy recordOrder records
  cases hrecords : sortBy recordOrder records with
  | nil => exact List.Pairwise.nil
  | cons record rest =>
    rw [hrecords, List.pairwise_cons] at hsorted
    have hchanged := hsorted.2.sublist
      (changesFrom_sublist CommissionRecord.commission record.commission rest)
    rw [List.pairwise_map] at hchanged
    exact hchanged

/-- The second sort keeps the order of the entries of each vote account. -/
theorem filter_reportsCommissionChanges (scan : Scan)
    (commissions : Dict String (List CommissionRecord)) (voteAccount : String) :
    (reportsCommissionChanges scan commissions).filter
        (fun change => change.voteAccount = voteAccount) =
      changesOf voteAccount ((commissions.get? voteAccount).getD []) := by
  have hpushed := filter_foldl_pushChanges scan commissions voteAccount
  unfold reportsCommissionChanges
  rw [filter_sortBy_of_pairwise, hpushed]
  rw [hpushed]
  exact pairwise_changesOf voteAccount _

/-! ## Replay -/

/-- The entries lead from the first to the last commission of the records, change by change. -/
structure Replays (sorted : List CommissionRecord) (entries : List CommissionChange) : Prop where
  differ : ∀ change ∈ entries, change.from_ ≠ change.to_
  linked : entries.IsChain fun change next => next.from_ = change.to_
  starts : ∀ change ∈ entries.head?,
    sorted.head?.map CommissionRecord.commission = some change.from_
  ends : ∀ change ∈ entries.getLast?,
    sorted.getLast?.map CommissionRecord.commission = some change.to_
  collapsed : (sorted.map CommissionRecord.commission).destutter (· ≠ ·) =
    (sorted.head?.map CommissionRecord.commission).toList ++ entries.map CommissionChange.to_
  recorded : (entries.map fun change => (change.to_, change.epoch, change.epochSlot)).Sublist
    (sorted.map fun record => (record.commission, record.epoch, record.epochSlot))

theorem replays_changes (voteAccount : String) (sorted : List CommissionRecord) :
    Replays sorted ((changes CommissionRecord.commission sorted).map
      (commissionChange voteAccount)) where
  differ change hchange := by
    obtain ⟨c, hc, rfl⟩ := List.mem_map.mp hchange
    cases sorted with
    | nil => cases hc
    | cons record rest => exact changesFrom_ne _ _ _ c hc
  linked := by
    cases sorted with
    | nil => exact List.IsChain.nil
    | cons record rest =>
      rw [List.isChain_map]
      exact isChain_changesFrom CommissionRecord.commission record.commission rest
  starts change hchange := by
    rw [List.head?_map] at hchange
    obtain ⟨c, hc, rfl⟩ := Option.map_eq_some_iff.mp hchange
    cases sorted with
    | nil => cases hc
    | cons record rest => exact congrArg some (head?_changesFrom _ _ _ c hc).symm
  ends change hchange := by
    rw [List.getLast?_map] at hchange
    obtain ⟨c, hc, rfl⟩ := Option.map_eq_some_iff.mp hchange
    cases sorted with
    | nil => cases hc
    | cons record rest =>
      have hlast := getLast?_changesFrom CommissionRecord.commission
        record.commission rest
      rw [show (changesFrom CommissionRecord.commission record.commission rest).getLast? =
        some c from hc] at hlast
      rw [List.getLast?_cons, Option.map_some, ← Option.getD_map CommissionRecord.commission]
      exact congrArg some hlast.symm
  collapsed := by
    rw [destutter_map_eq, List.map_map]
    rfl
  recorded := by
    cases sorted with
    | nil => exact List.Sublist.slnil
    | cons record rest =>
      have hsub := (changesFrom_sublist CommissionRecord.commission
        record.commission rest).map fun record =>
          (record.commission, record.epoch, record.epochSlot)
      rw [List.map_map] at hsub ⊢
      exact hsub.cons _

/-- **The report** of any cache has for each vote account a replay of its records in order,
and is itself in order. -/
theorem reports_replay (scan : Scan) (commissions : Dict String (List CommissionRecord)) :
    (∀ voteAccount, ∃ sorted,
      StableSort recordOrder ((commissions.get? voteAccount).getD []) sorted ∧
        Replays sorted ((reportsCommissionChanges scan commissions).filter fun change =>
          change.voteAccount = voteAccount)) ∧
      (reportsCommissionChanges scan commissions).Pairwise fun change next =>
        changeOrder change ≤ changeOrder next := by
  refine ⟨fun voteAccount => ⟨_, stableSort_sortBy recordOrder _, ?_⟩, pairwise_sortBy _ _⟩
  rw [filter_reportsCommissionChanges]
  exact replays_changes voteAccount _

end DelegationStrategy.Api
