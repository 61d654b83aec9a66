import DelegationStrategy.Collect.Snapshot
import DelegationStrategy.Lib.Query
import Mathlib.Algebra.Ring.Int.Defs
import Mathlib.Algebra.Order.Ring.Int
import Mathlib.Data.List.Dedup
import Mathlib.Data.List.Sort

/-!
# The collector of PSR settlements

`collect_validator_events_info` (`collect/src/validators_events.rs`) asks BigQuery for the sums
of the settlements from an epoch on, by epoch, vote account, reason and meta. The epoch is
`--from-epoch`, or `--epochs-back` epochs before the current one.

A row of the result that does not decode fails the whole collection. Otherwise the events are
the settled amounts of the window and nothing else (`mem_queryValidatorSettlements`), one for
each key (`distinctKeys_queryValidatorSettlements`).
-/

namespace DelegationStrategy.Collect

open DelegationStrategy.Lib

/-! ## The query -/

/-- A row of `psr_settlements`. -/
structure PsrSettlementsRow where
  epoch : Nat
  voteAccount : Option String
  reason : Option String
  /-- The column `meta`. -/
  meta_ : Option String
  amount : Option Int
  deriving DecidableEq, Repr

/-- A group of the query; `vote_account` is not `NULL`. -/
structure SettlementGroup where
  epoch : Nat
  voteAccount : String
  reason : Option String
  meta_ : Option String
  deriving DecidableEq, Repr

def PsrSettlementsRow.group (row : PsrSettlementsRow) : Option SettlementGroup :=
  row.voteAccount.map fun voteAccount => ⟨row.epoch, voteAccount, row.reason, row.meta_⟩

/-- `WHERE epoch >= {from_epoch} AND vote_account IS NOT NULL`. -/
def windowGroups (fromEpoch : Nat) (table : List PsrSettlementsRow) : List SettlementGroup :=
  ((table.filter fun row => fromEpoch ≤ row.epoch).filterMap PsrSettlementsRow.group).dedup

/-- `SUM(amount)` of a group; `NULL` if there are no amounts. -/
def sumAmount (table : List PsrSettlementsRow) (g : SettlementGroup) : Option Int :=
  match (table.filter fun row => row.group = some g).filterMap PsrSettlementsRow.amount with
  | [] => none
  | amounts => some amounts.sum

/-- `CAST(… AS INT64)`. -/
def castInt64 (amount : Int) : Option Int :=
  if -2 ^ 63 ≤ amount ∧ amount < 2 ^ 63 then some amount else none

/-- A row of the result; `none` if the query fails on it or a column does not decode. -/
def validatorSettlement (table : List PsrSettlementsRow) (g : SettlementGroup) :
    Option ValidatorSettlement := do
  let reason ← g.reason
  let meta_ ← g.meta_
  let sum ← sumAmount table g
  let amount ← castInt64 sum
  some { epoch := g.epoch, voteAccount := g.voteAccount, reason := reason, meta_ := meta_,
         amount := amount }

/-- `query_validator_settlements`, `ORDER BY epoch DESC`. -/
def queryValidatorSettlements (scan : Scan) (fromEpoch : Nat)
    (table : List PsrSettlementsRow) : Option (List ValidatorSettlement) :=
  ((scan.order (windowGroups fromEpoch table)).insertionSort fun g g' =>
    g'.epoch ≤ g.epoch).mapM (validatorSettlement table)

/-! ## The command -/

/-- `EventsParams`, as far as they choose the window. -/
structure EventsParams where
  epochsBack : Nat
  fromEpoch : Option Nat
  deriving DecidableEq, Repr

/-- The defaults of the command line. -/
def EventsParams.default : EventsParams where
  epochsBack := 10
  fromEpoch := none

/-- The variable `from_epoch`. -/
def EventsParams.windowStart (params : EventsParams) (currentEpoch : Nat) : Nat :=
  params.fromEpoch.getD (currentEpoch - params.epochsBack)

/-- `collect_validator_events_info`; `none` if it fails and prints no snapshot. -/
def collectValidatorEventsInfo (scan : Scan) (params : EventsParams) (currentEpoch : Nat)
    (createdAt : Timestamp) (table : List PsrSettlementsRow) : Option ValidatorsEventsSnapshot :=
  (queryValidatorSettlements scan (params.windowStart currentEpoch) table).map fun events =>
    { createdAt := createdAt, events := events }

/-! ## What is settled -/

def SettlementKey.group (k : SettlementKey) : SettlementGroup :=
  ⟨k.epoch, k.voteAccount, some k.reason, some k.meta_⟩

/-- What is settled for a key, if anything is. -/
def settledAmount (table : List PsrSettlementsRow) (k : SettlementKey) : Option Int :=
  sumAmount table k.group

section Query

variable {scan : Scan} {fromEpoch : Nat} {table : List PsrSettlementsRow}
  {events : List ValidatorSettlement}

theorem SettlementKey.group_injective : Function.Injective SettlementKey.group := by
  rintro ⟨epoch, voteAccount, reason, meta_⟩ ⟨epoch', voteAccount', reason', meta_'⟩ h
  simp only [SettlementKey.group, SettlementGroup.mk.injEq, Option.some.injEq] at h
  obtain ⟨rfl, rfl, rfl, rfl⟩ := h
  rfl

theorem group_eq_some {row : PsrSettlementsRow} {g : SettlementGroup}
    (h : row.group = some g) : row.epoch = g.epoch := by
  obtain ⟨voteAccount, -, rfl⟩ := Option.map_eq_some_iff.mp h
  rfl

theorem mem_windowGroups {g : SettlementGroup} :
    g ∈ windowGroups fromEpoch table ↔
      fromEpoch ≤ g.epoch ∧ ∃ row ∈ table, row.group = some g := by
  unfold windowGroups
  rw [List.mem_dedup, List.mem_filterMap]
  constructor
  · rintro ⟨row, hrow, hg⟩
    obtain ⟨hmem, hepoch⟩ := List.mem_filter.mp hrow
    have hfrom : fromEpoch ≤ row.epoch := by simpa using hepoch
    exact ⟨group_eq_some hg ▸ hfrom, row, hmem, hg⟩
  · rintro ⟨hfrom, row, hmem, hg⟩
    refine ⟨row, List.mem_filter.mpr ⟨hmem, ?_⟩, hg⟩
    rw [group_eq_some hg]
    simpa using hfrom

/-- A sum is of rows with amounts. -/
theorem isSome_sumAmount {g : SettlementGroup} : (sumAmount table g).isSome ↔
    ∃ row ∈ table, row.group = some g ∧ row.amount.isSome := by
  unfold sumAmount
  constructor
  · intro h
    cases hamounts : (table.filter fun row => row.group = some g).filterMap
        PsrSettlementsRow.amount with
    | nil =>
      rw [hamounts] at h
      cases h
    | cons amount amounts =>
      have hmem : amount ∈ (table.filter fun row => row.group = some g).filterMap
          PsrSettlementsRow.amount := hamounts ▸ List.mem_cons_self
      obtain ⟨row, hrow, hamount⟩ := List.mem_filterMap.mp hmem
      obtain ⟨hrow, hg⟩ := List.mem_filter.mp hrow
      exact ⟨row, hrow, by simpa using hg, by rw [hamount]; rfl⟩
  · rintro ⟨row, hrow, hg, hamount⟩
    obtain ⟨amount, hamount⟩ := Option.isSome_iff_exists.mp hamount
    have hmem : amount ∈ (table.filter fun row => row.group = some g).filterMap
        PsrSettlementsRow.amount :=
      List.mem_filterMap.mpr ⟨row, List.mem_filter.mpr ⟨hrow, by simpa using hg⟩, hamount⟩
    cases hamounts : (table.filter fun row => row.group = some g).filterMap
        PsrSettlementsRow.amount with
    | nil =>
      rw [hamounts] at hmem
      cases hmem
    | cons amount amounts => rfl

/-- What is settled stays settled, with more rows or without. -/
theorem isSome_settledAmount {seen : List PsrSettlementsRow} (hseen : seen <+: table)
    {k : SettlementKey} (h : (settledAmount seen k).isSome) : (settledAmount table k).isSome := by
  obtain ⟨row, hrow, hg, hamount⟩ := isSome_sumAmount.mp h
  exact isSome_sumAmount.mpr ⟨row, hseen.subset hrow, hg, hamount⟩

/-- The fields of a row of the result. -/
theorem validatorSettlement_eq_some {g : SettlementGroup} {e : ValidatorSettlement}
    (h : validatorSettlement table g = some e) :
    e.toSettlementKey.group = g ∧ settledAmount table e.toSettlementKey = some e.amount := by
  obtain ⟨reason, hreason, h⟩ := Option.bind_eq_some_iff.mp h
  obtain ⟨meta_, hmeta, h⟩ := Option.bind_eq_some_iff.mp h
  obtain ⟨sum, hsum, h⟩ := Option.bind_eq_some_iff.mp h
  obtain ⟨amount, hamount, h⟩ := Option.bind_eq_some_iff.mp h
  obtain rfl := Option.some.inj h
  obtain ⟨epoch, voteAccount, reason', meta_'⟩ := g
  obtain rfl : reason' = some reason := hreason
  obtain rfl : meta_' = some meta_ := hmeta
  have hcast : sum = amount := by
    unfold castInt64 at hamount
    split at hamount
    · exact Option.some.inj hamount
    · cases hamount
  exact ⟨rfl, hcast ▸ hsum⟩

/-- The groups of the events are those of the window. -/
theorem groups_queryValidatorSettlements
    (h : queryValidatorSettlements scan fromEpoch table = some events) :
    (events.map fun e => e.toSettlementKey.group).Perm (windowGroups fromEpoch table) := by
  have hgroups : (events.map fun e : ValidatorSettlement => e.toSettlementKey.group) =
      List.map id _ := map_mapM (fun g e hg => (validatorSettlement_eq_some hg).1) h
  rw [List.map_id] at hgroups
  rw [hgroups]
  exact (List.perm_insertionSort _ _).trans (scan.perm _)

/-- **One event for each key.** -/
theorem distinctKeys_queryValidatorSettlements
    (h : queryValidatorSettlements scan fromEpoch table = some events) :
    (events.map ValidatorSettlement.toSettlementKey).Nodup := by
  have hnd := (groups_queryValidatorSettlements h).nodup_iff.mpr (List.nodup_dedup _)
  rw [show (fun e : ValidatorSettlement => e.toSettlementKey.group) =
    SettlementKey.group ∘ ValidatorSettlement.toSettlementKey from rfl, ← List.map_map] at hnd
  exact List.Nodup.of_map _ hnd

/-- **The events** are the settled amounts of the window. -/
theorem mem_queryValidatorSettlements
    (h : queryValidatorSettlements scan fromEpoch table = some events)
    {e : ValidatorSettlement} :
    e ∈ events ↔ fromEpoch ≤ e.epoch ∧
      settledAmount table e.toSettlementKey = some e.amount := by
  constructor
  · intro he
    obtain ⟨g, hg, hrow⟩ := (mem_mapM h).mp he
    obtain ⟨hgroup, hamount⟩ := validatorSettlement_eq_some hrow
    rw [List.mem_insertionSort, scan.mem_order, mem_windowGroups, ← hgroup] at hg
    exact ⟨hg.1, hamount⟩
  · rintro ⟨hfrom, hamount⟩
    obtain ⟨row, hrow, hrowGroup, -⟩ := isSome_sumAmount.mp (Option.isSome_of_eq_some hamount)
    have hg : e.toSettlementKey.group ∈ windowGroups fromEpoch table :=
      mem_windowGroups.mpr ⟨hfrom, row, hrow, hrowGroup⟩
    have hmem := (groups_queryValidatorSettlements h).mem_iff.mpr hg
    obtain ⟨e', he', hsame⟩ := List.mem_map.mp hmem
    have hkey := SettlementKey.group_injective hsame
    obtain ⟨g, -, hrow⟩ := (mem_mapM h).mp he'
    have hamount' := (validatorSettlement_eq_some hrow).2
    rw [hkey, hamount] at hamount'
    obtain ⟨key, amount⟩ := e
    obtain ⟨key', amount'⟩ := e'
    obtain rfl : key' = key := hkey
    obtain rfl : amount = amount' := Option.some.inj hamount'
    exact he'

end Query

end DelegationStrategy.Collect
