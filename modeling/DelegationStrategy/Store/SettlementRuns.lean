import DelegationStrategy.Collect.Settlements
import DelegationStrategy.Lib.Trace
import DelegationStrategy.Store.Events

/-!
# Settlements on their way to `validators_events`

Settlements are added to BigQuery, where no row is changed or deleted; a collector run writes
what is settled in its window to a snapshot; `store_events` stores a snapshot, by runs that may
be interrupted. The three go on side by side, and a snapshot may be stored late, twice, or after
a newer one.

- `settlements_reconciled`: a stored amount is always what was settled for its key in a state
  of the run; and after a complete run on a snapshot of all that is settled, the table agrees with
  BigQuery on every key of the window.
- `settlements_window`: what lies before all windows is never touched again, whatever is still
  settled there.
-/

namespace DelegationStrategy.Store

open DelegationStrategy.Lib DelegationStrategy.Collect

/-! ## The pipeline -/

structure SettlementsState where
  /-- The table `psr_settlements`, which only grows. -/
  settlements : List PsrSettlementsRow
  /-- What this table has held before. Nobody reads it. -/
  older : List (List PsrSettlementsRow)
  /-- The snapshots that collectors have printed. -/
  snapshots : List ValidatorsEventsSnapshot
  events : EventsTable

inductive SettlementsStep where
  | settle (rows : List PsrSettlementsRow)
  | collect (scan : Scan) (params : EventsParams) (currentEpoch : Nat) (createdAt : Timestamp)
  | store (n : Nat) (fault : Nat → Option DbError)
  /-- A snapshot is thrown away. -/
  | discard (n : Nat)

def settlementsStep (s : SettlementsState) : SettlementsStep → Option SettlementsState
  | .settle rows =>
    some { s with settlements := s.settlements ++ rows, older := s.older ++ [s.settlements] }
  | .collect scan params currentEpoch createdAt =>
    match collectValidatorEventsInfo scan params currentEpoch createdAt s.settlements with
    | some snapshot => some { s with snapshots := s.snapshots ++ [snapshot] }
    | none => some s
  | .store n fault =>
    s.snapshots[n]?.map fun snapshot =>
      { s with events := (storeEvents fault snapshot s.events).1 }
  | .discard n => some { s with snapshots := s.snapshots.eraseIdx n }

/-- Nothing is settled yet. -/
def SettlementsState.init : SettlementsState where
  settlements := []
  older := []
  snapshots := []
  events := .empty

/-! ## The invariant -/

/-- What the table has held in the states of the run. -/
def SettlementsState.held (s : SettlementsState) : List (List PsrSettlementsRow) :=
  s.older ++ [s.settlements]

/-- The amount was settled for the key in one of the states. -/
def WasSettled (held : List (List PsrSettlementsRow)) (k : SettlementKey) (amount : Rat) : Prop :=
  ∃ seen ∈ held, ∃ settled : Int, settledAmount seen k = some settled ∧ amount = settled

structure SettlementsInv (s : SettlementsState) : Prop where
  grows : ∀ seen ∈ s.held, seen <+: s.settlements
  distinct : ∀ snapshot ∈ s.snapshots, snapshot.DistinctKeys
  snapshots : ∀ snapshot ∈ s.snapshots, ∀ e ∈ snapshot.events,
    WasSettled s.held e.toSettlementKey e.amount
  rows : ∀ row ∈ s.events.rows, WasSettled s.held row.toSettlementKey row.amount

section Steps

variable {s s' : SettlementsState}

theorem WasSettled.mono {held more : List (List PsrSettlementsRow)} {k : SettlementKey}
    {amount : Rat} (h : WasSettled held k amount) : WasSettled (held ++ more) k amount := by
  obtain ⟨seen, hseen, settled⟩ := h
  exact ⟨seen, List.mem_append_left _ hseen, settled⟩

/-- What a run of the command leaves of a row: its amount, or that of a settlement. -/
theorem amount_storeEvents {fault : Nat → Option DbError} {snapshot : ValidatorsEventsSnapshot}
    (hnd : snapshot.DistinctKeys) {table : EventsTable} {row : EventsRow}
    (hrow : row ∈ (storeEvents fault snapshot table).1.rows) :
    (∃ old ∈ table.rows, old.toSettlementKey = row.toSettlementKey ∧ old.amount = row.amount) ∨
      ∃ e ∈ snapshot.events, e.toSettlementKey = row.toSettlementKey ∧ row.amount = e.amount := by
  obtain ⟨k, hleft, -⟩ := storeEvents_spec fault hnd table
  have hpart : ((snapshot.events.take (DEFAULT_CHUNK_SIZE * k)).map
      ValidatorSettlement.toSettlementKey).Nodup :=
    hnd.sublist ((List.take_sublist _ _).map _)
  have hledger := congrFun (ledger_recordAll snapshot.createdAt hpart table) row.toSettlementKey
  rw [← hleft] at hledger
  have hfound := (mem_iff_rowOf (EventsTable.unique _)).mp hrow
  unfold EventsTable.ledger Ledger.record at hledger
  rw [hfound] at hledger
  unfold amounts at hledger
  cases he : rowOf ValidatorSettlement.toSettlementKey
      (snapshot.events.take (DEFAULT_CHUNK_SIZE * k)) row.toSettlementKey with
  | none =>
    rw [he] at hledger
    obtain ⟨old, hold, hentry⟩ := Option.map_eq_some_iff.mp hledger.symm
    obtain ⟨hmem, hkey⟩ := mem_of_rowOf hold
    exact Or.inl ⟨old, hmem, hkey, congrArg LedgerEntry.amount hentry⟩
  | some e =>
    rw [he] at hledger
    obtain ⟨hmem, hkey⟩ := mem_of_rowOf he
    have hentry := Option.some.inj hledger
    exact Or.inr ⟨e, List.mem_of_mem_take hmem, hkey, congrArg LedgerEntry.amount hentry⟩

theorem settlementsInv_step {a : SettlementsStep} (hinv : SettlementsInv s)
    (h : settlementsStep s a = some s') : SettlementsInv s' := by
  cases a with
  | settle rows =>
    obtain rfl := Option.some.inj h
    refine ⟨fun seen hseen => ?_, hinv.distinct,
      fun snapshot hs e he => (hinv.snapshots snapshot hs e he).mono,
      fun row hrow => (hinv.rows row hrow).mono⟩
    rcases List.mem_append.mp hseen with hseen | hseen
    · exact (hinv.grows seen hseen).trans (List.prefix_append _ _)
    · rw [List.mem_singleton.mp hseen]
  | collect scan params currentEpoch createdAt =>
    unfold settlementsStep at h
    dsimp only at h
    cases hcollect : collectValidatorEventsInfo scan params currentEpoch createdAt
        s.settlements with
    | none =>
      rw [hcollect] at h
      obtain rfl := Option.some.inj h
      exact hinv
    | some snapshot =>
      rw [hcollect] at h
      obtain rfl := Option.some.inj h
      obtain ⟨events, hevents, rfl⟩ := Option.map_eq_some_iff.mp hcollect
      refine ⟨hinv.grows, fun snapshot hs => ?_, fun snapshot hs e he => ?_, hinv.rows⟩
      · rcases List.mem_append.mp hs with hs | hs
        · exact hinv.distinct snapshot hs
        · obtain rfl := List.mem_singleton.mp hs
          exact distinctKeys_queryValidatorSettlements hevents
      · rcases List.mem_append.mp hs with hs | hs
        · exact hinv.snapshots snapshot hs e he
        · obtain rfl := List.mem_singleton.mp hs
          exact ⟨s.settlements, List.mem_append_right _ List.mem_cons_self, e.amount,
            ((mem_queryValidatorSettlements hevents).mp he).2, rfl⟩
  | store n fault =>
    obtain ⟨snapshot, hn, rfl⟩ := Option.map_eq_some_iff.mp h
    have hsnapshot := List.mem_of_getElem? hn
    refine ⟨hinv.grows, hinv.distinct, hinv.snapshots, fun row hrow => ?_⟩
    rcases amount_storeEvents (hinv.distinct snapshot hsnapshot) hrow with
      ⟨old, hold, hkey, hamount⟩ | ⟨e, he, hkey, hamount⟩
    · rw [← hkey, ← hamount]
      exact hinv.rows old hold
    · rw [← hkey, hamount]
      exact hinv.snapshots snapshot hsnapshot e he
  | discard n =>
    obtain rfl := Option.some.inj h
    exact ⟨hinv.grows, fun snapshot hs => hinv.distinct snapshot (List.mem_of_mem_eraseIdx hs),
      fun snapshot hs => hinv.snapshots snapshot (List.mem_of_mem_eraseIdx hs), hinv.rows⟩

theorem statesAll_settlementsInv (steps : List SettlementsStep) :
    StatesAll settlementsStep SettlementsInv .init steps := by
  have hinit : SettlementsInv .init :=
    ⟨fun _ hseen => List.mem_singleton.mp hseen ▸ List.prefix_refl _,
      fun _ hs => (nomatch hs), fun _ hs => (nomatch hs), fun _ hrow => (nomatch hrow)⟩
  exact statesAll_of_invariant (fun _ _ _ hinv h => settlementsInv_step hinv h) hinit steps

/-! ## A complete run -/

/-- **A complete run** on a snapshot of all that is settled. -/
theorem ledger_eq_settledAmount (hinv : SettlementsInv s) {scan : Scan} {params : EventsParams}
    {currentEpoch : Nat} {createdAt : Timestamp} {snapshot : ValidatorsEventsSnapshot}
    {fault : Nat → Option DbError}
    (hcollect : collectValidatorEventsInfo scan params currentEpoch createdAt s.settlements =
      some snapshot) (hok : (storeEvents fault snapshot s.events).2 = .ok ())
    {k : SettlementKey} (hk : params.windowStart currentEpoch ≤ k.epoch) :
    ((storeEvents fault snapshot s.events).1.ledger k).map LedgerEntry.amount =
      (settledAmount s.settlements k).map fun amount : Int => (amount : Rat) := by
  obtain ⟨events, hevents, rfl⟩ := Option.map_eq_some_iff.mp hcollect
  have hnd : ValidatorsEventsSnapshot.DistinctKeys ⟨createdAt, events⟩ :=
    distinctKeys_queryValidatorSettlements hevents
  cases hsettled : settledAmount s.settlements k with
  | some amount =>
    have he : (⟨k, amount⟩ : ValidatorSettlement) ∈ events :=
      (mem_queryValidatorSettlements hevents).mpr ⟨hk, hsettled⟩
    exact holds_of_complete hnd hok he
  | none =>
    -- no event has the key, and no row can have it
    have hnone : amounts events k = none := by
      rw [amounts_eq_none_iff]
      intro hmem
      obtain ⟨e, he, rfl⟩ := List.mem_map.mp hmem
      have hsome := ((mem_queryValidatorSettlements hevents).mp he).2
      rw [hsettled] at hsome
      cases hsome
    have hrow : rowOf EventsRow.toSettlementKey s.events.rows k = none := by
      rw [rowOf_eq_none_iff]
      intro hmem
      obtain ⟨row, hrow, rfl⟩ := List.mem_map.mp hmem
      obtain ⟨seen, hseen, amount, hamount, -⟩ := hinv.rows row hrow
      have hsome := isSome_settledAmount (hinv.grows seen hseen)
        (Option.isSome_of_eq_some hamount)
      rw [hsettled] at hsome
      cases hsome
    obtain ⟨j, hleft, hall⟩ := storeEvents_spec fault hnd s.events
    rw [hleft, hall hok, ledger_recordAll _ hnd]
    unfold Ledger.record EventsTable.ledger
    rw [hnone, hrow]
    rfl

/-! ## Before all windows -/

/-- The collectors of a run ask for nothing before an epoch. -/
def WindowFrom (first : Nat) : SettlementsStep → Prop
  | .collect _ params currentEpoch _ => first ≤ params.windowStart currentEpoch
  | _ => True

/-- Nothing before an epoch is left to be stored, and the rows there are those of a table. -/
structure BeforeWindow (first : Nat) (table : EventsTable) (s : SettlementsState) : Prop where
  distinct : ∀ snapshot ∈ s.snapshots, snapshot.DistinctKeys
  snapshots : ∀ snapshot ∈ s.snapshots, ∀ e ∈ snapshot.events, first ≤ e.epoch
  rows : ∀ k : SettlementKey, k.epoch < first →
    rowOf EventsRow.toSettlementKey s.events.rows k =
      rowOf EventsRow.toSettlementKey table.rows k

theorem beforeWindow_step {first : Nat} {table : EventsTable} {a : SettlementsStep}
    (hinv : BeforeWindow first table s) (hwindow : WindowFrom first a)
    (h : settlementsStep s a = some s') : BeforeWindow first table s' := by
  cases a with
  | settle rows =>
    obtain rfl := Option.some.inj h
    exact ⟨hinv.distinct, hinv.snapshots, hinv.rows⟩
  | collect scan params currentEpoch createdAt =>
    unfold settlementsStep at h
    dsimp only at h
    cases hcollect : collectValidatorEventsInfo scan params currentEpoch createdAt
        s.settlements with
    | none =>
      rw [hcollect] at h
      obtain rfl := Option.some.inj h
      exact hinv
    | some snapshot =>
      rw [hcollect] at h
      obtain rfl := Option.some.inj h
      obtain ⟨events, hevents, rfl⟩ := Option.map_eq_some_iff.mp hcollect
      refine ⟨fun snapshot hs => ?_, fun snapshot hs e he => ?_, hinv.rows⟩
      · rcases List.mem_append.mp hs with hs | hs
        · exact hinv.distinct snapshot hs
        · obtain rfl := List.mem_singleton.mp hs
          exact distinctKeys_queryValidatorSettlements hevents
      · rcases List.mem_append.mp hs with hs | hs
        · exact hinv.snapshots snapshot hs e he
        · obtain rfl := List.mem_singleton.mp hs
          exact hwindow.trans ((mem_queryValidatorSettlements hevents).mp he).1
  | store n fault =>
    obtain ⟨snapshot, hn, rfl⟩ := Option.map_eq_some_iff.mp h
    have hsnapshot := List.mem_of_getElem? hn
    refine ⟨hinv.distinct, hinv.snapshots, fun k hk => ?_⟩
    obtain ⟨j, hleft, -⟩ := storeEvents_spec fault (hinv.distinct snapshot hsnapshot) s.events
    show rowOf EventsRow.toSettlementKey (storeEvents fault snapshot s.events).1.rows k = _
    rw [hleft, rowOf_recordAll_of_not_mem _ (fun hmem => ?_)]
    · exact hinv.rows k hk
    · obtain ⟨e, he, rfl⟩ := List.mem_map.mp hmem
      have hfirst := hinv.snapshots snapshot hsnapshot e (List.mem_of_mem_take he)
      exact absurd hk (not_lt.mpr hfirst)
  | discard n =>
    obtain rfl := Option.some.inj h
    exact ⟨fun snapshot hs => hinv.distinct snapshot (List.mem_of_mem_eraseIdx hs),
      fun snapshot hs => hinv.snapshots snapshot (List.mem_of_mem_eraseIdx hs), hinv.rows⟩

end Steps

/-- **Stored settlements are settled**: in every run each stored amount is what was settled for
its key in a state of the run, however late, often or partially snapshots are stored; and a complete
run of `store_events` on a snapshot of all that is settled makes the table agree with BigQuery
on every key of the window. -/
theorem settlements_reconciled (steps : List SettlementsStep) :
    StatesAll settlementsStep (fun s =>
      (∀ row ∈ s.events.rows, WasSettled s.held row.toSettlementKey row.amount) ∧
      ∀ scan params currentEpoch createdAt snapshot fault,
        collectValidatorEventsInfo scan params currentEpoch createdAt s.settlements =
          some snapshot →
        (storeEvents fault snapshot s.events).2 = .ok () →
          ∀ k : SettlementKey, params.windowStart currentEpoch ≤ k.epoch →
            ((storeEvents fault snapshot s.events).1.ledger k).map LedgerEntry.amount =
              (settledAmount s.settlements k).map fun amount : Int => (amount : Rat))
      .init steps :=
  (statesAll_settlementsInv steps).mono fun _ hinv =>
    ⟨hinv.rows, fun _ _ _ _ _ _ hcollect hok _ hk => ledger_eq_settledAmount hinv hcollect hok hk⟩

/-- **Settlements that come too late** never reach the table: from a state in which no snapshot
with an earlier epoch is left, as long as no collector asks for an epoch before `first`, the
rows before `first` stay as they are, whatever is settled. -/
theorem settlements_window (earlier : List SettlementsStep) (s : SettlementsState)
    (hreached : exec settlementsStep .init earlier = some s) (first : Nat)
    (hleft : ∀ snapshot ∈ s.snapshots, ∀ e ∈ snapshot.events, first ≤ e.epoch)
    (steps : List SettlementsStep) (hwindow : ∀ a ∈ steps, WindowFrom first a) :
    StatesAll settlementsStep (fun s' => ∀ k : SettlementKey, k.epoch < first →
      rowOf EventsRow.toSettlementKey s'.events.rows k =
        rowOf EventsRow.toSettlementKey s.events.rows k) s steps := by
  have hinv := (statesAll_settlementsInv earlier).last hreached
  have hstart : BeforeWindow first s.events s := ⟨hinv.distinct, hleft, fun _ _ => rfl⟩
  have hok : StepsAll settlementsStep (fun _ a => WindowFrom first a) s steps :=
    StepsAll.of_forall fun a ha _ => hwindow a ha
  exact (statesAll_of_stepsAll (fun _ _ _ hs ha h => beforeWindow_step hs ha h) hstart hok).mono
    fun _ hs => hs.rows

/-- A settlement of epoch 700. -/
def bondsRow (amount : Int) : PsrSettlementsRow :=
  ⟨700, some "vote", some "Bidding", some "{}", some amount⟩

/-- It is collected in epoch 705 and stored. -/
def storedInTime : List SettlementsStep :=
  [.settle [bondsRow 5], .collect .sequential .default 705 10, .store 0 fun _ => none, .discard 0]

/-- Another one comes in epoch 711, and the next collector asks for epoch 702 and later. -/
def settledLate : List SettlementsStep :=
  [.settle [bondsRow 3], .collect .sequential .default 712 20, .store 0 fun _ => none]

theorem settlements_window_late : ∃ s, exec settlementsStep .init storedInTime = some s ∧
    StatesAll settlementsStep (fun s' => ∀ k : SettlementKey, k.epoch < 702 →
      rowOf EventsRow.toSettlementKey s'.events.rows k =
        rowOf EventsRow.toSettlementKey s.events.rows k) s settledLate :=
  ⟨_, rfl, settlements_window storedInTime _ rfl 702 (fun _ hs => by cases hs) settledLate
    (by simp [settledLate, WindowFrom, EventsParams.windowStart, EventsParams.default])⟩

end DelegationStrategy.Store
