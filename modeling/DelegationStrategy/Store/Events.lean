import DelegationStrategy.Collect.Snapshot
import DelegationStrategy.Lib.Autocommit
import DelegationStrategy.Lib.Sql
import DelegationStrategy.Lib.Upsert

/-!
# The `validators_events` table

`store_events` (`store/src/validators_events.rs`) upserts the settlements of a
snapshot by their key, 500 a statement, without a transaction.

- What the table says of a key is its amount and the times of its row: the
  `Ledger`. A snapshot overwrites it as a whole (`Ledger.record`), and recording a
  part of a snapshot before all of it makes no difference
  (`Ledger.record_record`). A run of the command is `record` on the ledger
  (`ledger_recordAll`), so an interrupted run is repaired by running it again.
- The ids are not part of the ledger. The sequence gives an id to every row a
  statement proposes, also to one that then updates a row that is there, so a run
  in two attempts uses up more ids than a run in one (`storeEvents_ids_differ`).
-/

namespace DelegationStrategy.Store

open DelegationStrategy.Lib DelegationStrategy.Collect

/-! ## The table -/

structure EventsRow extends SettlementKey where
  id : Nat
  amount : Rat
  createdAt : Timestamp
  updatedAt : Timestamp
  deriving DecidableEq, Repr

/-- `ON CONFLICT … DO UPDATE SET amount = EXCLUDED.amount, updated_at =
EXCLUDED.updated_at`. -/
def EventsRow.merge (row excluded : EventsRow) : EventsRow :=
  { row with amount := excluded.amount, updatedAt := excluded.updatedAt }

theorem EventsRow.merge_key (row excluded : EventsRow) :
    (row.merge excluded).toSettlementKey = row.toSettlementKey := rfl

/-- The table and the sequence of its `BIGSERIAL`, with the constraint
`UNIQUE(epoch, vote_account, reason, meta)`. -/
structure EventsTable where
  rows : List EventsRow
  nextId : Nat
  unique : (rows.map EventsRow.toSettlementKey).Nodup

def EventsTable.empty : EventsTable := ⟨[], 1, List.nodup_nil⟩

/-! ## `store_events` -/

/-- The row proposed for a settlement. -/
def eventsRow (createdAt : Timestamp) (id : Nat) (e : ValidatorSettlement) : EventsRow :=
  { e.toSettlementKey with id := id, amount := e.amount, createdAt := createdAt,
                           updatedAt := createdAt }

/-- One row of the `INSERT`; it takes an id from the sequence in any case. -/
def upsertEvent (createdAt : Timestamp) (table : EventsTable) (e : ValidatorSettlement) :
    EventsTable where
  rows := upsert EventsRow.toSettlementKey EventsRow.merge table.rows
    (eventsRow createdAt table.nextId e)
  nextId := table.nextId + 1
  unique := nodup_upsert EventsRow.merge_key table.unique _

/-- The rows of a snapshot, one after the other. -/
def recordAll (createdAt : Timestamp) (events : List ValidatorSettlement) (table : EventsTable) :
    EventsTable :=
  events.foldl (upsertEvent createdAt) table

/-- The statement for one chunk. It fails if it would affect a row twice. -/
def upsertChunk (createdAt : Timestamp) (chunk : List ValidatorSettlement) :
    Statement DbError EventsTable := fun table =>
  if (chunk.map ValidatorSettlement.toSettlementKey).Nodup then
    .ok (recordAll createdAt chunk table)
  else .error .cardinalityViolation

def DEFAULT_CHUNK_SIZE : Nat := 500

/-- What the command leaves and its result. -/
def storeEvents (fault : Nat → Option DbError) (snapshot : ValidatorsEventsSnapshot)
    (table : EventsTable) : EventsTable × Except DbError Unit :=
  autocommit fault
    ((chunks DEFAULT_CHUNK_SIZE snapshot.events).map (upsertChunk snapshot.createdAt)) table

/-! ## The ledger -/

/-- What the table says of a key. -/
structure LedgerEntry where
  amount : Rat
  createdAt : Timestamp
  updatedAt : Timestamp
  deriving DecidableEq, Repr

abbrev Ledger := SettlementKey → Option LedgerEntry

/-- Amounts overwrite the ledger at a time; a key that is new is created then. -/
def Ledger.record (t : Timestamp) (amounts : SettlementKey → Option Rat) (ledger : Ledger) :
    Ledger := fun k =>
  match amounts k with
  | none => ledger k
  | some amount => some {
      amount := amount
      createdAt := ((ledger k).map (·.createdAt)).getD t
      updatedAt := t }

/-- **Repair**: recording some of the amounts first makes no difference. -/
theorem Ledger.record_record (t : Timestamp) {part amounts : SettlementKey → Option Rat}
    (hpart : ∀ k, amounts k = none → part k = none) (ledger : Ledger) :
    Ledger.record t amounts (Ledger.record t part ledger) = Ledger.record t amounts ledger := by
  funext k
  unfold Ledger.record
  cases hall : amounts k with
  | none => simp [hpart k hall]
  | some amount =>
    cases hk : part k with
    | none => rfl
    | some first => simp

/-- The amounts of a list of settlements. -/
def amounts (events : List ValidatorSettlement) (k : SettlementKey) : Option Rat :=
  (rowOf ValidatorSettlement.toSettlementKey events k).map fun e => (e.amount : Rat)

def EventsRow.entry (row : EventsRow) : LedgerEntry where
  amount := row.amount
  createdAt := row.createdAt
  updatedAt := row.updatedAt

def EventsTable.ledger (table : EventsTable) : Ledger := fun k =>
  (rowOf EventsRow.toSettlementKey table.rows k).map EventsRow.entry

/-- The row of its own key after one row of the statement. -/
theorem rowOf_upsertEvent_self (createdAt : Timestamp) (table : EventsTable)
    (e : ValidatorSettlement) :
    rowOf EventsRow.toSettlementKey (upsertEvent createdAt table e).rows e.toSettlementKey =
      some (((rowOf EventsRow.toSettlementKey table.rows e.toSettlementKey).map fun row =>
        row.merge (eventsRow createdAt table.nextId e)).getD
          (eventsRow createdAt table.nextId e)) :=
  rowOf_upsert_self EventsRow.merge_key table.rows (eventsRow createdAt table.nextId e)

/-- The rows of the other keys. -/
theorem rowOf_upsertEvent_of_ne (createdAt : Timestamp) (table : EventsTable)
    {e : ValidatorSettlement} {k : SettlementKey} (hk : k ≠ e.toSettlementKey) :
    rowOf EventsRow.toSettlementKey (upsertEvent createdAt table e).rows k =
      rowOf EventsRow.toSettlementKey table.rows k :=
  rowOf_upsert_of_ne EventsRow.merge_key table.rows hk

/-- One row of the statement on the ledger. -/
theorem ledger_upsertEvent (createdAt : Timestamp) (table : EventsTable)
    (e : ValidatorSettlement) :
    (upsertEvent createdAt table e).ledger =
      Ledger.record createdAt (amounts [e]) table.ledger := by
  funext k
  unfold EventsTable.ledger Ledger.record amounts
  by_cases hk : k = e.toSettlementKey
  · subst hk
    have hamount : rowOf ValidatorSettlement.toSettlementKey [e] e.toSettlementKey = some e := by
      simp [rowOf]
    rw [rowOf_upsertEvent_self, hamount]
    dsimp only
    cases rowOf EventsRow.toSettlementKey table.rows e.toSettlementKey with
    | none => rfl
    | some row => rfl
  · have hamount : rowOf ValidatorSettlement.toSettlementKey [e] k = none := by
      simpa [rowOf] using Ne.symm hk
    rw [rowOf_upsertEvent_of_ne createdAt table hk, hamount]
    rfl

theorem amounts_cons (e : ValidatorSettlement) (events : List ValidatorSettlement)
    (k : SettlementKey) :
    amounts (e :: events) k =
      if e.toSettlementKey = k then some (e.amount : Rat) else amounts events k := by
  unfold amounts rowOf
  by_cases hk : e.toSettlementKey = k
  · rw [List.find?_cons_of_pos (by simpa using hk), if_pos hk]
    rfl
  · rw [List.find?_cons_of_neg (by simpa using hk), if_neg hk]

theorem amounts_eq_none_iff {events : List ValidatorSettlement} {k : SettlementKey} :
    amounts events k = none ↔ k ∉ events.map ValidatorSettlement.toSettlementKey := by
  unfold amounts
  rw [Option.map_eq_none_iff, rowOf_eq_none_iff]

/-- **The rows of a snapshot** record its amounts. -/
theorem ledger_recordAll (createdAt : Timestamp) {events : List ValidatorSettlement}
    (hnd : (events.map ValidatorSettlement.toSettlementKey).Nodup) (table : EventsTable) :
    (recordAll createdAt events table).ledger =
      Ledger.record createdAt (amounts events) table.ledger := by
  induction events generalizing table with
  | nil => rfl
  | cons e events ih =>
    obtain ⟨hnew, hnd⟩ := List.nodup_cons.mp hnd
    show (recordAll createdAt events (upsertEvent createdAt table e)).ledger = _
    rw [ih hnd, ledger_upsertEvent]
    funext k
    unfold Ledger.record
    rw [amounts_cons e events, amounts_cons e []]
    by_cases hk : e.toSettlementKey = k
    · -- the key of the first settlement does not come again
      subst hk
      rw [if_pos rfl, if_pos rfl, amounts_eq_none_iff.mpr hnew]
    · rw [if_neg hk, if_neg hk]
      rfl

/-! ## The command -/

theorem byChunks_recordAll (createdAt : Timestamp) :
    ByChunks ValidatorSettlement.toSettlementKey (recordAll createdAt)
      (upsertChunk createdAt) where
  nil _ := rfl
  append _ _ _ := List.foldl_append.symm
  chunk _ _ hnd := if_pos hnd

/-- **What a run leaves**: the rows of the first `k` chunks, of all of them if nothing
fails. -/
theorem storeEvents_spec (fault : Nat → Option DbError) {snapshot : ValidatorsEventsSnapshot}
    (hnd : snapshot.DistinctKeys) (table : EventsTable) :
    ∃ k, (storeEvents fault snapshot table).1 =
        recordAll snapshot.createdAt (snapshot.events.take (DEFAULT_CHUNK_SIZE * k)) table ∧
      ((storeEvents fault snapshot table).2 = .ok () →
        snapshot.events.take (DEFAULT_CHUNK_SIZE * k) = snapshot.events) :=
  (byChunks_recordAll snapshot.createdAt).autocommit_spec (by decide) hnd fault table

/-- Without a fault the command stores the whole snapshot. -/
theorem storeEvents_complete {snapshot : ValidatorsEventsSnapshot}
    (hnd : snapshot.DistinctKeys) (table : EventsTable) :
    storeEvents (fun _ => none) snapshot table =
      (recordAll snapshot.createdAt snapshot.events table, .ok ()) :=
  (byChunks_recordAll snapshot.createdAt).autocommit_complete (by decide) hnd table

/-- A run in two attempts leaves the ledger of one complete run. -/
theorem ledger_again (fault : Nat → Option DbError) {snapshot : ValidatorsEventsSnapshot}
    (hnd : snapshot.DistinctKeys) (table : EventsTable) :
    (storeEvents (fun _ => none) snapshot (storeEvents fault snapshot table).1).1.ledger =
      (storeEvents (fun _ => none) snapshot table).1.ledger := by
  obtain ⟨k, hleft, -⟩ := storeEvents_spec fault hnd table
  have hpart : ((snapshot.events.take (DEFAULT_CHUNK_SIZE * k)).map
      ValidatorSettlement.toSettlementKey).Nodup :=
    hnd.sublist ((List.take_sublist _ _).map _)
  rw [storeEvents_complete hnd, storeEvents_complete hnd, hleft]
  rw [ledger_recordAll _ hnd, ledger_recordAll _ hpart, ledger_recordAll _ hnd]
  refine Ledger.record_record _ (fun key hkey => ?_) _
  rw [amounts_eq_none_iff] at hkey ⊢
  exact fun hmem => hkey (((List.take_sublist _ _).map _).subset hmem)

/-! ## Rows -/

/-- A row but for its id. -/
def EventsRow.withoutId (row : EventsRow) : EventsRow := { row with id := 0 }

/-- The same rows, in any order, up to their ids. -/
def EventsTable.SameRows (table table' : EventsTable) : Prop :=
  (table.rows.map EventsRow.withoutId).Perm (table'.rows.map EventsRow.withoutId)

/-- The ledger is all of the table but the ids. -/
theorem sameRows_of_ledger {table table' : EventsTable} (h : table.ledger = table'.ledger) :
    table.SameRows table' := by
  have hrow : ∀ (t : EventsTable) (k : SettlementKey),
      (rowOf EventsRow.toSettlementKey t.rows k).map EventsRow.withoutId =
        (t.ledger k).map fun entry =>
          { k with id := 0, amount := entry.amount, createdAt := entry.createdAt,
                   updatedAt := entry.updatedAt } := fun t k => by
    unfold EventsTable.ledger
    cases hr : rowOf EventsRow.toSettlementKey t.rows k with
    | none => rfl
    | some row =>
      obtain ⟨-, rfl⟩ := mem_of_rowOf hr
      rfl
  have hkey : ∀ row : EventsRow, row.withoutId.toSettlementKey = row.toSettlementKey :=
    fun _ => rfl
  refine perm_of_rowOf EventsRow.withoutId _ hkey table.unique table'.unique fun k => ?_
  rw [hrow, hrow, h]

/-- Exactly one row has the key, and it carries the amount. -/
def EventsTable.Holds (table : EventsTable) (k : SettlementKey) (amount : Rat) : Prop :=
  ∃ row, (table.rows.filter fun r => r.toSettlementKey = k) = [row] ∧ row.amount = amount

theorem holds_of_ledger {table : EventsTable} {k : SettlementKey} {amount : Rat}
    (h : (table.ledger k).map (·.amount) = some amount) : table.Holds k amount := by
  obtain ⟨entry, hentry, rfl⟩ := Option.map_eq_some_iff.mp h
  obtain ⟨row, hrow, rfl⟩ := Option.map_eq_some_iff.mp hentry
  exact ⟨row, filter_eq_of_rowOf table.unique hrow, rfl⟩

/-- The rows of other keys stay as they are. -/
theorem rowOf_recordAll_of_not_mem (createdAt : Timestamp) {events : List ValidatorSettlement}
    {k : SettlementKey} (hk : k ∉ events.map ValidatorSettlement.toSettlementKey)
    (table : EventsTable) :
    rowOf EventsRow.toSettlementKey (recordAll createdAt events table).rows k =
      rowOf EventsRow.toSettlementKey table.rows k := by
  induction events generalizing table with
  | nil => rfl
  | cons e events ih =>
    rw [List.map_cons, List.mem_cons, not_or] at hk
    show rowOf _ (recordAll createdAt events (upsertEvent createdAt table e)).rows k = _
    rw [ih hk.2, rowOf_upsertEvent_of_ne createdAt table hk.1]

/-- A row that is there keeps its id and the time it was created. -/
theorem exists_kept_recordAll (createdAt : Timestamp) (events : List ValidatorSettlement)
    {table : EventsTable} {row : EventsRow} (hrow : row ∈ table.rows) :
    ∃ row' ∈ (recordAll createdAt events table).rows, row'.toSettlementKey = row.toSettlementKey ∧
      row'.id = row.id ∧ row'.createdAt = row.createdAt := by
  induction events generalizing table row with
  | nil => exact ⟨row, hrow, rfl, rfl, rfl⟩
  | cons e events ih =>
    have hfound := (mem_iff_rowOf table.unique).mp hrow
    obtain ⟨row₁, hrow₁, hkey, hid, hcreated⟩ : ∃ row₁ ∈ (upsertEvent createdAt table e).rows,
        row₁.toSettlementKey = row.toSettlementKey ∧ row₁.id = row.id ∧
          row₁.createdAt = row.createdAt := by
      by_cases hk : row.toSettlementKey = e.toSettlementKey
      · have hself := rowOf_upsertEvent_self createdAt table e
        rw [← hk, hfound] at hself
        exact ⟨_, (mem_of_rowOf hself).1, rfl, rfl, rfl⟩
      · have hother := rowOf_upsertEvent_of_ne createdAt table hk
        rw [hfound] at hother
        exact ⟨row, (mem_of_rowOf hother).1, rfl, rfl, rfl⟩
    obtain ⟨row', hrow', hkey', hid', hcreated'⟩ := ih hrow₁
    exact ⟨row', hrow', hkey'.trans hkey, hid'.trans hid, hcreated'.trans hcreated⟩

/-! ## Interrupted runs and sequences of runs -/

/-- What an interrupted run and a second, complete one leave. -/
structure Repaired (snapshot : ValidatorsEventsSnapshot) (before again once : EventsTable) :
    Prop where
  sameRows : again.SameRows once
  holds : ∀ e ∈ snapshot.events, again.Holds e.toSettlementKey e.amount
  others : ∀ row : EventsRow,
    row.toSettlementKey ∉ snapshot.events.map ValidatorSettlement.toSettlementKey →
      (row ∈ again.rows ↔ row ∈ before.rows)
  kept : ∀ row ∈ before.rows, ∃ row' ∈ again.rows, row'.toSettlementKey = row.toSettlementKey ∧
    row'.id = row.id ∧ row'.createdAt = row.createdAt

/-- A complete run makes the ledger hold the amounts of its snapshot. -/
theorem holds_of_complete {fault : Nat → Option DbError} {snapshot : ValidatorsEventsSnapshot}
    (hnd : snapshot.DistinctKeys) {table : EventsTable}
    (hok : (storeEvents fault snapshot table).2 = .ok ()) {e : ValidatorSettlement}
    (he : e ∈ snapshot.events) :
    (((storeEvents fault snapshot table).1.ledger e.toSettlementKey).map (·.amount)) =
      some (e.amount : Rat) := by
  obtain ⟨k, hleft, hall⟩ := storeEvents_spec fault hnd table
  rw [hleft, hall hok, ledger_recordAll _ hnd]
  unfold Ledger.record amounts
  rw [(mem_iff_rowOf hnd).mp he]
  rfl

theorem repaired (fault : Nat → Option DbError) {snapshot : ValidatorsEventsSnapshot}
    (hnd : snapshot.DistinctKeys) (table : EventsTable) :
    Repaired snapshot table
      (storeEvents (fun _ => none) snapshot (storeEvents fault snapshot table).1).1
      (storeEvents (fun _ => none) snapshot table).1 := by
  obtain ⟨k, hleft, -⟩ := storeEvents_spec fault hnd table
  refine ⟨sameRows_of_ledger (ledger_again fault hnd table), fun e he => ?_, fun row hrow => ?_,
    fun row hrow => ?_⟩
  · apply holds_of_ledger
    exact holds_of_complete hnd (by rw [storeEvents_complete hnd]) he
  · have hpart : row.toSettlementKey ∉ (snapshot.events.take (DEFAULT_CHUNK_SIZE * k)).map
        ValidatorSettlement.toSettlementKey := fun hmem =>
      hrow (((List.take_sublist _ _).map _).subset hmem)
    rw [storeEvents_complete hnd, hleft]
    rw [mem_iff_rowOf (EventsTable.unique _), mem_iff_rowOf table.unique,
      rowOf_recordAll_of_not_mem _ hrow, rowOf_recordAll_of_not_mem _ hpart]
  · rw [storeEvents_complete hnd, hleft]
    obtain ⟨row₁, hrow₁, hkey₁, hid₁, hcreated₁⟩ :=
      exists_kept_recordAll snapshot.createdAt
        (snapshot.events.take (DEFAULT_CHUNK_SIZE * k)) hrow
    obtain ⟨row₂, hrow₂, hkey₂, hid₂, hcreated₂⟩ :=
      exists_kept_recordAll snapshot.createdAt snapshot.events hrow₁
    exact ⟨row₂, hrow₂, hkey₂.trans hkey₁, hid₂.trans hid₁, hcreated₂.trans hcreated₁⟩

/-- One command after the other, each with its own faults. -/
def storeEventsAll (runs : List ((Nat → Option DbError) × ValidatorsEventsSnapshot))
    (table : EventsTable) : EventsTable :=
  runs.foldl (fun table run => (storeEvents run.1 run.2 table).1) table

/-- Runs without a key leave its row alone. -/
theorem rowOf_storeEventsAll {runs : List ((Nat → Option DbError) × ValidatorsEventsSnapshot)}
    {k : SettlementKey} (hnd : ∀ run ∈ runs, run.2.DistinctKeys)
    (hk : ∀ run ∈ runs, k ∉ run.2.events.map ValidatorSettlement.toSettlementKey)
    (table : EventsTable) :
    rowOf EventsRow.toSettlementKey (storeEventsAll runs table).rows k =
      rowOf EventsRow.toSettlementKey table.rows k := by
  induction runs generalizing table with
  | nil => rfl
  | cons run runs ih =>
    show rowOf _ (storeEventsAll runs (storeEvents run.1 run.2 table).1).rows k = _
    rw [ih (fun r hr => hnd r (List.mem_cons_of_mem _ hr))
      (fun r hr => hk r (List.mem_cons_of_mem _ hr))]
    obtain ⟨j, hleft, -⟩ := storeEvents_spec run.1 (hnd run List.mem_cons_self) table
    rw [hleft]
    refine rowOf_recordAll_of_not_mem _ (fun hmem => ?_) table
    exact hk run List.mem_cons_self (((List.take_sublist _ _).map _).subset hmem)

/-- **Re-running repairs**: whatever an interrupted run committed, a second run leaves
the rows of one uninterrupted run but for the ids of the new rows; and over any sequence
of runs, some of them interrupted, a key has the amount of the last snapshot with it. -/
theorem storeEvents_again :
    (∀ (fault : Nat → Option DbError) (snapshot : ValidatorsEventsSnapshot)
        (table : EventsTable), snapshot.DistinctKeys →
      (storeEvents (fun _ => none) snapshot (storeEvents fault snapshot table).1).2 = .ok () ∧
      Repaired snapshot table
        (storeEvents (fun _ => none) snapshot (storeEvents fault snapshot table).1).1
        (storeEvents (fun _ => none) snapshot table).1) ∧
    ∀ (earlier later : List ((Nat → Option DbError) × ValidatorsEventsSnapshot))
        (fault : Nat → Option DbError) (snapshot : ValidatorsEventsSnapshot)
        (table : EventsTable) (e : ValidatorSettlement), e ∈ snapshot.events →
      snapshot.DistinctKeys → (∀ run ∈ later, run.2.DistinctKeys) →
      (storeEvents fault snapshot (storeEventsAll earlier table)).2 = .ok () →
      (∀ run ∈ later,
        e.toSettlementKey ∉ run.2.events.map ValidatorSettlement.toSettlementKey) →
      (storeEventsAll (earlier ++ (fault, snapshot) :: later) table).Holds
        e.toSettlementKey e.amount := by
  constructor
  · intro fault snapshot table hnd
    refine ⟨?_, repaired fault hnd table⟩
    rw [storeEvents_complete hnd]
  · intro earlier later fault snapshot table e he hnd hlater hok hlast
    apply holds_of_ledger
    have hrun : storeEventsAll (earlier ++ (fault, snapshot) :: later) table =
        storeEventsAll later (storeEvents fault snapshot (storeEventsAll earlier table)).1 := by
      unfold storeEventsAll
      rw [List.foldl_append, List.foldl_cons]
    have hheld := holds_of_complete hnd hok he
    unfold EventsTable.ledger at hheld ⊢
    rw [hrun, rowOf_storeEventsAll hlater hlast]
    exact hheld

/-! ## The ids -/

theorem nextId_recordAll (createdAt : Timestamp) (events : List ValidatorSettlement)
    (table : EventsTable) :
    (recordAll createdAt events table).nextId = table.nextId + events.length := by
  induction events generalizing table with
  | nil => rfl
  | cons e events ih =>
    show (recordAll createdAt events (upsertEvent createdAt table e)).nextId = _
    rw [ih]
    show table.nextId + 1 + events.length = table.nextId + (events.length + 1)
    omega

/-- A new key gets the id that the sequence has at its place in the snapshot. -/
theorem rowOf_recordAll_new (createdAt : Timestamp) {pre : List ValidatorSettlement}
    {e : ValidatorSettlement}
    (hpre : e.toSettlementKey ∉ pre.map ValidatorSettlement.toSettlementKey)
    (table : EventsTable)
    (hnew : rowOf EventsRow.toSettlementKey table.rows e.toSettlementKey = none) :
    rowOf EventsRow.toSettlementKey (recordAll createdAt (pre ++ [e]) table).rows
        e.toSettlementKey =
      some (eventsRow createdAt (table.nextId + pre.length) e) := by
  have hsplit : recordAll createdAt (pre ++ [e]) table =
      upsertEvent createdAt (recordAll createdAt pre table) e := by
    unfold recordAll
    rw [List.foldl_append]
    rfl
  rw [hsplit, rowOf_upsertEvent_self, rowOf_recordAll_of_not_mem createdAt hpre, hnew,
    nextId_recordAll]
  rfl

/-- The settlement of one epoch. -/
def epochSettlement (epoch : Nat) : ValidatorSettlement where
  epoch := epoch
  voteAccount := "vote"
  reason := "BondRisk"
  meta_ := "{}"
  amount := 1

/-- The settlements that fill the first chunk; never unfolded but by the lemmas. -/
@[irreducible]
def firstChunk : List ValidatorSettlement := (List.range 500).map epochSettlement

theorem length_firstChunk : firstChunk.length = 500 := by
  unfold firstChunk
  rw [List.length_map, List.length_range]

theorem nodup_firstChunk :
    ((firstChunk ++ [epochSettlement 500]).map ValidatorSettlement.toSettlementKey).Nodup := by
  have hall : firstChunk ++ [epochSettlement 500] = (List.range 501).map epochSettlement := by
    unfold firstChunk
    rw [show List.range 501 = List.range 500 ++ [500] from List.range_succ, List.map_append,
      List.map_singleton]
  rw [hall, List.map_map]
  refine List.nodup_range.map fun i j h => ?_
  exact congrArg SettlementKey.epoch h

/-- A snapshot of two chunks. -/
def twoChunks : ValidatorsEventsSnapshot where
  createdAt := 0
  events := firstChunk ++ [epochSettlement 500]

/-- An interruption after the first chunk commits the first chunk. -/
theorem storeEvents_stopAt_twoChunks :
    (storeEvents (stopAt 1 .connection) twoChunks .empty).1 = recordAll 0 firstChunk .empty := by
  have htake : ((chunks DEFAULT_CHUNK_SIZE twoChunks.events).take 1).flatten = firstChunk := by
    rw [chunks_take_flatten (by decide)]
    exact List.take_left' length_firstChunk
  have hlen : 1 < (chunks DEFAULT_CHUNK_SIZE twoChunks.events).length := by
    by_contra hle
    rw [List.take_of_length_le (by omega), chunks_flatten (by decide)] at htake
    have hlen := congrArg List.length htake
    rw [show twoChunks.events = firstChunk ++ [epochSettlement 500] from rfl,
      List.length_append, List.length_singleton] at hlen
    omega
  have hcommit := (byChunks_recordAll 0).commitAll_eq
    (show (((chunks DEFAULT_CHUNK_SIZE twoChunks.events).take 1).flatten.map _).Nodup by
      rw [htake]
      exact nodup_firstChunk.sublist ((List.sublist_append_left _ _).map _)) .empty
  rw [htake, List.map_take] at hcommit
  have h := autocommit_stopAt (by rwa [List.length_map]) hcommit DbError.connection
  exact congrArg Prod.fst h

/-- The last row has id 501 after one run and id 1001 after two attempts. -/
theorem storeEvents_ids_differ :
    ¬ ∀ (k : Nat) (snapshot : ValidatorsEventsSnapshot) (table : EventsTable),
      snapshot.DistinctKeys →
        (storeEvents (fun _ => none) snapshot
          (storeEvents (stopAt k .connection) snapshot table).1).1.rows.Perm
            (storeEvents (fun _ => none) snapshot table).1.rows := by
  intro hall
  have hnd : twoChunks.DistinctKeys := nodup_firstChunk
  have hperm := hall 1 twoChunks .empty hnd
  have hlast : (epochSettlement 500).toSettlementKey ∉
      firstChunk.map ValidatorSettlement.toSettlementKey := by
    have h := nodup_firstChunk
    rw [List.map_append, List.nodup_append] at h
    exact fun hmem => h.2.2 _ hmem _ (List.mem_singleton_self _) rfl
  rw [storeEvents_complete hnd, storeEvents_complete hnd, storeEvents_stopAt_twoChunks] at hperm
  -- the two rows of the last key
  have honce := rowOf_recordAll_new 0 hlast .empty rfl
  have hagain := rowOf_recordAll_new 0 hlast (recordAll 0 firstChunk .empty)
    ((rowOf_recordAll_of_not_mem 0 hlast _).trans rfl)
  rw [nextId_recordAll, length_firstChunk] at hagain
  rw [length_firstChunk] at honce
  have hmem := hperm.subset (mem_of_rowOf hagain).1
  have hfound := (mem_iff_rowOf (EventsTable.unique _)).mp hmem
  rw [show (eventsRow 0 (EventsTable.empty.nextId + 500 + 500)
    (epochSettlement 500)).toSettlementKey = (epochSettlement 500).toSettlementKey from rfl]
    at hfound
  have hids := congrArg (Option.map EventsRow.id) (honce.symm.trans hfound)
  revert hids
  decide

/-- The snapshot of two chunks, interrupted after the first. -/
theorem storeEvents_again_twoChunks :
    (storeEvents (fun _ => none) twoChunks
        (storeEvents (stopAt 1 .connection) twoChunks .empty).1).2 = .ok () ∧
      (storeEventsAll [(fun _ => none, twoChunks)] .empty).Holds
        (epochSettlement 500).toSettlementKey 1 := by
  have hnd : twoChunks.DistinctKeys := nodup_firstChunk
  refine ⟨(storeEvents_again.1 (stopAt 1 .connection) twoChunks .empty hnd).1, ?_⟩
  have hmem : epochSettlement 500 ∈ twoChunks.events :=
    List.mem_append_right _ (List.mem_singleton_self _)
  have h := storeEvents_again.2 [] [] (fun _ => none) twoChunks .empty _ hmem hnd
    (fun _ h => nomatch h) (by rw [storeEvents_complete hnd]) fun _ h => nomatch h
  exact h

end DelegationStrategy.Store
