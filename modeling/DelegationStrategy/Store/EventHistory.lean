import DelegationStrategy.Lib.FullJoin
import DelegationStrategy.Store.Events
import DelegationStrategy.Store.Histories

/-!
# The event history of a validator

`get_events_with_context` (`store/src/validators_events.rs`) reads the settlements and the
performance of a vote account with two queries, and joins them by epoch.

- The join is full (`eventHistory_or_error`): one record for each epoch with a settlement or
  a row of `validators`, unless a number is no `u64`.
- Without a lower bound the function takes `last_epoch - 80`, inclusive, where the loaders of
  the cache take greater epochs: one epoch more (`defaultWindow_iff`).
-/

namespace DelegationStrategy.Store

open DelegationStrategy.Lib DelegationStrategy.Collect

/-! ## The function -/

/-- The tables that the function reads, with their keys. -/
structure EventsDatabase extends Database where
  events : EventsTable
  /-- `PRIMARY KEY (vote_account, epoch)`. -/
  validatorsKey : PrimaryKey validators
  /-- `PRIMARY KEY(epoch)`. -/
  epochsKey : (epochs.map EpochsRow.epoch).Nodup

structure SettlementRecord where
  reason : String
  meta_ : String
  amount : Rat
  deriving DecidableEq, Repr

structure PerformanceRecord where
  blocksProduced : Nat
  leaderSlots : Nat
  skipRate : Rat
  credits : Nat
  deriving DecidableEq, Repr

structure EventEpochRecord where
  epoch : Nat
  epochEndAt : Option Timestamp
  performance : Option PerformanceRecord
  uptimePct : Option Rat
  downtime : Option Nat
  settlements : List SettlementRecord
  deriving DecidableEq, Repr

/-- `last_epoch.and_then(…).unwrap_or(0).saturating_sub(DEFAULT_CACHE_EPOCHS)`. -/
def defaultFromEpoch (db : Database) : Nat :=
  (((db.clusterInfo.map ClusterInfoRow.epoch).max?).bind fun e => decimalToU64 e).getD 0 -
    defaultCacheEpochs

/-- The query of the settlements. -/
def settlementRows (scan : Scan) (db : EventsDatabase) (voteAccount : String) (fromEpoch : Nat) :
    List EventsRow :=
  sortBy (fun row => row.epoch) ((scan.order db.events.rows).filter fun row =>
    row.voteAccount = voteAccount ∧ fromEpoch ≤ row.epoch)

def settlementRecord (row : EventsRow) : SettlementRecord :=
  { reason := row.reason, meta_ := row.meta_, amount := row.amount }

/-- What the first loop pushes for a row. -/
def settlementEntry (row : EventsRow) : Option (Nat × SettlementRecord) :=
  (decimalToU64 row.epoch).map fun epoch => (epoch, settlementRecord row)

/-- The query of the performance. -/
def performanceRows (scan : Scan) (db : EventsDatabase) (voteAccount : String)
    (fromEpoch : Nat) : List (ValidatorsRow × Option EpochsRow) :=
  sortBy (fun row => row.1.epoch)
    ((joinEpochs ValidatorsRow.epoch (scan.order db.validators) db.epochs).filter fun row =>
      row.1.voteAccount = voteAccount ∧ fromEpoch ≤ row.1.epoch)

/-- What the second loop inserts for a row. -/
def performanceEntry (row : ValidatorsRow × Option EpochsRow) :
    Option (Nat × EventEpochRecord) := do
  let epoch ← decimalToU64 row.1.epoch
  let blocksProduced ← decimalToU64 row.1.blocksProduced
  let leaderSlots ← decimalToU64 row.1.leaderSlots
  let credits ← decimalToU64 row.1.credits
  let downtime ← row.1.downtime.mapM decimalToU64
  some (epoch, {
    epoch := epoch
    epochEndAt := row.2.map EpochsRow.endAt
    performance := some {
      blocksProduced := blocksProduced
      leaderSlots := leaderSlots
      skipRate := row.1.skipRate
      credits := credits }
    uptimePct := row.1.uptimePct
    downtime := downtime
    settlements := [] })

/-- `by_epoch.entry(epoch).or_insert_with(…).settlements = settlements`. -/
def withSettlements (epoch : Nat) (record : Option EventEpochRecord)
    (settlements : List SettlementRecord) : EventEpochRecord :=
  let record := record.getD {
    epoch := epoch
    epochEndAt := none
    performance := none
    uptimePct := none
    downtime := none
    settlements := [] }
  { record with settlements := settlements }

/-- `get_events_with_context`; `none` if a conversion fails. -/
def getEventsWithContext (scan iteration : Scan) (db : EventsDatabase) (voteAccount : String)
    (fromEpoch : Option Nat) : Option (List EventEpochRecord) := do
  let fromEpoch := fromEpoch.getD (defaultFromEpoch db.toDatabase)
  let settlements ← (settlementRows scan db voteAccount fromEpoch).mapM settlementEntry
  let settlementsByEpoch := Dict.groups settlements
  let performances ← (performanceRows scan db voteAccount fromEpoch).mapM performanceEntry
  let byEpoch := Dict.ofList performances
  let byEpoch := mergeInto withSettlements byEpoch (iteration.order settlementsByEpoch.entries)
  some (sortedValues EventEpochRecord.epoch iteration byEpoch)

/-! ## The history -/

section History

variable {scan iteration : Scan} {db : EventsDatabase} {voteAccount : String} {fromEpoch : Nat}

/-- The settlements of the vote account in an epoch. -/
def settlementsOf (db : EventsDatabase) (voteAccount : String) (epoch : Nat) :
    List SettlementRecord :=
  (db.events.rows.filter fun row => row.voteAccount = voteAccount ∧ row.epoch = epoch).map
    settlementRecord

/-- What a record has of the row of `validators` of its epoch. -/
structure PerformanceOf (db : EventsDatabase) (row : ValidatorsRow) (record : EventEpochRecord) :
    Prop where
  performance : record.performance =
    some ⟨row.blocksProduced, row.leaderSlots, row.skipRate, row.credits⟩
  uptimePct : record.uptimePct = row.uptimePct
  downtime : row.downtime.mapM decimalToU64 = some record.downtime
  epochEndAt : record.epochEndAt =
    (db.epochs.find? fun epochsRow => epochsRow.epoch = row.epoch).map EpochsRow.endAt

/-- What a record has without such a row. -/
structure NoPerformance (record : EventEpochRecord) : Prop where
  performance : record.performance = none
  uptimePct : record.uptimePct = none
  downtime : record.downtime = none
  epochEndAt : record.epochEndAt = none

/-- The full join of the two tables from the epoch on. -/
structure EventHistory (db : EventsDatabase) (voteAccount : String) (fromEpoch : Nat)
    (records : List EventEpochRecord) : Prop where
  ascending : records.Pairwise fun record next => record.epoch < next.epoch
  epochs : ∀ epoch, epoch ∈ records.map EventEpochRecord.epoch ↔ fromEpoch ≤ epoch ∧
    ((∃ row ∈ db.validators, row.voteAccount = voteAccount ∧ row.epoch = epoch) ∨
      ∃ row ∈ db.events.rows, row.voteAccount = voteAccount ∧ row.epoch = epoch)
  settlements : ∀ record ∈ records,
    record.settlements.Perm (settlementsOf db voteAccount record.epoch)
  present : ∀ record ∈ records, ∀ row ∈ db.validators, row.voteAccount = voteAccount →
    row.epoch = record.epoch → PerformanceOf db row record
  absent : ∀ record ∈ records, (∀ row ∈ db.validators, row.voteAccount = voteAccount →
    row.epoch ≠ record.epoch) → NoPerformance record

/-- The selected numbers can be read as `u64`. -/
structure Readable (db : EventsDatabase) (voteAccount : String) (fromEpoch : Nat) : Prop where
  settlements : ∀ row ∈ db.events.rows, row.voteAccount = voteAccount → fromEpoch ≤ row.epoch →
    row.epoch < 2 ^ 64
  performance : ∀ row ∈ db.validators, row.voteAccount = voteAccount → fromEpoch ≤ row.epoch →
    row.epoch < 2 ^ 64 ∧ row.blocksProduced < 2 ^ 64 ∧ row.leaderSlots < 2 ^ 64 ∧
      row.credits < 2 ^ 64 ∧ (row.downtime.mapM decimalToU64).isSome

/-! ### The queries -/

theorem mem_settlementRows {row : EventsRow} :
    row ∈ settlementRows scan db voteAccount fromEpoch ↔
      row ∈ db.events.rows ∧ row.voteAccount = voteAccount ∧ fromEpoch ≤ row.epoch := by
  unfold settlementRows
  rw [(sortBy_perm _ _).mem_iff, List.mem_filter, scan.mem_order, decide_eq_true_iff]

/-- Each row of `validators` is joined once. -/
theorem joinEpochs_eq (rows : List ValidatorsRow) :
    joinEpochs ValidatorsRow.epoch rows db.epochs = rows.map fun row =>
      (row, db.epochs.find? fun epochsRow => epochsRow.epoch = row.epoch) :=
  leftJoin_key db.epochsKey ValidatorsRow.epoch rows

theorem mem_performanceRows {row : ValidatorsRow × Option EpochsRow} :
    row ∈ performanceRows scan db voteAccount fromEpoch ↔
      (row.1 ∈ db.validators ∧ row.1.voteAccount = voteAccount ∧ fromEpoch ≤ row.1.epoch) ∧
        row.2 = db.epochs.find? fun epochsRow => epochsRow.epoch = row.1.epoch := by
  unfold performanceRows
  rw [(sortBy_perm _ _).mem_iff, List.mem_filter, joinEpochs_eq, List.mem_map, decide_eq_true_iff]
  constructor
  · rintro ⟨⟨validator, hmem, rfl⟩, hselected⟩
    exact ⟨⟨scan.mem_order.mp hmem, hselected⟩, rfl⟩
  · rintro ⟨⟨hmem, hselected⟩, hepochs⟩
    exact ⟨⟨row.1, scan.mem_order.mpr hmem, Prod.ext rfl hepochs.symm⟩, hselected⟩

/-! ### The conversions -/

theorem settlementEntry_eq_some {row : EventsRow} {e : Nat × SettlementRecord} :
    settlementEntry row = some e ↔ row.epoch < 2 ^ 64 ∧ e = (row.epoch, settlementRecord row) := by
  unfold settlementEntry
  rw [Option.map_eq_some_iff]
  constructor
  · rintro ⟨epoch, hepoch, rfl⟩
    obtain ⟨hlt, rfl⟩ := decimalToU64_eq_some_iff.mp hepoch
    exact ⟨hlt, rfl⟩
  · rintro ⟨hlt, rfl⟩
    exact ⟨row.epoch, decimalToU64_natCast hlt, rfl⟩

/-- The record of a converted row. -/
theorem performanceOf_entry {row : ValidatorsRow × Option EpochsRow}
    {e : Nat × EventEpochRecord}
    (hepochs : row.2 = db.epochs.find? fun epochsRow => epochsRow.epoch = row.1.epoch)
    (h : performanceEntry row = some e) :
    e.1 = row.1.epoch ∧ e.2.epoch = row.1.epoch ∧ e.2.settlements = [] ∧
      PerformanceOf db row.1 e.2 := by
  obtain ⟨epoch, hepoch, h⟩ := Option.bind_eq_some_iff.mp h
  obtain ⟨blocksProduced, hblocks, h⟩ := Option.bind_eq_some_iff.mp h
  obtain ⟨leaderSlots, hslots, h⟩ := Option.bind_eq_some_iff.mp h
  obtain ⟨credits, hcredits, h⟩ := Option.bind_eq_some_iff.mp h
  obtain ⟨downtime, hdowntime, h⟩ := Option.bind_eq_some_iff.mp h
  obtain rfl := Option.some.inj h
  obtain ⟨-, rfl⟩ := decimalToU64_eq_some_iff.mp hepoch
  obtain ⟨-, rfl⟩ := decimalToU64_eq_some_iff.mp hblocks
  obtain ⟨-, rfl⟩ := decimalToU64_eq_some_iff.mp hslots
  obtain ⟨-, rfl⟩ := decimalToU64_eq_some_iff.mp hcredits
  exact ⟨rfl, rfl, rfl, rfl, rfl, hdowntime, congrArg (Option.map EpochsRow.endAt) hepochs⟩

/-- The conversions succeed exactly if the numbers can be read. -/
theorem isSome_performanceEntry {row : ValidatorsRow × Option EpochsRow} :
    (performanceEntry row).isSome ↔
      row.1.epoch < 2 ^ 64 ∧ row.1.blocksProduced < 2 ^ 64 ∧ row.1.leaderSlots < 2 ^ 64 ∧
        row.1.credits < 2 ^ 64 ∧ (row.1.downtime.mapM decimalToU64).isSome := by
  have hread : ∀ n : Nat, (decimalToU64 n).isSome ↔ n < 2 ^ 64 := by
    intro n
    rw [Option.isSome_iff_exists]
    simp [decimalToU64_eq_some_iff]
  rw [← hread, ← hread, ← hread, ← hread]
  unfold performanceEntry
  cases decimalToU64 row.1.epoch <;> cases decimalToU64 row.1.blocksProduced <;>
    cases decimalToU64 row.1.leaderSlots <;> cases decimalToU64 row.1.credits <;>
    cases row.1.downtime.mapM decimalToU64 <;> simp

theorem readable_iff (scan : Scan) : Readable db voteAccount fromEpoch ↔
    ((settlementRows scan db voteAccount fromEpoch).mapM settlementEntry).isSome ∧
      ((performanceRows scan db voteAccount fromEpoch).mapM performanceEntry).isSome := by
  rw [isSome_mapM, isSome_mapM]
  constructor
  · intro h
    refine ⟨fun row hrow => ?_, fun row hrow => ?_⟩
    · obtain ⟨hmem, hvote, hfrom⟩ := mem_settlementRows.mp hrow
      rw [settlementEntry_eq_some.mpr ⟨h.settlements row hmem hvote hfrom, rfl⟩]
      rfl
    · obtain ⟨⟨hmem, hvote, hfrom⟩, -⟩ := mem_performanceRows.mp hrow
      exact isSome_performanceEntry.mpr (h.performance row.1 hmem hvote hfrom)
  · rintro ⟨hsettlements, hperformances⟩
    refine ⟨fun row hmem hvote hfrom => ?_, fun row hmem hvote hfrom => ?_⟩
    · obtain ⟨e, he⟩ := Option.isSome_iff_exists.mp
        (hsettlements row (mem_settlementRows.mpr ⟨hmem, hvote, hfrom⟩))
      exact (settlementEntry_eq_some.mp he).1
    · exact isSome_performanceEntry.mp
        (hperformances (row, db.epochs.find? fun epochsRow => epochsRow.epoch = row.epoch)
          (mem_performanceRows.mpr ⟨⟨hmem, hvote, hfrom⟩, rfl⟩))

/-! ### The maps -/

/-- A record under an epoch is that of its row of `validators`. -/
theorem get?_performances {performances : List (Nat × EventEpochRecord)}
    (h : (performanceRows scan db voteAccount fromEpoch).mapM performanceEntry =
      some performances) (epoch : Nat) :
    (∃ record row, (Dict.ofList performances).get? epoch = some record ∧ row ∈ db.validators ∧
        row.voteAccount = voteAccount ∧ fromEpoch ≤ row.epoch ∧ row.epoch = epoch ∧
        record.epoch = epoch ∧ record.settlements = [] ∧ PerformanceOf db row record) ∨
      ((Dict.ofList performances).get? epoch = none ∧ ∀ row ∈ db.validators,
        row.voteAccount = voteAccount → fromEpoch ≤ row.epoch → row.epoch ≠ epoch) := by
  cases hget : (Dict.ofList performances).get? epoch with
  | some record =>
    left
    obtain ⟨row, hrow, hentry⟩ :=
      (mem_mapM h).mp (Dict.mem_of_mem_ofList (Dict.mem_of_get? hget))
    obtain ⟨⟨hmem, hvote, hfrom⟩, hepochs⟩ := mem_performanceRows.mp hrow
    obtain ⟨hkey, hrecord, hsettlements, hperformance⟩ := performanceOf_entry hepochs hentry
    exact ⟨record, row.1, rfl, hmem, hvote, hfrom, hkey.symm, hrecord.trans hkey.symm,
      hsettlements, hperformance⟩
  | none =>
    right
    refine ⟨rfl, fun row hmem hvote hfrom heq => Dict.get?_eq_none_iff.mp hget ?_⟩
    have hrow : (row, db.epochs.find? fun epochsRow => epochsRow.epoch = row.epoch) ∈
        performanceRows scan db voteAccount fromEpoch :=
      mem_performanceRows.mpr ⟨⟨hmem, hvote, hfrom⟩, rfl⟩
    obtain ⟨e, he⟩ := exists_of_mapM h hrow
    obtain ⟨hkey, -⟩ := performanceOf_entry rfl he
    rw [Dict.mem_keys_ofList, ← heq, ← hkey]
    exact List.mem_map_of_mem ((mem_mapM h).mpr ⟨_, hrow, he⟩)

/-- The settlements under an epoch are all of the vote account and the epoch. -/
theorem get?_settlements {settlements : List (Nat × SettlementRecord)}
    (h : (settlementRows scan db voteAccount fromEpoch).mapM settlementEntry = some settlements)
    (epoch : Nat) :
    (∃ group row, (Dict.groups settlements).get? epoch = some group ∧ row ∈ db.events.rows ∧
        row.voteAccount = voteAccount ∧ fromEpoch ≤ row.epoch ∧ row.epoch = epoch ∧
        group.Perm (settlementsOf db voteAccount epoch)) ∨
      ((Dict.groups settlements).get? epoch = none ∧ ∀ row ∈ db.events.rows,
        row.voteAccount = voteAccount → fromEpoch ≤ row.epoch → row.epoch ≠ epoch) := by
  have hentries : settlements = (settlementRows scan db voteAccount fromEpoch).map fun row =>
      (row.epoch, settlementRecord row) := by
    have hmap := map_mapM (g := id) (fun row e he => (settlementEntry_eq_some.mp he).2) h
    rwa [List.map_id] at hmap
  have hkey : epoch ∈ (Dict.groups settlements).keys ↔ ∃ row ∈ db.events.rows,
      row.voteAccount = voteAccount ∧ fromEpoch ≤ row.epoch ∧ row.epoch = epoch := by
    rw [Dict.mem_keys_groups, hentries, List.map_map, List.mem_map]
    simp only [mem_settlementRows, and_assoc, Function.comp_apply]
  cases hget : (Dict.groups settlements).get? epoch with
  | some group =>
    left
    have hmem := Dict.mem_of_get? hget
    obtain ⟨row, hrow, hvote, hfrom, hepoch⟩ := hkey.mp (List.mem_map_of_mem (f := Prod.fst) hmem)
    refine ⟨group, row, rfl, hrow, hvote, hfrom, hepoch, ?_⟩
    rw [Dict.mem_groups hmem, hentries, List.filter_map, List.map_map]
    have hperm := (((sortBy_perm (fun row : EventsRow => row.epoch) _).trans
      ((scan.perm db.events.rows).filter fun row =>
        decide (row.voteAccount = voteAccount ∧ fromEpoch ≤ row.epoch))).filter
          fun row => decide (row.epoch = epoch)).map settlementRecord
    rw [List.filter_filter] at hperm
    refine hperm.trans (List.Perm.of_eq (congrArg (List.map settlementRecord) ?_))
    refine List.filter_congr fun other _ => ?_
    rw [Bool.eq_iff_iff, Bool.and_eq_true, decide_eq_true_iff, decide_eq_true_iff,
      decide_eq_true_iff]
    constructor
    · rintro ⟨hepoch', hvote', -⟩
      exact ⟨hvote', hepoch'⟩
    · rintro ⟨hvote', hepoch'⟩
      exact ⟨hepoch', hvote', hepoch'.symm ▸ hepoch ▸ hfrom⟩
  | none =>
    right
    refine ⟨rfl, fun row hmem hvote hfrom heq => Dict.get?_eq_none_iff.mp hget ?_⟩
    exact hkey.mpr ⟨row, hmem, hvote, hfrom, heq⟩

/-- A record of the history, under its epoch. -/
structure RecordAt (db : EventsDatabase) (voteAccount : String) (fromEpoch epoch : Nat)
    (record : EventEpochRecord) : Prop where
  epoch_eq : record.epoch = epoch
  bound : fromEpoch ≤ epoch
  known : (∃ row ∈ db.validators, row.voteAccount = voteAccount ∧ row.epoch = epoch) ∨
    ∃ row ∈ db.events.rows, row.voteAccount = voteAccount ∧ row.epoch = epoch
  settlements : record.settlements.Perm (settlementsOf db voteAccount epoch)
  present : ∀ row ∈ db.validators, row.voteAccount = voteAccount → row.epoch = epoch →
    PerformanceOf db row record
  absent : (∀ row ∈ db.validators, row.voteAccount = voteAccount → row.epoch ≠ epoch) →
    NoPerformance record

/-- A vote account has one row of `validators` in an epoch. -/
theorem validators_unique {row row' : ValidatorsRow} (hrow : row ∈ db.validators)
    (hrow' : row' ∈ db.validators) (hvote : row.voteAccount = row'.voteAccount)
    (hepoch : row.epoch = row'.epoch) : row = row' :=
  List.inj_on_of_nodup_map db.validatorsKey hrow hrow' (Prod.ext hvote hepoch)

/-- **The joined map**: what is under an epoch, in each of the four cases. -/
theorem get?_byEpoch (iteration : Scan) {settlements : List (Nat × SettlementRecord)}
    {performances : List (Nat × EventEpochRecord)}
    (hsettlements : (settlementRows scan db voteAccount fromEpoch).mapM settlementEntry =
      some settlements)
    (hperformances : (performanceRows scan db voteAccount fromEpoch).mapM performanceEntry =
      some performances) (epoch : Nat) :
    (∃ record, (mergeInto withSettlements (Dict.ofList performances)
        (iteration.order (Dict.groups settlements).entries)).get? epoch = some record ∧
      RecordAt db voteAccount fromEpoch epoch record) ∨
    ((mergeInto withSettlements (Dict.ofList performances)
        (iteration.order (Dict.groups settlements).entries)).get? epoch = none ∧
      (∀ row ∈ db.validators, row.voteAccount = voteAccount → fromEpoch ≤ row.epoch →
        row.epoch ≠ epoch) ∧
      ∀ row ∈ db.events.rows, row.voteAccount = voteAccount → fromEpoch ≤ row.epoch →
        row.epoch ≠ epoch) := by
  rw [get?_mergeInto]
  rcases get?_settlements hsettlements epoch with
    ⟨group, event, hgroup, hevent, heventVote, heventFrom, heventEpoch, hperm⟩ |
      ⟨hgroup, hnoEvent⟩ <;>
  rcases get?_performances hperformances epoch with
    ⟨record, row, hrecord, hrow, hvote, hfrom, hepoch, hrecordEpoch, hempty, hperformance⟩ |
      ⟨hrecord, hnoRow⟩ <;>
  rw [hgroup, hrecord]
  · -- settlements and performance
    refine Or.inl ⟨_, rfl, hrecordEpoch, hepoch ▸ hfrom, Or.inl ⟨row, hrow, hvote, hepoch⟩, hperm,
      fun row' hrow' hvote' hepoch' => ?_, fun hnone => absurd hepoch (hnone row hrow hvote)⟩
    obtain rfl := validators_unique hrow hrow' (hvote.trans hvote'.symm)
      (hepoch.trans hepoch'.symm)
    exact ⟨hperformance.performance, hperformance.uptimePct, hperformance.downtime,
      hperformance.epochEndAt⟩
  · -- settlements only
    refine Or.inl ⟨_, rfl, rfl, heventEpoch ▸ heventFrom,
      Or.inr ⟨event, hevent, heventVote, heventEpoch⟩, hperm, fun row hrow hvote hepoch => ?_,
      fun _ => ⟨rfl, rfl, rfl, rfl⟩⟩
    exact absurd hepoch (hnoRow row hrow hvote (hepoch ▸ heventEpoch ▸ heventFrom))
  · -- performance only
    refine Or.inl ⟨record, rfl, hrecordEpoch, hepoch ▸ hfrom, Or.inl ⟨row, hrow, hvote, hepoch⟩,
      ?_, fun row' hrow' hvote' hepoch' => ?_, fun hnone => absurd hepoch (hnone row hrow hvote)⟩
    · have hnone : settlementsOf db voteAccount epoch = [] := by
        refine List.map_eq_nil_iff.mpr (List.filter_eq_nil_iff.mpr fun other hother hof => ?_)
        obtain ⟨hvote', hepoch'⟩ := of_decide_eq_true hof
        exact hnoEvent other hother hvote' (hepoch' ▸ hepoch ▸ hfrom) hepoch'
      rw [hempty, hnone]
    · obtain rfl := validators_unique hrow hrow' (hvote.trans hvote'.symm)
        (hepoch.trans hepoch'.symm)
      exact hperformance
  · exact Or.inr ⟨rfl, hnoRow, hnoEvent⟩

/-! ### The join -/

theorem eventHistory_of_mapM (iteration : Scan) {settlements : List (Nat × SettlementRecord)}
    {performances : List (Nat × EventEpochRecord)}
    (hsettlements : (settlementRows scan db voteAccount fromEpoch).mapM settlementEntry =
      some settlements)
    (hperformances : (performanceRows scan db voteAccount fromEpoch).mapM performanceEntry =
      some performances) :
    EventHistory db voteAccount fromEpoch (sortedValues EventEpochRecord.epoch iteration
      (mergeInto withSettlements (Dict.ofList performances)
        (iteration.order (Dict.groups settlements).entries))) := by
  have hget := get?_byEpoch iteration hsettlements hperformances
  have hrecord : ∀ epoch record, (mergeInto withSettlements (Dict.ofList performances)
      (iteration.order (Dict.groups settlements).entries)).get? epoch = some record →
        RecordAt db voteAccount fromEpoch epoch record := by
    intro epoch record hsome
    rcases hget epoch with ⟨record', hsome', hat⟩ | ⟨hnone, -⟩
    · obtain rfl := Option.some.inj (hsome.symm.trans hsome')
      exact hat
    · rw [hnone] at hsome
      cases hsome
  have hmem : ∀ record ∈ sortedValues EventEpochRecord.epoch iteration
      (mergeInto withSettlements (Dict.ofList performances)
        (iteration.order (Dict.groups settlements).entries)),
        RecordAt db voteAccount fromEpoch record.epoch record := by
    intro record hin
    obtain ⟨epoch, hsome⟩ := mem_sortedValues.mp hin
    have hat := hrecord epoch record hsome
    exact hat.epoch_eq.symm ▸ hat
  exact
    { ascending := pairwise_sortedValues (fun epoch record hsome =>
        (hrecord epoch record hsome).epoch_eq) iteration
      epochs := by
        intro epoch
        rw [List.mem_map]
        constructor
        · rintro ⟨record, hin, rfl⟩
          exact ⟨(hmem record hin).bound, (hmem record hin).known⟩
        · rintro ⟨hfrom, hknown⟩
          rcases hget epoch with ⟨record, hsome, hat⟩ | ⟨-, hnoRow, hnoEvent⟩
          · exact ⟨record, mem_sortedValues.mpr ⟨epoch, hsome⟩, hat.epoch_eq⟩
          · rcases hknown with ⟨row, hrow, hvote, rfl⟩ | ⟨row, hrow, hvote, rfl⟩
            · exact absurd rfl (hnoRow row hrow hvote hfrom)
            · exact absurd rfl (hnoEvent row hrow hvote hfrom)
      settlements := fun record hin => (hmem record hin).settlements
      present := fun record hin => (hmem record hin).present
      absent := fun record hin => (hmem record hin).absent }

/-- What the function returns, with a bound or without. -/
theorem eventHistory_of_run {bound : Option Nat} {records : List EventEpochRecord}
    (h : getEventsWithContext scan iteration db voteAccount bound = some records) :
    EventHistory db voteAccount (bound.getD (defaultFromEpoch db.toDatabase)) records := by
  obtain ⟨settlements, hsettlements, hrun⟩ := Option.bind_eq_some_iff.mp h
  obtain ⟨performances, hperformances, hrun⟩ := Option.bind_eq_some_iff.mp hrun
  obtain rfl := Option.some.inj hrun
  exact eventHistory_of_mapM iteration hsettlements hperformances

/-- **The history is the full join** of the two tables from the epoch on; the function fails
exactly if a selected number is no `u64`. -/
theorem eventHistory_or_error (scan iteration : Scan) (db : EventsDatabase)
    (voteAccount : String) (fromEpoch : Nat) :
    (Readable db voteAccount fromEpoch ∧ ∃ records,
        getEventsWithContext scan iteration db voteAccount (some fromEpoch) = some records ∧
        EventHistory db voteAccount fromEpoch records) ∨
      (¬ Readable db voteAccount fromEpoch ∧
        getEventsWithContext scan iteration db voteAccount (some fromEpoch) = none) := by
  have hread : Readable db voteAccount fromEpoch ↔ _ := readable_iff scan
  by_cases hreadable : Readable db voteAccount fromEpoch
  · obtain ⟨hsettlements, hperformances⟩ := hread.mp hreadable
    obtain ⟨settlements, hsettlements⟩ := Option.isSome_iff_exists.mp hsettlements
    obtain ⟨performances, hperformances⟩ := Option.isSome_iff_exists.mp hperformances
    refine Or.inl ⟨hreadable, _, ?_, eventHistory_of_mapM iteration hsettlements
      hperformances⟩
    simp only [getEventsWithContext, Option.getD_some, hsettlements, hperformances]
    rfl
  · refine Or.inr ⟨hreadable, ?_⟩
    rw [Option.eq_none_iff_forall_ne_some]
    intro records hrun
    obtain ⟨settlements, hsettlements, hrun⟩ := Option.bind_eq_some_iff.mp hrun
    obtain ⟨performances, hperformances, -⟩ := Option.bind_eq_some_iff.mp hrun
    refine hreadable (hread.mpr ⟨?_, ?_⟩)
    · exact Option.isSome_iff_exists.mpr ⟨settlements, hsettlements⟩
    · exact Option.isSome_iff_exists.mpr ⟨performances, hperformances⟩

/-- The function fails exactly if a selected number is no `u64`. -/
theorem isSome_getEventsWithContext {bound : Option Nat} :
    (getEventsWithContext scan iteration db voteAccount bound).isSome ↔
      Readable db voteAccount (bound.getD (defaultFromEpoch db.toDatabase)) := by
  rw [readable_iff scan]
  cases hsettlements : (settlementRows scan db voteAccount
      (bound.getD (defaultFromEpoch db.toDatabase))).mapM settlementEntry with
  | none => simp [getEventsWithContext, hsettlements]
  | some settlements =>
    cases hperformances : (performanceRows scan db voteAccount
        (bound.getD (defaultFromEpoch db.toDatabase))).mapM performanceEntry with
    | none => simp [getEventsWithContext, hsettlements, hperformances]
    | some performances => simp [getEventsWithContext, hsettlements, hperformances]

/-- **Settlements do not touch the performance**: with other settlements, the records of an
epoch have the same performance, uptime and downtime. -/
theorem performance_unchanged {db' : EventsDatabase} {fromEpoch' : Nat}
    {records records' : List EventEpochRecord}
    (hvalidators : db'.validators = db.validators) (hepochs : db'.epochs = db.epochs)
    (h : EventHistory db voteAccount fromEpoch records)
    (h' : EventHistory db' voteAccount fromEpoch' records')
    {record record' : EventEpochRecord} (hrecord : record ∈ records) (hrecord' : record' ∈ records')
    (hepoch : record.epoch = record'.epoch) :
    record.performance = record'.performance ∧ record.uptimePct = record'.uptimePct ∧
      record.downtime = record'.downtime ∧ record.epochEndAt = record'.epochEndAt := by
  by_cases hrow : ∃ row ∈ db.validators, row.voteAccount = voteAccount ∧ row.epoch = record.epoch
  · obtain ⟨row, hrow, hvote, hof⟩ := hrow
    have hp := h.present record hrecord row hrow hvote hof
    have hp' := h'.present record' hrecord' row (hvalidators ▸ hrow) hvote (hof.trans hepoch)
    refine ⟨hp.performance.trans hp'.performance.symm, hp.uptimePct.trans hp'.uptimePct.symm,
      Option.some.inj (hp.downtime.symm.trans hp'.downtime), ?_⟩
    rw [hp.epochEndAt, hp'.epochEndAt, hepochs]
  · have hnone : ∀ row ∈ db.validators, row.voteAccount = voteAccount →
        row.epoch ≠ record.epoch := fun row hmem hvote hof => hrow ⟨row, hmem, hvote, hof⟩
    have ha := h.absent record hrecord hnone
    have ha' := h'.absent record' hrecord' (hvalidators.symm ▸ hepoch ▸ hnone)
    exact ⟨ha.performance.trans ha'.performance.symm, ha.uptimePct.trans ha'.uptimePct.symm,
      ha.downtime.trans ha'.downtime.symm, ha.epochEndAt.trans ha'.epochEndAt.symm⟩

end History

/-- The validator of `openDatabase` in its epoch 500, with settlements in the epochs 500 and
501. -/
def settledDatabase : EventsDatabase where
  toDatabase := openDatabase
  events :=
    { rows := [⟨⟨501, "vote", "reason", "meta"⟩, 1, 7, 0, 0⟩,
        ⟨⟨500, "vote", "reason", "meta"⟩, 2, 8, 0, 0⟩]
      nextId := 3
      unique := by decide }
  validatorsKey := by
    unfold PrimaryKey
    decide
  epochsKey := List.nodup_nil

/-- The epoch 500 is open, so its row has no uptime yet: the record has the performance only. -/
theorem settledDatabase_history : ∃ records record row,
    getEventsWithContext .sequential .sequential settledDatabase "vote" (some 0) = some records ∧
      record ∈ records ∧ row ∈ settledDatabase.validators ∧ row.voteAccount = "vote" ∧
      row.epoch = record.epoch ∧ record.performance.isSome ∧ record.uptimePct = none ∧
      record.downtime = none := by
  have hrun : (getEventsWithContext .sequential .sequential settledDatabase "vote" (some 0)).map
      (fun records => records.map fun record =>
        (record.epoch, record.performance.isSome, record.uptimePct, record.downtime)) =
      some [(500, true, none, none), (501, false, none, none)] := by decide
  have hrows : ∃ row ∈ settledDatabase.validators, row.voteAccount = "vote" ∧ row.epoch = 500 := by
    decide
  obtain ⟨records, hget, hviews⟩ := Option.map_eq_some_iff.mp hrun
  obtain ⟨row, hrow, hvote, hepoch⟩ := hrows
  cases records with
  | nil => cases hviews
  | cons record rest =>
    have hview := (List.cons.inj hviews).1
    simp only [Prod.mk.injEq] at hview
    obtain ⟨hrecord, hperformance, huptime, hdowntime⟩ := hview
    exact ⟨_, record, row, hget, List.mem_cons_self, hrow, hvote, hepoch.trans hrecord.symm,
      hperformance, huptime, hdowntime⟩

/-! ## The default window -/

section DefaultWindow

variable {scan iteration : Scan} {db : EventsDatabase} {versions : List VersionRow}
variable {voteAccount : String} {lastEpoch : UInt64} {records : List EventEpochRecord}

/-- The loaders of the cache select the rows of these epochs. -/
structure LoadersSelect (scan : Scan) (db : Database) (versions : List VersionRow)
    (epochs : Nat) (window : Nat → Prop) : Prop where
  validators : ∀ row, row ∈ validatorsRows scan epochs db ↔ row ∈ db.validators ∧ window row.epoch
  uptimes : ∀ row, row ∈ (uptimesQuery scan epochs db).map Prod.fst ↔
    row ∈ db.uptimes ∧ window row.epoch
  versions : ∀ row, row ∈ versionsQuery scan epochs db versions ↔
    row ∈ versions ∧ window row.epoch
  commissions : ∀ row, row ∈ commissionsQuery scan epochs db ↔
    (∃ joined ∈ joinEpochs ChangeRow.epoch db.commissions db.epochs,
      window joined.1.epoch ∧ recordedUnionRow joined = row) ∨
    (∃ joined ∈ joinEpochs ValidatorsRow.epoch db.validators db.epochs,
      window joined.1.epoch ∧ effectiveUnionRow joined = some row)

theorem inLastEpochs_iff {db : Database} {epochs epoch last : Nat}
    (hlast : (db.clusterInfo.map ClusterInfoRow.epoch).max? = some last) :
    inLastEpochs db epochs epoch ↔ last < epoch + epochs := by
  unfold inLastEpochs
  rw [hlast, Option.any_some, decide_eq_true_iff]
  omega

/-- The four loaders agree on the epochs after `last_epoch - epochs`. -/
theorem loadersSelect {db : Database} {epochs last : Nat}
    (hlast : (db.clusterInfo.map ClusterInfoRow.epoch).max? = some last) :
    LoadersSelect scan db versions epochs fun epoch => last < epoch + epochs where
  validators row := by
    rw [mem_validatorsRows, displayed_iff, inLastEpochs_iff hlast]
  uptimes row := by
    rw [mem_uptimesQuery, inLastEpochs_iff hlast]
  versions row := by
    rw [mem_versionsQuery, inLastEpochs_iff hlast]
  commissions row := by
    simp only [mem_commissionsQuery, inLastEpochs_iff hlast]

/-- The vote account has a row in the epoch. -/
def HasEpoch (db : EventsDatabase) (voteAccount : String) (epoch : Nat) : Prop :=
  (∃ row ∈ db.validators, row.voteAccount = voteAccount ∧ row.epoch = epoch) ∨
    ∃ row ∈ db.events.rows, row.voteAccount = voteAccount ∧ row.epoch = epoch

theorem defaultFromEpoch_eq
    (hlast : (db.clusterInfo.map ClusterInfoRow.epoch).max? = some lastEpoch.toNat) :
    defaultFromEpoch db.toDatabase = lastEpoch.toNat - 80 := by
  unfold defaultFromEpoch
  rw [hlast, Option.bind_some, decimalToU64_natCast lastEpoch.toNat_lt]
  rfl

/-- Without a bound, the function takes the default one. -/
theorem eventHistory_default
    (h : getEventsWithContext scan iteration db voteAccount none = some records) :
    EventHistory db voteAccount (defaultFromEpoch db.toDatabase) records :=
  eventHistory_of_run h

/-- **The default window** of the event history is that of the loaders exactly if the vote
account has nothing in the epoch `last_epoch - 80`. -/
theorem defaultWindow_iff
    (hlast : (db.clusterInfo.map ClusterInfoRow.epoch).max? = some lastEpoch.toNat)
    (hvalidators : ∀ row ∈ db.validators, row.epoch ≤ lastEpoch.toNat)
    (hevents : ∀ row ∈ db.events.rows, row.epoch ≤ lastEpoch.toNat)
    (h : getEventsWithContext scan iteration db voteAccount none = some records) :
    LoadersSelect scan db.toDatabase versions defaultCacheEpochs
        (fun epoch => lastEpoch.toNat < epoch + 80) ∧
      ((∀ record ∈ records,
          lastEpoch.toNat < record.epoch + 80 ∧ record.epoch ≤ lastEpoch.toNat) ↔
        lastEpoch.toNat < 80 ∨ ¬ HasEpoch db voteAccount (lastEpoch.toNat - 80)) := by
  refine ⟨loadersSelect hlast, ?_⟩
  have hhistory := eventHistory_default h
  rw [defaultFromEpoch_eq hlast] at hhistory
  constructor
  · intro hwindow
    by_contra hneither
    rw [not_or, not_lt, not_not] at hneither
    obtain ⟨hle, hhas⟩ := hneither
    -- the bound is inclusive
    obtain ⟨record, hrecord, hepoch⟩ := List.mem_map.mp
      ((hhistory.epochs (lastEpoch.toNat - 80)).mpr ⟨le_rfl, hhas⟩)
    have hlt := (hwindow record hrecord).1
    omega
  · intro hcondition record hrecord
    obtain ⟨hbound, hhas⟩ := (hhistory.epochs record.epoch).mp (List.mem_map_of_mem hrecord)
    refine ⟨?_, ?_⟩
    · rcases hcondition with hyoung | hnothing
      · omega
      · have hne : record.epoch ≠ lastEpoch.toNat - 80 := fun heq => hnothing (heq ▸ hhas)
        omega
    · rcases hhas with ⟨row, hrow, -, hepoch⟩ | ⟨row, hrow, -, hepoch⟩
      · exact hepoch ▸ hvalidators row hrow
      · exact hepoch ▸ hevents row hrow

end DefaultWindow

/-- The validator of `openDatabase` in the given epochs; the last epoch is 100. -/
def windowTables (epochs : List Nat) : Database :=
  { openDatabase with
    validators := openDatabase.validators.flatMap fun row => epochs.map fun epoch =>
      { row with epoch := epoch }
    clusterInfo := [⟨100, 1000, 0⟩] }

def withinWindow : EventsDatabase where
  toDatabase := windowTables [21, 100]
  events := EventsTable.empty
  validatorsKey := by
    unfold PrimaryKey
    decide
  epochsKey := List.nodup_nil

/-- The last 80 epochs are those from 21 to 100. -/
theorem defaultWindow_iff_within : ∃ records,
    getEventsWithContext .sequential .sequential withinWindow "vote" none = some records ∧
      LoadersSelect .sequential withinWindow.toDatabase [] 80 (fun epoch => 100 < epoch + 80) ∧
      ∀ record ∈ records, 100 < record.epoch + 80 ∧ record.epoch ≤ 100 := by
  obtain ⟨records, hrun⟩ := Option.isSome_iff_exists.mp
    (show (getEventsWithContext .sequential .sequential withinWindow "vote" none).isSome by
      decide)
  have hlast : (withinWindow.clusterInfo.map ClusterInfoRow.epoch).max? =
      some (100 : UInt64).toNat := by decide
  obtain ⟨hloaders, hiff⟩ := defaultWindow_iff hlast (by decide) (by decide) hrun
  refine ⟨records, hrun, hloaders, hiff.mpr (Or.inr ?_)⟩
  unfold HasEpoch
  decide

def beyondWindow : EventsDatabase where
  toDatabase := windowTables [20, 100]
  events := EventsTable.empty
  validatorsKey := by
    unfold PrimaryKey
    decide
  epochsKey := List.nodup_nil

/-- The history has a record of the epoch 20, which is the 81st epoch. -/
theorem beyondWindow_history :
    (getEventsWithContext .sequential .sequential beyondWindow "vote" none).map
        (fun records => records.map EventEpochRecord.epoch) = some [20, 100] ∧
      (validatorsRows .sequential defaultCacheEpochs beyondWindow.toDatabase).map
        ValidatorsRow.epoch = [100] ∧
      (beyondWindow.clusterInfo.map ClusterInfoRow.epoch).max? = some 100 :=
  ⟨by decide, by decide, by decide⟩

end DelegationStrategy.Store
