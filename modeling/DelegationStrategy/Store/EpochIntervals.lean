import DelegationStrategy.Lib.Rounding
import DelegationStrategy.Lib.Trace
import DelegationStrategy.Store.CloseEpoch
import Mathlib.Data.Rat.Floor
import Mathlib.Tactic.Positivity

/-!
# The intervals of the epochs

`create_epoch_record` takes the end of an epoch from the last row of the epoch in
`cluster_info`, and its start from the end of the record of the previous epoch or,
without one, from the first row of the epoch itself. Epochs may be closed in any order
and some of them never, while `store_cluster_info` adds rows in between.

When the rows of an epoch are earlier than those of every later one (`Chronological`),
the origin of the two ends (`Origin`) is all that is needed: an end is the time of a
row of its epoch, a start is one or is the end of the record before. From it the
intervals are in order and overlap in an end point at most (`Tiled`).
-/

namespace DelegationStrategy.Store

open DelegationStrategy.Lib DelegationStrategy.Collect

/-! ## The commands -/

/-- `store_cluster_info`. -/
def storeClusterInfo (snapshot : ValidatorsPerformanceSnapshot) (db : Database) : Database :=
  { db with clusterInfo := db.clusterInfo ++
      [⟨snapshot.epoch, snapshot.transactionCount, snapshot.createdAt⟩] }

inductive EpochStep where
  | storeClusterInfo (snapshot : ValidatorsPerformanceSnapshot)
  | createEpochRecord (epoch : Nat) (clusterInflation : ClusterInflation)

/-- A statement that fails changes nothing. -/
def epochStep (db : Database) : EpochStep → Option Database
  | .storeClusterInfo snapshot => some (storeClusterInfo snapshot db)
  | .createEpochRecord epoch clusterInflation =>
    match createEpochRecord epoch clusterInflation db with
    | .ok db' => some db'
    | .error _ => some db

/-! ## `get_apy_calculators` -/

/-- A `NUMERIC` as an `INTEGER`: to the nearest, a midpoint away from zero. -/
def numericToInteger (x : ℚ) : Int := roundHalfAway x

/-- The column `duration` of the query. -/
def apyDuration (row : EpochsRow) : Int := numericToInteger (seconds (row.endAt - row.startAt))

/-- `row.get::<_, i32>("duration").try_into()?`, a `u64`. -/
def readDuration (row : EpochsRow) : Option Nat :=
  if 0 ≤ apyDuration row then some (apyDuration row).toNat else none

theorem seconds_nonneg {t : Timestamp} (h : 0 ≤ t) : 0 ≤ seconds t := by
  unfold seconds
  have hcast : (0 : ℚ) ≤ ((t : Int) : ℚ) := by exact_mod_cast h
  positivity

theorem numericToInteger_nonneg {x : ℚ} (h : 0 ≤ x) : 0 ≤ numericToInteger x :=
  isRounding_roundHalfAway.round_nonneg h

theorem apyDuration_nonneg {row : EpochsRow} (h : row.startAt ≤ row.endAt) :
    0 ≤ apyDuration row :=
  numericToInteger_nonneg (seconds_nonneg (Int.sub_nonneg_of_le h))

/-! ## Intervals -/

/-- All rows of an epoch are earlier than all rows of every later epoch. -/
def Chronological (history : List ClusterInfoRow) : Prop :=
  ∀ c ∈ history, ∀ c' ∈ history, c.epoch < c'.epoch → c.createdAt < c'.createdAt

/-- The intervals of the records tile the time line; the table is in the order in which
the epochs were closed. -/
structure Tiled (db : Database) : Prop where
  ordered : ∀ row ∈ db.epochs, row.startAt ≤ row.endAt
  distinct : (db.epochs.map EpochsRow.epoch).Nodup
  apart : ∀ row ∈ db.epochs, ∀ row' ∈ db.epochs, row.epoch < row'.epoch →
    row.endAt ≤ row'.startAt
  adjacent : db.epochs.Pairwise fun earlier later =>
    earlier.epoch + 1 = later.epoch → later.startAt = earlier.endAt
  duration : ∀ row ∈ db.epochs, (readDuration row).isSome

/-- The origin of the ends of a record. -/
structure Origin (history : List ClusterInfoRow) (epochs : List EpochsRow) (row : EpochsRow) :
    Prop where
  endAt : ∃ c ∈ history, c.epoch = row.epoch ∧ c.createdAt = row.endAt
  startAt : (∃ c ∈ history, c.epoch = row.epoch ∧ c.createdAt = row.startAt ∧
      row.startAt ≤ row.endAt) ∨
    ∃ previous ∈ epochs, previous.epoch + 1 = row.epoch ∧ previous.endAt = row.startAt

/-- What holds of the tables throughout a run over a history. -/
structure EpochsInv (history : List ClusterInfoRow) (db : Database) : Prop where
  clusterInfo : ∀ c ∈ db.clusterInfo, c ∈ history
  origin : ∀ row ∈ db.epochs, Origin history db.epochs row
  distinct : (db.epochs.map EpochsRow.epoch).Nodup
  adjacent : db.epochs.Pairwise fun earlier later =>
    earlier.epoch + 1 = later.epoch → later.startAt = earlier.endAt

/-- In chronological order the origins put the ends in order. -/
theorem Origin.le {history : List ClusterInfoRow} {db : Database} (hinv : EpochsInv history db)
    (hchrono : Chronological history) {row : EpochsRow} (hrow : row ∈ db.epochs) :
    row.startAt ≤ row.endAt := by
  obtain ⟨⟨c, hc, hepoch, hend⟩, hstart⟩ := hinv.origin row hrow
  rcases hstart with ⟨-, -, -, -, hle⟩ | ⟨previous, hprevious, hnext, hstart⟩
  · exact hle
  · obtain ⟨⟨c', hc', hepoch', hend'⟩, -⟩ := hinv.origin previous hprevious
    have hlt := hchrono c' hc' c hc (by omega)
    rw [← hstart, ← hend', ← hend]
    exact hlt.le

/-- The interval of an epoch ends before that of a later epoch starts. -/
theorem Origin.apart {history : List ClusterInfoRow} {db : Database}
    (hinv : EpochsInv history db) (hchrono : Chronological history) {row row' : EpochsRow}
    (hrow : row ∈ db.epochs) (hrow' : row' ∈ db.epochs) (hlt : row.epoch < row'.epoch) :
    row.endAt ≤ row'.startAt := by
  obtain ⟨⟨c, hc, hepoch, hend⟩, -⟩ := hinv.origin row hrow
  obtain ⟨-, hstart⟩ := hinv.origin row' hrow'
  rcases hstart with ⟨c', hc', hepoch', hstart', -⟩ | ⟨previous, hprevious, hnext, hstart'⟩
  · have hlt' := hchrono c hc c' hc' (by omega)
    rw [← hend, ← hstart']
    exact hlt'.le
  · by_cases heq : row.epoch = previous.epoch
    · -- the later epoch starts with the end of this very record
      obtain rfl := List.inj_on_of_nodup_map hinv.distinct hrow hprevious heq
      exact hstart'.le
    · obtain ⟨⟨c', hc', hepoch', hend'⟩, -⟩ := hinv.origin previous hprevious
      have hlt' := hchrono c hc c' hc' (by omega)
      rw [← hend, ← hstart', ← hend']
      exact hlt'.le

theorem tiled_of_inv {history : List ClusterInfoRow} {db : Database}
    (hinv : EpochsInv history db) (hchrono : Chronological history) : Tiled db where
  ordered _ hrow := Origin.le hinv hchrono hrow
  distinct := hinv.distinct
  apart _ hrow _ hrow' hlt := Origin.apart hinv hchrono hrow hrow' hlt
  adjacent := hinv.adjacent
  duration row hrow := by
    have hnonneg := apyDuration_nonneg (Origin.le hinv hchrono hrow)
    unfold readDuration
    rw [if_pos hnonneg]
    rfl

/-! ## The steps -/

section Steps

variable {history : List ClusterInfoRow} {db db' : Database}

/-- The origin of the ends of a new record. -/
theorem epochRecord_origin {epoch : Nat} {clusterInflation : ClusterInflation} {row : EpochsRow}
    (hinv : EpochsInv history db) (h : epochRecord epoch clusterInflation db = some row) :
    Origin history db.epochs row ∧
      ∀ earlier ∈ db.epochs, earlier.epoch + 1 = row.epoch → row.startAt = earlier.endAt := by
  have hepoch := epochRecord_epoch h
  unfold epochRecord at h
  simp only [Option.bind_eq_bind, Option.bind_eq_some_iff, Option.some.injEq] at h
  obtain ⟨startAt, hstart, endAt, hend, -, -, -, -, rfl⟩ := h
  obtain ⟨hendMem, hendMax⟩ := List.max?_eq_some_iff.mp hend
  obtain ⟨c, hc, hcend⟩ := List.mem_map.mp hendMem
  obtain ⟨hcmem, hcepoch⟩ := List.mem_filter.mp hc
  have horigin : ∃ c ∈ history, c.epoch = epoch ∧ c.createdAt = endAt :=
    ⟨c, hinv.clusterInfo c hcmem, by simpa using hcepoch, hcend⟩
  cases hprevious : ((db.epochs.filter fun r => r.epoch + 1 = epoch).map EpochsRow.endAt).max? with
  | some latest =>
    rw [hprevious, Option.some_or] at hstart
    obtain rfl := Option.some.inj hstart
    obtain ⟨previous, hmem, hlatest⟩ := List.mem_map.mp (List.max?_eq_some_iff.mp hprevious).1
    obtain ⟨hrow, hnext⟩ := List.mem_filter.mp hmem
    have hnext : previous.epoch + 1 = epoch := by simpa using hnext
    refine ⟨⟨horigin, Or.inr ⟨previous, hrow, hnext, hlatest⟩⟩, fun earlier hearlier h => ?_⟩
    -- there is one record for the epoch before
    have hsame : earlier.epoch = previous.epoch := Nat.succ_injective (h.trans hnext.symm)
    obtain rfl := List.inj_on_of_nodup_map hinv.distinct hearlier hrow hsame
    exact hlatest.symm
  | none =>
    rw [hprevious, Option.none_or] at hstart
    obtain ⟨hstartMem, -⟩ := List.min?_eq_some_iff.mp hstart
    obtain ⟨c', hc', hcstart⟩ := List.mem_map.mp hstartMem
    obtain ⟨hcmem', hcepoch'⟩ := List.mem_filter.mp hc'
    refine ⟨⟨horigin, Or.inl ⟨c', hinv.clusterInfo c' hcmem', by simpa using hcepoch', hcstart,
      hendMax startAt hstartMem⟩⟩, fun earlier hearlier h => ?_⟩
    have hnone := List.max?_eq_none_iff.mp hprevious
    have hin : earlier ∈ db.epochs.filter fun r => r.epoch + 1 = epoch :=
      List.mem_filter.mpr ⟨hearlier, by simpa using h⟩
    rw [List.map_eq_nil_iff.mp hnone] at hin
    cases hin

theorem epochsInv_createEpochRecord {epoch : Nat} {clusterInflation : ClusterInflation}
    (hinv : EpochsInv history db) (h : createEpochRecord epoch clusterInflation db = .ok db') :
    EpochsInv history db' := by
  obtain ⟨row, hrow, hnew, rfl⟩ := createEpochRecord_eq_ok.mp h
  obtain ⟨horigin, hadjacent⟩ := epochRecord_origin hinv hrow
  have hepoch := epochRecord_epoch hrow
  -- a record before stays a record before
  have hgrow : ∀ {r : EpochsRow}, Origin history db.epochs r →
      Origin history (db.epochs ++ [row]) r := fun ho =>
    ⟨ho.endAt, ho.startAt.imp_right fun ⟨p, hp, hrest⟩ => ⟨p, List.mem_append_left _ hp, hrest⟩⟩
  refine ⟨hinv.clusterInfo, fun r hr => ?_, ?_, ?_⟩
  · rcases List.mem_append.mp hr with hr | hr
    · exact hgrow (hinv.origin r hr)
    · obtain rfl := List.mem_singleton.mp hr
      exact hgrow horigin
  · show ((db.epochs ++ [row]).map EpochsRow.epoch).Nodup
    rw [List.map_append, List.nodup_append]
    refine ⟨hinv.distinct, List.nodup_singleton _, ?_⟩
    rintro e he e' he' rfl
    obtain rfl := List.mem_singleton.mp he'
    rw [hepoch] at he
    exact hnew he
  · refine List.pairwise_append.mpr ⟨hinv.adjacent, List.pairwise_singleton _ _, ?_⟩
    intro earlier hearlier later hlater hnext
    obtain rfl := List.mem_singleton.mp hlater
    exact hadjacent earlier hearlier hnext

/-- The rows that a step adds belong to the history. -/
def AddsOnly (history : List ClusterInfoRow) : EpochStep → Prop
  | .storeClusterInfo snapshot =>
    ⟨snapshot.epoch, snapshot.transactionCount, snapshot.createdAt⟩ ∈ history
  | .createEpochRecord _ _ => True

theorem epochsInv_step {a : EpochStep} (hinv : EpochsInv history db) (ha : AddsOnly history a)
    (h : epochStep db a = some db') : EpochsInv history db' := by
  cases a with
  | storeClusterInfo snapshot =>
    obtain rfl := Option.some.inj h
    refine ⟨fun c hc => ?_, hinv.origin, hinv.distinct, hinv.adjacent⟩
    rcases List.mem_append.mp hc with hc | hc
    · exact hinv.clusterInfo c hc
    · obtain rfl := List.mem_singleton.mp hc
      exact ha
  | createEpochRecord epoch clusterInflation =>
    unfold epochStep at h
    cases hrun : createEpochRecord epoch clusterInflation db with
    | ok db₁ =>
      simp only [hrun] at h
      obtain rfl := Option.some.inj h
      exact epochsInv_createEpochRecord hinv hrun
    | error e =>
      simp only [hrun] at h
      obtain rfl := Option.some.inj h
      exact hinv

end Steps

/-- **Epoch intervals tile the time line**: over a chronological history, whichever part
of it is in `cluster_info` at the start and however the other rows arrive between the
closings, and in whichever order epochs are closed. -/
theorem epochs_tiled (history : List ClusterInfoRow) (hchrono : Chronological history)
    (db : Database) (hempty : db.epochs = []) (hrows : ∀ c ∈ db.clusterInfo, c ∈ history)
    (steps : List EpochStep) (hadds : ∀ a ∈ steps, AddsOnly history a) :
    StatesAll epochStep Tiled db steps := by
  have hinit : EpochsInv history db := by
    refine ⟨hrows, ?_, ?_, ?_⟩
    · simp [hempty]
    · simp [hempty]
    · simp [hempty]
  have hok : StepsAll epochStep (fun _ a => AddsOnly history a) db steps :=
    StepsAll.of_forall fun a ha _ => hadds a ha
  refine (statesAll_of_stepsAll (fun s a s' hinv ha hstep => ?_) hinit hok).mono
    fun s hinv => tiled_of_inv hinv hchrono
  exact epochsInv_step hinv ha hstep

/-- The rows of two epochs. -/
def twoEpochs : List ClusterInfoRow :=
  [⟨11, 10, 0⟩, ⟨11, 30, 5 * minute⟩, ⟨12, 40, 6 * minute⟩, ⟨12, 60, 9 * minute⟩]

/-- Epoch 12 is closed before epoch 11. -/
theorem epochs_tiled_twoEpochs :
    StatesAll epochStep Tiled { openDatabase with clusterInfo := twoEpochs }
      [.createEpochRecord 12 ⟨500000000, 5, 15⟩, .createEpochRecord 11 ⟨500000000, 5, 15⟩] :=
  epochs_tiled twoEpochs (by unfold Chronological; decide) _ rfl (fun _ h => h) _
    (by simp [AddsOnly])

end DelegationStrategy.Store
