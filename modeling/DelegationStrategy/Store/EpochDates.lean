import DelegationStrategy.Store.EpochIntervals
import DelegationStrategy.Store.Scoring

/-!
# Epochs of dates

`resolve_epoch_for_date` (`store/src/validators_events.rs`) finds an epoch for a date by one end
of the recorded epochs: the smallest one that ends on or after the date, or the largest one that
ends on or before it. As the intervals of the epochs tile the time line (`Tiled`), either epoch
divides the recorded epochs at the date (`resolveEpochForDate_spec`).
-/

namespace DelegationStrategy.Store

open DelegationStrategy.Lib DelegationStrategy.Collect

/-- `WHERE end_at {cmp} $1`. -/
def endsFrom (date : Timestamp) (fromDate : Bool) (row : EpochsRow) : Bool :=
  if fromDate then date ≤ row.endAt else row.endAt ≤ date

/-- `SELECT epoch FROM epochs WHERE … ORDER BY epoch {order} LIMIT 1`. -/
def epochForDate (db : Database) (date : Timestamp) (fromDate : Bool) : Option Nat :=
  let epochs := (db.epochs.filter (endsFrom date fromDate)).map EpochsRow.epoch
  if fromDate then epochs.min? else epochs.max?

/-- `resolve_epoch_for_date`; the outer `none` is an error. -/
def resolveEpochForDate (db : Database) (date : Timestamp) (fromDate : Bool) :
    Option (Option Nat) :=
  match epochForDate db date fromDate with
  | none => some none
  | some epoch => (decimalToU64 epoch).map some

/-- The epoch divides the recorded epochs at the date. -/
def Divides (db : Database) (date : Timestamp) (fromDate : Bool) (epoch : Nat) : Prop :=
  db.Recorded epoch ∧ ∀ row ∈ db.epochs,
    (endsFrom date fromDate row ↔ if fromDate then epoch ≤ row.epoch else row.epoch ≤ epoch)

section Dates

variable {db : Database} {date : Timestamp} {fromDate : Bool}

/-- Later epochs end later. -/
theorem Tiled.endAt_le (htiled : Tiled db) {row row' : EpochsRow} (hrow : row ∈ db.epochs)
    (hrow' : row' ∈ db.epochs) (hle : row.epoch ≤ row'.epoch) : row.endAt ≤ row'.endAt := by
  rcases hle.lt_or_eq with hlt | heq
  · exact (htiled.apart row hrow row' hrow' hlt).trans (htiled.ordered row' hrow')
  · rw [List.inj_on_of_nodup_map htiled.distinct hrow hrow' heq]

/-- The intervals are those of the records alone. -/
theorem Tiled.of_epochs {db' : Database} (htiled : Tiled db) (h : db'.epochs = db.epochs) :
    Tiled db' where
  ordered := h ▸ htiled.ordered
  distinct := h ▸ htiled.distinct
  apart := h ▸ htiled.apart
  adjacent := h ▸ htiled.adjacent
  duration := h ▸ htiled.duration

/-- The epoch of the query has a row that ends on the right side of the date, and no other such
row comes before it in the order of the query. -/
theorem epochForDate_eq_some {epoch : Nat} (h : epochForDate db date fromDate = some epoch) :
    (∃ row ∈ db.epochs, endsFrom date fromDate row ∧ row.epoch = epoch) ∧
      ∀ row ∈ db.epochs, endsFrom date fromDate row →
        if fromDate then epoch ≤ row.epoch else row.epoch ≤ epoch := by
  have hmem : ∀ n, n ∈ (db.epochs.filter (endsFrom date fromDate)).map EpochsRow.epoch →
      ∃ row ∈ db.epochs, endsFrom date fromDate row ∧ row.epoch = n := by
    intro n hn
    obtain ⟨row, hrow, hepoch⟩ := List.mem_map.mp hn
    obtain ⟨hrow, hends⟩ := List.mem_filter.mp hrow
    exact ⟨row, hrow, hends, hepoch⟩
  have hin : ∀ row ∈ db.epochs, endsFrom date fromDate row →
      row.epoch ∈ (db.epochs.filter (endsFrom date fromDate)).map EpochsRow.epoch :=
    fun row hrow hends => List.mem_map_of_mem (List.mem_filter.mpr ⟨hrow, hends⟩)
  unfold epochForDate at h
  cases fromDate with
  | true =>
    obtain ⟨hepoch, hmin⟩ := List.min?_eq_some_iff.mp h
    exact ⟨hmem epoch hepoch, fun row hrow hends => hmin _ (hin row hrow hends)⟩
  | false =>
    obtain ⟨hepoch, hmax⟩ := List.max?_eq_some_iff.mp h
    exact ⟨hmem epoch hepoch, fun row hrow hends => hmax _ (hin row hrow hends)⟩

theorem epochForDate_eq_none_iff :
    epochForDate db date fromDate = none ↔ ∀ row ∈ db.epochs, ¬ endsFrom date fromDate row := by
  unfold epochForDate
  cases fromDate with
  | true =>
    rw [if_pos rfl, List.min?_eq_none_iff, List.map_eq_nil_iff, List.filter_eq_nil_iff]
  | false =>
    rw [if_neg Bool.false_ne_true, List.max?_eq_none_iff, List.map_eq_nil_iff,
      List.filter_eq_nil_iff]

/-- **The epoch of a date** divides the recorded epochs; there is none exactly if no recorded
epoch ends on the right side of the date. -/
theorem resolveEpochForDate_spec (htiled : Tiled db) (hfits : ∀ row ∈ db.epochs, row.epoch < 2 ^ 64)
    (date : Timestamp) (fromDate : Bool) :
    (∃ epoch, resolveEpochForDate db date fromDate = some (some epoch) ∧
        Divides db date fromDate epoch) ∨
      (resolveEpochForDate db date fromDate = some none ∧
        ∀ row ∈ db.epochs, ¬ endsFrom date fromDate row) := by
  cases h : epochForDate db date fromDate with
  | none =>
    refine Or.inr ⟨?_, epochForDate_eq_none_iff.mp h⟩
    unfold resolveEpochForDate
    rw [h]
  | some epoch =>
    obtain ⟨⟨found, hfound, hends, rfl⟩, hfirst⟩ := epochForDate_eq_some h
    refine Or.inl ⟨found.epoch, ?_, List.mem_map_of_mem hfound, fun row hrow =>
      ⟨hfirst row hrow, fun hle => ?_⟩⟩
    · unfold resolveEpochForDate
      rw [h]
      show (decimalToU64 found.epoch).map some = _
      rw [decimalToU64_natCast (hfits found hfound)]
      rfl
    · -- the rows beyond the found one end beyond it
      cases fromDate with
      | true =>
        have hdate : date ≤ found.endAt := by simpa [endsFrom] using hends
        have hend := htiled.endAt_le hfound hrow hle
        simpa [endsFrom] using hdate.trans hend
      | false =>
        have hdate : found.endAt ≤ date := by simpa [endsFrom] using hends
        have hend := htiled.endAt_le hrow hfound hle
        simpa [endsFrom] using hend.trans hdate

/-- One epoch at most divides the recorded ones. -/
theorem Divides.unique {epoch epoch' : Nat} (h : Divides db date fromDate epoch)
    (h' : Divides db date fromDate epoch') : epoch = epoch' := by
  obtain ⟨row, hrow, hepoch⟩ := List.mem_map.mp h.1
  obtain ⟨row', hrow', hepoch'⟩ := List.mem_map.mp h'.1
  have hself := h.2 row hrow
  have hother := h.2 row' hrow'
  have hself' := h'.2 row' hrow'
  have hother' := h'.2 row hrow
  subst hepoch hepoch'
  cases fromDate with
  | true =>
    have hle := hother.mp (hself'.mpr le_rfl)
    have hge := hother'.mp (hself.mpr le_rfl)
    exact Nat.le_antisymm hle hge
  | false =>
    have hle := hother.mp (hself'.mpr le_rfl)
    have hge := hother'.mp (hself.mpr le_rfl)
    exact Nat.le_antisymm hge hle

end Dates

/-- The epochs of the records are those of the history. -/
theorem EpochsInv.epoch_lt {history : List ClusterInfoRow} {db : Database} {bound : Nat}
    (hinv : EpochsInv history db) (hfits : ∀ c ∈ history, c.epoch < bound) :
    ∀ row ∈ db.epochs, row.epoch < bound := by
  intro row hrow
  obtain ⟨⟨c, hc, hepoch, -⟩, -⟩ := hinv.origin row hrow
  exact hepoch ▸ hfits c hc

end DelegationStrategy.Store
