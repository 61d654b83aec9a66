import DelegationStrategy.Api.ScoreBreakdowns
import DelegationStrategy.Store.AggregatedFlat
import DelegationStrategy.Store.Histories
import DelegationStrategy.Store.ScoresPerEpoch

/-!
# Windows of epochs in unsigned arithmetic

The handlers of `/uptimes` and `/commissions` (`api/src/handlers`) keep the records whose epoch
is greater than `max_epoch - 20`, and `load_validators_aggregated_flat` (`store/src/utils.rs`)
starts its window at `last_epoch - min(last_epoch, epochs - 1)`. All of it is `u64`: a
difference below zero panics in a debug build and wraps in a release build.

- `historyHandler_iff`: the handlers return the last 20 epochs exactly if the cached history
  reaches the epoch 20; below it they panic, or return nothing.
- `flatParams_iff`: the window is the one of the integers exactly for `epochs` from 1 to
  `2 ^ 63 - 1`, and then it is the window of the query (`flatParams_eq`).
-/

namespace DelegationStrategy.Api

open DelegationStrategy.Lib DelegationStrategy.Collect DelegationStrategy.Store

/-- The build profile, which decides on overflow checks. -/
inductive Profile where
  | debug
  | release
  deriving DecidableEq, Repr

/-- `a - b` in `u64`; `none` if it panics. -/
def subU64 (profile : Profile) (a b : Nat) : Option Nat :=
  if b ≤ a then some (a - b)
  else match profile with
    | .debug => none
    | .release => some (a + 2 ^ 64 - b)

theorem subU64_of_le {profile : Profile} {a b : Nat} (h : b ≤ a) :
    subU64 profile a b = some (a - b) := if_pos h

theorem subU64_of_lt {profile : Profile} {a b : Nat} (h : a < b) :
    subU64 profile a b = match profile with
      | .debug => none
      | .release => some (a + 2 ^ 64 - b) := if_neg (by omega)

/-! ## The histories of a validator -/

/-- The validator is meant by the path: `vote_account` is its vote account or its identity. -/
def isAddressed (voteAccount : String) (e : String × ValidatorRecord) : Bool :=
  decide (e.2.identity = voteAccount ∨ e.2.voteAccount = voteAccount)

/-- What the handlers for histories do; the outer `none` is a panic. -/
def historyHandler {α : Type} (epoch : α → Nat) (epochStartAt : α → Timestamp)
    (defaultEpochs : Nat) (profile : Profile) (scan : Scan)
    (validators : Dict String ValidatorRecord) (histories : Dict String (List α))
    (voteAccount : String) (queryFromDate : Option Timestamp) :
    Option (Except ResponseError (List α)) :=
  match (scan.order validators.entries).find? (isAddressed voteAccount) with
  | some e =>
    match histories.get? e.1 with
    | some records =>
      match queryFromDate with
      | some queryFromDate =>
        some (.ok (records.filter fun v => queryFromDate < epochStartAt v))
      | none => do
        -- `max_by(…).unwrap()`
        let maxEpoch ← (records.map epoch).max?
        -- the closure subtracts at each of the records, and there is at least one
        let bound ← subU64 profile maxEpoch defaultEpochs
        some (.ok (records.filter fun v => bound < epoch v))
    | none => some (.error ⟨404, "Failed to fetch records!"⟩)
  | none => some (.error ⟨404, "Failed to fetch records!"⟩)

/-- `handler` of `uptimes.rs`. -/
def uptimesHandler := historyHandler UptimeRecord.epoch UptimeRecord.epochStartAt 20

/-- `handler` of `commissions.rs`. -/
def commissionsHandler := historyHandler CommissionRecord.epoch CommissionRecord.epochStartAt 20

/-- The path means a validator with a cached history of the greatest epoch. -/
structure CachedHistory {α : Type} (epoch : α → Nat) (scan : Scan)
    (validators : Dict String ValidatorRecord) (histories : Dict String (List α))
    (voteAccount : String) (records : List α) (maxEpoch : Nat) : Prop where
  known : ∃ e, (scan.order validators.entries).find? (isAddressed voteAccount) = some e ∧
    histories.get? e.1 = some records
  greatest : (records.map epoch).max? = some maxEpoch

/-- The records of the last epochs, counted in integers. -/
def lastRecords {α : Type} (epoch : α → Nat) (maxEpoch defaultEpochs : Nat) (records : List α) :
    List α :=
  records.filter fun v => (maxEpoch : Int) - defaultEpochs < epoch v

section Histories

variable {α : Type} {epoch : α → Nat} {epochStartAt : α → Timestamp} {defaultEpochs : Nat}
variable {profile : Profile} {scan : Scan} {validators : Dict String ValidatorRecord}
variable {histories : Dict String (List α)} {voteAccount : String} {records : List α}
variable {maxEpoch : Nat}

theorem historyHandler_eq
    (h : CachedHistory epoch scan validators histories voteAccount records maxEpoch) :
    historyHandler epoch epochStartAt defaultEpochs profile scan validators histories voteAccount
        none =
      (subU64 profile maxEpoch defaultEpochs).map fun bound =>
        .ok (records.filter fun v => bound < epoch v) := by
  obtain ⟨e, hfind, hget⟩ := h.known
  simp only [historyHandler, hfind, hget, h.greatest, Option.bind_eq_bind, Option.bind_some]
  cases subU64 profile maxEpoch defaultEpochs <;> rfl

/-- **The handlers return the last epochs** exactly if the history reaches that far: below, the
debug build panics, and the release build returns nothing. -/
theorem historyHandler_iff (hdefault : defaultEpochs < 2 ^ 64)
    (h : CachedHistory epoch scan validators histories voteAccount records maxEpoch) :
    historyHandler epoch epochStartAt defaultEpochs profile scan validators histories voteAccount
        none = some (.ok (lastRecords epoch maxEpoch defaultEpochs records)) ↔
      defaultEpochs ≤ maxEpoch := by
  rw [historyHandler_eq h]
  constructor
  · intro heq
    by_contra hlt
    rw [not_le] at hlt
    rw [subU64_of_lt hlt] at heq
    cases profile with
    | debug => cases heq
    | release =>
      have hlast := Except.ok.inj (Option.some.inj heq)
      obtain ⟨newest, hnewest, hepoch⟩ := List.mem_map.mp (List.max?_mem h.greatest)
      -- the newest record is of the last epochs, but not above the wrapped bound
      have hmem : newest ∈ lastRecords epoch maxEpoch defaultEpochs records :=
        List.mem_filter.mpr ⟨hnewest, decide_eq_true (by omega)⟩
      rw [← hlast] at hmem
      have hbound := of_decide_eq_true (List.mem_filter.mp hmem).2
      omega
  · intro hle
    rw [subU64_of_le hle, Option.map_some]
    congr 2
    refine List.filter_congr fun v _ => ?_
    rw [Bool.eq_iff_iff, decide_eq_true_iff, decide_eq_true_iff]
    omega

end Histories

/-! ## The window of the flat query -/

/-- `i64::try_from(n)` of a `u64`. -/
def tryIntoI64 (n : Nat) : Option Nat := if n < 2 ^ 63 then some n else none

/-- The parameters of the query of `load_validators_aggregated_flat`; `none` if it panics. -/
def flatParams (profile : Profile) (lastEpoch epochs : UInt64) : Option (Nat × Nat × Nat) := do
  let before ← subU64 profile epochs.toNat 1
  let first ← subU64 profile lastEpoch.toNat (min lastEpoch.toNat before)
  let count ← tryIntoI64 epochs.toNat
  some (first, lastEpoch.toNat, count)

/-- The parameters are those of the integers. -/
def ExactWindow (lastEpoch epochs : UInt64) (params : Option (Nat × Nat × Nat)) : Prop :=
  ∃ first last count, params = some (first, last, count) ∧
    (first : Int) = lastEpoch.toNat - min (lastEpoch.toNat : Int) (epochs.toNat - 1) ∧
      last = lastEpoch.toNat ∧ count = epochs.toNat

section Flat

variable {profile : Profile} {lastEpoch epochs : UInt64}

/-- Where nothing underflows, the parameters are the window that the query selects. -/
theorem flatParams_eq (hpos : 1 ≤ epochs.toNat) (hlt : epochs.toNat < 2 ^ 63) :
    flatParams profile lastEpoch epochs =
      some ((flatWindow lastEpoch.toNat epochs.toNat).1,
        (flatWindow lastEpoch.toNat epochs.toNat).2, epochs.toNat) := by
  have hcount : tryIntoI64 epochs.toNat = some epochs.toNat := if_pos hlt
  unfold flatParams
  simp only [subU64_of_le hpos, subU64_of_le (min_le_left _ _), hcount]
  rfl

/-- **The window** is that of the integers exactly for these numbers of epochs. -/
theorem flatParams_iff :
    ExactWindow lastEpoch epochs (flatParams profile lastEpoch epochs) ↔
      1 ≤ epochs.toNat ∧ epochs.toNat < 2 ^ 63 := by
  constructor
  · rintro ⟨first, last, count, hparams, hfirst, rfl, rfl⟩
    unfold flatParams at hparams
    obtain ⟨before, hbefore, hrest⟩ := Option.bind_eq_some_iff.mp hparams
    obtain ⟨first', hfirst', hrest⟩ := Option.bind_eq_some_iff.mp hrest
    obtain ⟨count, hcount, hsome⟩ := Option.bind_eq_some_iff.mp hrest
    have hlt : epochs.toNat < 2 ^ 63 := by
      by_contra hge
      have hnone : tryIntoI64 epochs.toNat = none := if_neg hge
      rw [hnone] at hcount
      cases hcount
    refine ⟨?_, hlt⟩
    by_contra hzero
    obtain rfl : first' = first := congrArg Prod.fst (Option.some.inj hsome)
    rw [subU64_of_le (min_le_left _ _)] at hfirst'
    have hdiff := Option.some.inj hfirst'
    have hlast := lastEpoch.toNat_lt
    omega
  · rintro ⟨hpos, hlt⟩
    refine ⟨_, _, _, flatParams_eq hpos hlt, ?_, rfl, rfl⟩
    show ((lastEpoch.toNat - min lastEpoch.toNat (epochs.toNat - 1) : Nat) : Int) = _
    omega

end Flat

/-! ## The windows of the API -/

/-- **The windows** in either build: where they are those of the integers. -/
theorem epochWindows_iff (profile : Profile) :
    (∀ scan validators uptimes voteAccount records maxEpoch,
      CachedHistory UptimeRecord.epoch scan validators uptimes voteAccount records maxEpoch →
        (uptimesHandler profile scan validators uptimes voteAccount none =
          some (.ok (lastRecords UptimeRecord.epoch maxEpoch 20 records)) ↔ 20 ≤ maxEpoch)) ∧
    (∀ scan validators commissions voteAccount records maxEpoch,
      CachedHistory CommissionRecord.epoch scan validators commissions voteAccount records
          maxEpoch →
        (commissionsHandler profile scan validators commissions voteAccount none =
          some (.ok (lastRecords CommissionRecord.epoch maxEpoch 20 records)) ↔ 20 ≤ maxEpoch)) ∧
    ∀ lastEpoch epochs : UInt64,
      ExactWindow lastEpoch epochs (flatParams profile lastEpoch epochs) ↔
        1 ≤ epochs.toNat ∧ epochs.toNat < 2 ^ 63 :=
  ⟨fun _ _ _ _ _ _ h => historyHandler_iff (by decide) h,
    fun _ _ _ _ _ _ h => historyHandler_iff (by decide) h, fun _ _ => flatParams_iff⟩

/-- A cache with one validator, "a". -/
def youngValidators : Dict String ValidatorRecord :=
  ⟨[("a", listedRecord "a" 5)], List.nodup_singleton _⟩

def uptimeAt (epoch : Nat) : UptimeRecord :=
  { epoch := epoch, epochStartAt := 0, epochEndAt := 0, status := .up, startAt := 0, endAt := 0 }

def commissionAt (epoch : Nat) : CommissionRecord :=
  { epoch := epoch, epochStartAt := 0, epochEndAt := 0, epochSlot := 0, commission := 7,
    createdAt := 0 }

/-- The histories of "a". -/
def historyOf {α : Type} (records : List α) : Dict String (List α) :=
  ⟨[("a", records)], List.nodup_singleton _⟩

theorem cachedHistory_of {α : Type} {epoch : α → Nat} {records : List α} {maxEpoch : Nat}
    (h : (records.map epoch).max? = some maxEpoch) :
    CachedHistory epoch .sequential youngValidators (historyOf records) "a" records maxEpoch where
  known := ⟨("a", listedRecord "a" 5), by decide, by simp [historyOf, Dict.get?]⟩
  greatest := h

/-- The windows of a history up to the epoch 25, and of ten epochs. -/
theorem epochWindows_reached :
    uptimesHandler .release .sequential youngValidators (historyOf [uptimeAt 25, uptimeAt 5]) "a"
        none = some (.ok [uptimeAt 25]) ∧
      commissionsHandler .debug .sequential youngValidators
        (historyOf [commissionAt 25, commissionAt 5]) "a" none = some (.ok [commissionAt 25]) ∧
      ExactWindow 700 10 (flatParams .debug 700 10) := by
  obtain ⟨huptimes, -, -⟩ := epochWindows_iff .release
  obtain ⟨-, hcommissions, hflat⟩ := epochWindows_iff .debug
  refine ⟨?_, ?_, hflat 700 10 |>.mpr (by decide)⟩
  · exact (huptimes _ _ _ _ _ 25 (cachedHistory_of (by decide))).mpr (by decide)
  · exact (hcommissions _ _ _ _ _ 25 (cachedHistory_of (by decide))).mpr (by decide)

/-- **A young cluster**: a history up to the epoch 5 is all of the last epochs, and a window of
no epochs, or of `2 ^ 63` epochs, is asked for. -/
theorem epochWindows_young :
    CachedHistory UptimeRecord.epoch .sequential youngValidators (historyOf [uptimeAt 5]) "a"
        [uptimeAt 5] 5 ∧
      lastRecords UptimeRecord.epoch 5 20 [uptimeAt 5] = [uptimeAt 5] ∧
      uptimesHandler .debug .sequential youngValidators (historyOf [uptimeAt 5]) "a" none = none ∧
      uptimesHandler .release .sequential youngValidators (historyOf [uptimeAt 5]) "a" none =
        some (.ok []) ∧
      commissionsHandler .release .sequential youngValidators (historyOf [commissionAt 5]) "a"
        none = some (.ok []) ∧
      flatParams .debug 700 0 = none ∧ ¬ ExactWindow 700 0 (flatParams .release 700 0) ∧
      flatParams .release 700 9223372036854775808 = none := by
  refine ⟨cachedHistory_of (by decide), by decide, by decide, by decide, by decide, by decide, ?_,
    by decide⟩
  have hwrapped : flatParams .release 700 0 = some (0, 700, 0) := by
    simp [flatParams, subU64, tryIntoI64]
  rintro ⟨first, last, count, hparams, hfirst, -, -⟩
  rw [hwrapped] at hparams
  obtain rfl : 0 = first := congrArg Prod.fst (Option.some.inj hparams)
  exact absurd hfirst (by decide)

end DelegationStrategy.Api
