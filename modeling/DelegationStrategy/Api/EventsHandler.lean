import DelegationStrategy.Api.EpochWindows
import DelegationStrategy.Lib.Trace
import DelegationStrategy.Store.EpochDates
import DelegationStrategy.Store.EventHistory

/-!
# The events of a validator

`handler` of `/validators/{vote_account}/events` (`api/src/handlers/events.rs`) looks up the
vote account in the cache, resolves the lower bound of the epochs, and reads the history from
the database.

- `eventsHandler_answer`: each answer of the handler, and when it is given (`EventsAnswer`), on
  epochs whose intervals tile the time line.
- `events_byDate`: over every run of the commands that record epochs, a query by date serves
  of the recorded epochs those that end on or after the date.
-/

namespace DelegationStrategy.Api

open DelegationStrategy.Lib DelegationStrategy.Collect DelegationStrategy.Store

/-! ## The handler -/

/-- `QueryParams` of `events.rs`. -/
structure EventsQueryParams where
  queryFromEpoch : Option Nat
  queryFromDate : Option Timestamp
  deriving DecidableEq, Repr

/-- `QueryParams::resolve_from_epoch`. -/
def EventsQueryParams.resolveFromEpoch (queryParams : EventsQueryParams) (db : Database) :
    Except ResponseError (Option Nat) :=
  match queryParams.queryFromEpoch, queryParams.queryFromDate with
  | some _, some _ =>
    .error ⟨400, "Specify only one of query_from_epoch / query_from_date"⟩
  | some epoch, none => .ok (some epoch)
  | none, some date =>
    match resolveEpochForDate db date true with
    | some (some epoch) => .ok (some epoch)
    | some none => .error ⟨400, "query_from_date is outside the recorded epoch range"⟩
    | none => .error ⟨500, "Failed to fetch records!"⟩
  | none, none => .ok none

/-- `handler` of `events.rs`; `order` is the one of the cached validators. -/
def eventsHandler (order scan iteration : Scan) (validators : Dict String ValidatorRecord)
    (db : EventsDatabase) (voteAccount : String) (queryParams : EventsQueryParams) :
    Except ResponseError (List EventEpochRecord) :=
  match (order.order validators.entries).find? (isAddressed voteAccount) with
  | none => .error ⟨404, "Failed to fetch records!"⟩
  | some e =>
    match queryParams.resolveFromEpoch db.toDatabase with
    | .error error => .error error
    | .ok fromEpoch =>
      match getEventsWithContext scan iteration db e.1 fromEpoch with
      | some events => .ok events
      | none => .error ⟨500, "Failed to fetch records!"⟩

/-! ## The answers -/

/-- The lower bound that the parameters mean. -/
inductive MeansFrom (db : Database) : EventsQueryParams → Nat → Prop
  | epoch (epoch : Nat) : MeansFrom db ⟨some epoch, none⟩ epoch
  | date {date : Timestamp} {epoch : Nat} :
      Divides db date true epoch → MeansFrom db ⟨none, some date⟩ epoch
  | default : MeansFrom db ⟨none, none⟩ (defaultFromEpoch db)

/-- The parameters mean no lower bound. -/
inductive Refused (db : Database) : EventsQueryParams → String → Prop
  | both (epoch : Nat) (date : Timestamp) : Refused db ⟨some epoch, some date⟩
      "Specify only one of query_from_epoch / query_from_date"
  | outside {date : Timestamp} (ended : ∀ row ∈ db.epochs, row.endAt < date) :
      Refused db ⟨none, some date⟩ "query_from_date is outside the recorded epoch range"

/-- The answers, each with the condition under which it is given. -/
inductive EventsAnswer (validators : Dict String ValidatorRecord) (db : EventsDatabase)
    (voteAccount : String) (queryParams : EventsQueryParams) :
    Except ResponseError (List EventEpochRecord) → Prop
  | unknown (none : ∀ e ∈ validators.entries, ¬ isAddressed voteAccount e) :
      EventsAnswer validators db voteAccount queryParams
        (.error ⟨404, "Failed to fetch records!"⟩)
  | refused {e : String × ValidatorRecord} {message : String} (known : e ∈ validators.entries)
      (addressed : isAddressed voteAccount e)
      (refused : Refused db.toDatabase queryParams message) :
      EventsAnswer validators db voteAccount queryParams (.error ⟨400, message⟩)
  | unreadable {e : String × ValidatorRecord} {fromEpoch : Nat} (known : e ∈ validators.entries)
      (addressed : isAddressed voteAccount e)
      (means : MeansFrom db.toDatabase queryParams fromEpoch)
      (unreadable : ¬ Readable db e.1 fromEpoch) :
      EventsAnswer validators db voteAccount queryParams
        (.error ⟨500, "Failed to fetch records!"⟩)
  | served {e : String × ValidatorRecord} {fromEpoch : Nat} {records : List EventEpochRecord}
      (known : e ∈ validators.entries) (addressed : isAddressed voteAccount e)
      (means : MeansFrom db.toDatabase queryParams fromEpoch)
      (history : EventHistory db e.1 fromEpoch records) :
      EventsAnswer validators db voteAccount queryParams (.ok records)

section Answers

variable {db : EventsDatabase} {queryParams : EventsQueryParams}

/-- The parameters are refused, or resolved to what they mean. -/
theorem resolveFromEpoch_spec {db : Database} (htiled : Tiled db)
    (hfits : ∀ row ∈ db.epochs, row.epoch < 2 ^ 64) (queryParams : EventsQueryParams) :
    (∃ message, Refused db queryParams message ∧
        queryParams.resolveFromEpoch db = .error ⟨400, message⟩) ∨
      ∃ fromEpoch, queryParams.resolveFromEpoch db = .ok fromEpoch ∧
        MeansFrom db queryParams (fromEpoch.getD (defaultFromEpoch db)) := by
  obtain ⟨queryFromEpoch, queryFromDate⟩ := queryParams
  cases queryFromEpoch with
  | some epoch =>
    cases queryFromDate with
    | some date => exact Or.inl ⟨_, .both epoch date, rfl⟩
    | none => exact Or.inr ⟨some epoch, rfl, .epoch epoch⟩
  | none =>
    cases queryFromDate with
    | none => exact Or.inr ⟨none, rfl, .default⟩
    | some date =>
      rcases resolveEpochForDate_spec htiled hfits date true with
        ⟨epoch, hresolve, hdivides⟩ | ⟨hresolve, hnone⟩
      · refine Or.inr ⟨some epoch, ?_, .date hdivides⟩
        simp [EventsQueryParams.resolveFromEpoch, hresolve]
      · refine Or.inl ⟨_, .outside fun row hrow => ?_, ?_⟩
        · simpa [endsFrom] using hnone row hrow
        · simp [EventsQueryParams.resolveFromEpoch, hresolve]

/-- **The answers of the handler.** -/
theorem eventsHandler_answer (htiled : Tiled db.toDatabase)
    (hfits : ∀ row ∈ db.epochs, row.epoch < 2 ^ 64) (order scan iteration : Scan)
    (validators : Dict String ValidatorRecord) (voteAccount : String)
    (queryParams : EventsQueryParams) :
    EventsAnswer validators db voteAccount queryParams
      (eventsHandler order scan iteration validators db voteAccount queryParams) := by
  unfold eventsHandler
  cases hfind : (order.order validators.entries).find? (isAddressed voteAccount) with
  | none =>
    refine .unknown fun e he => ?_
    exact List.find?_eq_none.mp hfind e (order.mem_order.mpr he)
  | some e =>
    have hknown : e ∈ validators.entries := order.mem_order.mp (List.mem_of_find?_eq_some hfind)
    have haddressed := List.find?_some hfind
    rcases resolveFromEpoch_spec htiled hfits queryParams with
      ⟨message, hrefused, hresolve⟩ | ⟨fromEpoch, hresolve, hmeans⟩
    · simp only [hresolve]
      exact .refused hknown haddressed hrefused
    · simp only [hresolve]
      cases hget : getEventsWithContext scan iteration db e.1 fromEpoch with
      | some records => exact .served hknown haddressed hmeans (eventHistory_of_run hget)
      | none =>
        refine .unreadable hknown haddressed hmeans fun hreadable => ?_
        have hsome : (getEventsWithContext scan iteration db e.1 fromEpoch).isSome :=
          isSome_getEventsWithContext.mpr hreadable
        rw [hget] at hsome
        cases hsome

/-- Of the recorded epochs, a query by date serves those that end on or after the date. -/
theorem EventsAnswer.recorded {validators : Dict String ValidatorRecord} {voteAccount : String}
    {date : Timestamp} {records : List EventEpochRecord}
    (h : EventsAnswer validators db voteAccount ⟨none, some date⟩ (.ok records)) :
    ∃ e ∈ validators.entries, isAddressed voteAccount e ∧ ∀ row ∈ db.epochs,
      (row.epoch ∈ records.map EventEpochRecord.epoch ↔
        HasEpoch db e.1 row.epoch ∧ date ≤ row.endAt) := by
  cases h with
  | served known addressed means history =>
    cases means with
    | date divides =>
      refine ⟨_, known, addressed, fun row hrow => ?_⟩
      have hends := divides.2 row hrow
      rw [if_pos rfl] at hends
      have hdate : endsFrom date true row = true ↔ date ≤ row.endAt := by simp [endsFrom]
      rw [history.epochs row.epoch, ← hends, hdate]
      exact and_comm

end Answers

/-- **Events by date**: over a chronological history, in whichever order its epochs are closed
and whatever the other tables and the cache hold, the handler gives the answers of
`EventsAnswer`, and a query by date serves, of the recorded epochs in which the validator has
data, those that end on or after the date. -/
theorem events_byDate (history : List ClusterInfoRow) (hchrono : Chronological history)
    (hfits : ∀ c ∈ history, c.epoch < 2 ^ 64) (start : Database) (hempty : start.epochs = [])
    (hrows : ∀ c ∈ start.clusterInfo, c ∈ history) (steps : List EpochStep)
    (hadds : ∀ a ∈ steps, AddsOnly history a) :
    StatesAll epochStep (fun reached => ∀ db : EventsDatabase, db.epochs = reached.epochs →
      ∀ order scan iteration validators voteAccount,
        (∀ queryParams, EventsAnswer validators db voteAccount queryParams
          (eventsHandler order scan iteration validators db voteAccount queryParams)) ∧
        ∀ date records, eventsHandler order scan iteration validators db voteAccount
            ⟨none, some date⟩ = .ok records →
          ∃ e ∈ validators.entries, isAddressed voteAccount e ∧ ∀ row ∈ db.epochs,
            (row.epoch ∈ records.map EventEpochRecord.epoch ↔
              HasEpoch db e.1 row.epoch ∧ date ≤ row.endAt)) start steps := by
  have hinit : EpochsInv history start := by
    refine ⟨hrows, ?_, ?_, ?_⟩
    · simp [hempty]
    · simp [hempty]
    · simp [hempty]
  have hok : StepsAll epochStep (fun _ a => AddsOnly history a) start steps :=
    StepsAll.of_forall fun a ha _ => hadds a ha
  refine (statesAll_of_stepsAll (fun _ _ _ hinv ha hstep => epochsInv_step hinv ha hstep)
    hinit hok).mono fun reached hinv db hsame order scan iteration validators voteAccount => ?_
  have htiled := (tiled_of_inv hinv hchrono).of_epochs hsame
  have hlt : ∀ row ∈ db.epochs, row.epoch < 2 ^ 64 := hsame ▸ hinv.epoch_lt hfits
  have hanswer := eventsHandler_answer htiled hlt order scan iteration validators voteAccount
  refine ⟨hanswer, fun date records hrun => ?_⟩
  have hserved := hanswer ⟨none, some date⟩
  rw [hrun] at hserved
  exact hserved.recorded

/-- Epoch 12 is closed before epoch 11. -/
theorem events_byDate_twoEpochs :
    StatesAll epochStep (fun reached => ∀ db : EventsDatabase, db.epochs = reached.epochs →
      ∀ order scan iteration validators voteAccount,
        (∀ queryParams, EventsAnswer validators db voteAccount queryParams
          (eventsHandler order scan iteration validators db voteAccount queryParams)) ∧
        ∀ date records, eventsHandler order scan iteration validators db voteAccount
            ⟨none, some date⟩ = .ok records →
          ∃ e ∈ validators.entries, isAddressed voteAccount e ∧ ∀ row ∈ db.epochs,
            (row.epoch ∈ records.map EventEpochRecord.epoch ↔
              HasEpoch db e.1 row.epoch ∧ date ≤ row.endAt))
      { openDatabase with clusterInfo := twoEpochs }
      [.createEpochRecord 12 ⟨500000000, 5, 15⟩, .createEpochRecord 11 ⟨500000000, 5, 15⟩] :=
  events_byDate twoEpochs (by unfold Chronological; decide) (by decide) _ rfl (fun _ h => h) _
    (by simp [AddsOnly])

end DelegationStrategy.Api
