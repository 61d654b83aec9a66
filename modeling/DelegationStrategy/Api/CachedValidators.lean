import DelegationStrategy.Api.ListValidators
import DelegationStrategy.Api.ReportsStaking
import DelegationStrategy.Lib.Interleaving

/-!
# Requests between the warm-ups of the validators

The store commands change the database; `warm_validators_cache` (`api/src/cache.rs`) loads
the validators and writes them with their aggregates under one lock; requests read the
database and the cache, and the lock is released between two reads of a request. Commands,
warm-ups and requests are the processes of a protocol: each statement, query, read and
write is a step.

- A response of `/validators` is not torn if no warm-up writes between its two reads;
  otherwise its parts are of different generations (`listValidators_notTorn`).
- The staking report is complete exactly if the cached validators with a score and the
  flag have stats for the last epoch that the request has read before
  (`reportsStaking_complete`). That is so if the load of the validators had read the same
  epoch.
-/

namespace DelegationStrategy.Api

open DelegationStrategy.Lib DelegationStrategy.Collect DelegationStrategy.Store

structure ApiState where
  db : Database
  /-- `cache.validators_single_run_scores.scores`. -/
  scores : Dict String ValidatorScoreRecord
  validators : Dict String ValidatorRecord
  validatorsAggregated : List ValidatorsAggregated
  /-- How often `validators` was written. The program does not have this. -/
  generation : Nat
  /-- The last epoch that the load of `validators` had read first. The program does not
  have this. -/
  loadEpoch : Nat

/-- The API starts with an empty cache. -/
def ApiState.init (db : Database) : ApiState where
  db := db
  scores := Dict.empty
  validators := Dict.empty
  validatorsAggregated := []
  generation := 0
  loadEpoch := 0

/-- What the environment adds to a step. -/
inductive ApiStep where
  | next
  | rows (inputs : LoadInputs)
  | scores (scoresPerEpoch : Dict Nat (Dict String Rat))
  | incidents (scan : Scan)
  | write (now : String → Nat → Timestamp)
  | list (scan : Scan)
  /-- The query or the statement fails. -/
  | fails

/-! ## Commands of the store -/

/-- A run of a store command; every statement commits by itself. -/
inductive CommandPhase where
  | started (command : Command)
  | executing (steps : List Step)
  | ended

def CommandPhase.step (s : ApiState) : CommandPhase → ApiStep → Option (ApiState × CommandPhase)
  | .started command, .next => some (s, .executing (commandSteps command s.db))
  | .executing (step :: steps), .next =>
    match step.statement s.db with
    | .ok db => some ({ s with db := db }, .executing steps)
    | .error _ => some (s, .ended)
  | .executing _, .fails => some (s, .ended)
  | _, _ => none

/-! ## The warm-up -/

/-- How far `warm_validators_cache` has come. -/
inductive ValidatorsWarmer where
  | started
  | readLastEpoch (lastEpoch : Nat)
  | readRows (lastEpoch : Nat) (records : Dict String ValidatorRecord)
  | updatedRecords (lastEpoch : Nat) (records : Dict String ValidatorRecord)
  | loadedValidators (lastEpoch : Nat) (validators : Dict String ValidatorRecord)
  | ended

/-- The write, under one guard of the lock. -/
def ApiState.write (s : ApiState) (now : String → Nat → Timestamp) (lastEpoch : Nat)
    (validators : Dict String ValidatorRecord) : ApiState :=
  { s with
    validators := validators
    validatorsAggregated := aggregateValidators now validators
    generation := s.generation + 1
    loadEpoch := lastEpoch }

def ValidatorsWarmer.step (s : ApiState) :
    ValidatorsWarmer → ApiStep → Option (ApiState × ValidatorsWarmer)
  | .started, .next =>
    match getLastEpoch s.db with
    | some lastEpoch => some (s, .readLastEpoch lastEpoch)
    | none => some (s, .loadedValidators 0 Dict.empty)
  | .readLastEpoch lastEpoch, .rows inputs =>
    some (s, .readRows lastEpoch (aggregateRecords inputs s.db lastEpoch))
  | .readRows lastEpoch records, .scores scoresPerEpoch =>
    some (s, .updatedRecords lastEpoch (updateRecords scoresPerEpoch s.db records))
  | .updatedRecords lastEpoch records, .incidents scan =>
    match updateIncidents scan s.db records with
    | some validators => some (s, .loadedValidators lastEpoch validators)
    | none => some (s, .ended)
  | .loadedValidators lastEpoch validators, .write now =>
    some (s.write now lastEpoch validators, .ended)
  | .loadedValidators .., .fails | .ended, .fails => none
  -- a query fails: the cache stays as it is
  | _, .fails => some (s, .ended)
  | _, _ => none

/-! ## Requests -/

/-- A request of `/validators`, with the generations that it has read. -/
inductive ListRequest where
  | started (params : QueryParams)
  | listing (params : QueryParams) (generation : Nat) (validators : List ValidatorRecord)
  | listed (params : QueryParams) (generation generationAggregated : Nat)
      (response : ResponseValidators)

def ListRequest.step (toLowercase : String → String) (s : ApiState) :
    ListRequest → ApiStep → Option (ApiState × ListRequest)
  | .started params, .list scan =>
    some (s, .listing params s.generation
      (getValidators toLowercase scan params.config s.validators))
  | .listing params generation validators, .next =>
    some (s, .listed params generation s.generation
      ⟨validators, listedAggregates params s.validatorsAggregated⟩)
  | _, _ => none

/-- A request of `/reports/staking`, with what it has read. -/
inductive ReportRequest where
  | started
  | readLastEpoch (lastEpoch : Nat)
  | readScores (lastEpoch : Nat) (scores : Dict String ValidatorScoreRecord)
  | reported (scores : Dict String ValidatorScoreRecord)
      (validators : Dict String ValidatorRecord) (planned : Option (List StakingChange))
  | ended

def ReportRequest.step (s : ApiState) : ReportRequest → ApiStep → Option (ApiState × ReportRequest)
  | .started, .next =>
    match getLastEpoch s.db with
    | some lastEpoch => some (s, .readLastEpoch lastEpoch)
    -- an empty report, from no cache
    | none => some (s, .reported Dict.empty Dict.empty (some []))
  | .started, .fails => some (s, .ended)
  | .readLastEpoch lastEpoch, .next => some (s, .readScores lastEpoch s.scores)
  | .readScores lastEpoch scores, .next =>
    some (s, .reported scores s.validators (getPlannedStakes lastEpoch scores s.validators))
  | _, _ => none

/-! ## The protocol -/

inductive ApiTask where
  | command (phase : CommandPhase)
  | warmer (phase : ValidatorsWarmer)
  | list (phase : ListRequest)
  | report (phase : ReportRequest)

def ApiTask.step (toLowercase : String → String) (s : ApiState) (b : ApiStep) :
    ApiTask → Option (ApiState × ApiTask)
  | .command phase => (phase.step s b).map fun r => (r.1, .command r.2)
  | .warmer phase => (phase.step s b).map fun r => (r.1, .warmer r.2)
  | .list phase => (phase.step toLowercase s b).map fun r => (r.1, .list r.2)
  | .report phase => (phase.step s b).map fun r => (r.1, .report r.2)

/-- What can start at any time. -/
inductive ApiStart where
  | command (command : Command) (fits : CommandFits command)
  | warmer
  | list (params : QueryParams)
  | report

def ApiStart.task : ApiStart → ApiTask
  | .command c _ => .command (.started c)
  | .warmer => .warmer .started
  | .list params => .list (.started params)
  | .report => .report .started

/-- The environment is `warm_scores_cache`: it writes some scores. -/
def apiProtocol (toLowercase : String → String) :
    Protocol ApiState ApiTask (Dict String ValidatorScoreRecord) ApiStart ApiStep where
  env s scores := some { s with scores := scores }
  start := ApiStart.task
  proc s task b := task.step toLowercase s b

abbrev ApiMove := Move (Dict String ValidatorScoreRecord) ApiStart ApiStep

def apiInit (db : Database) : Procs ApiState ApiTask := ⟨.init db, []⟩

/-! ## What a task does -/

/-- What a command has still to execute is of one command. -/
def CommandPhase.Promises : CommandPhase → Prop
  | .started command => CommandFits command
  | .executing steps => ∃ command start, CommandFits command ∧
      ∀ step ∈ steps, step ∈ commandSteps command start
  | .ended => True

/-- What a warm-up has loaded are records of a load. -/
def ValidatorsWarmer.Promises : ValidatorsWarmer → Prop
  | .readRows lastEpoch records | .updatedRecords lastEpoch records
  | .loadedValidators lastEpoch records => RecordsOf lastEpoch records
  | _ => True

def ApiTask.Promises : ApiTask → Prop
  | .command phase => phase.Promises
  | .warmer phase => phase.Promises
  | _ => True

/-- A report that was returned is complete. -/
def ReportRequest.DropsNobody : ReportRequest → Prop
  | .reported scores validators planned => Complete scores validators planned
  | _ => True

def ApiTask.DropsNobody : ApiTask → Prop
  | .report phase => phase.DropsNobody
  | _ => True

/-- The constraints of the table `validators`. -/
structure TablesInv (db : Database) : Prop where
  key : PrimaryKey db.validators
  stakes : StakesFit db.validators

/-- What the steps of the tasks do. -/
inductive ApiTask.Moves (toLowercase : String → String) (s : ApiState) :
    ApiTask → ApiStep → ApiState → ApiTask → Prop
  | command {phase phase' b db}
    (h : phase.Promises → TablesInv s.db → TablesInv db ∧ phase'.Promises) :
    Moves toLowercase s (.command phase) b { s with db := db } (.command phase')
  | load {phase phase' b} (h : phase.Promises → TablesInv s.db → phase'.Promises) :
    Moves toLowercase s (.warmer phase) b s (.warmer phase')
  | write {now lastEpoch validators} :
    Moves toLowercase s (.warmer (.loadedValidators lastEpoch validators)) (.write now)
      (s.write now lastEpoch validators) (.warmer .ended)
  | list {params scan} :
    Moves toLowercase s (.list (.started params)) (.list scan) s
      (.list (.listing params s.generation
        (getValidators toLowercase scan params.config s.validators)))
  | listed {params generation validators} :
    Moves toLowercase s (.list (.listing params generation validators)) .next s
      (.list (.listed params generation s.generation
        ⟨validators, listedAggregates params s.validatorsAggregated⟩))
  | read {phase phase' b} (hphase : ∀ lastEpoch scores, phase ≠ .readScores lastEpoch scores)
    (h : phase'.DropsNobody) :
    Moves toLowercase s (.report phase) b s (.report phase')
  | report {lastEpoch scores} :
    Moves toLowercase s (.report (.readScores lastEpoch scores)) .next s
      (.report (.reported scores s.validators (getPlannedStakes lastEpoch scores s.validators)))

section Steps

variable {toLowercase : String → String} {s s' : ApiState} {b : ApiStep}

/-- A statement of a command keeps the constraints. -/
theorem CommandPhase.moves {phase phase' : CommandPhase}
    (h : phase.step s b = some (s', phase')) :
    ApiTask.Moves toLowercase s (.command phase) b s' (.command phase') := by
  cases phase with
  | started command =>
    cases b with
    | next =>
      obtain ⟨rfl, rfl⟩ := Prod.mk.inj (Option.some.inj h)
      exact .command fun hfits htables => ⟨htables, command, s.db, hfits, fun _ hstep => hstep⟩
    | _ => cases h
  | executing steps =>
    cases b with
    | next =>
      cases steps with
      | nil => cases h
      | cons step steps =>
        unfold CommandPhase.step at h
        dsimp only at h
        cases hrun : step.statement s.db with
        | ok db =>
          rw [hrun] at h
          obtain ⟨rfl, rfl⟩ := Prod.mk.inj (Option.some.inj h)
          refine .command ?_
          rintro ⟨command, start, hfits, hsteps⟩ ⟨hkey, hstakes⟩
          have hstep := hsteps step List.mem_cons_self
          exact ⟨⟨(step_effect hstep hkey hrun).key, stakesFit_step hfits hstep hkey hstakes hrun⟩,
            command, start, hfits, fun step' hstep' => hsteps step' (List.mem_cons_of_mem _ hstep')⟩
        | error e =>
          rw [hrun] at h
          obtain ⟨rfl, rfl⟩ := Prod.mk.inj (Option.some.inj h)
          exact .command fun _ htables => ⟨htables, trivial⟩
    | fails =>
      cases steps <;>
      · obtain ⟨rfl, rfl⟩ := Prod.mk.inj (Option.some.inj h)
        exact .command fun _ htables => ⟨htables, trivial⟩
    | _ => cases steps <;> cases h
  | ended => cases h

/-- A query of a warm-up leaves the cache as it is. -/
theorem ValidatorsWarmer.moves {phase phase' : ValidatorsWarmer}
    (h : phase.step s b = some (s', phase')) :
    ApiTask.Moves toLowercase s (.warmer phase) b s' (.warmer phase') := by
  cases b with
  | next =>
    cases phase with
    | started =>
      obtain ⟨rfl, rfl⟩ := Prod.mk.inj (Option.some.inj h)
      exact .load fun _ _ => trivial
    | _ => cases h
  | rows inputs =>
    cases phase with
    | readLastEpoch lastEpoch =>
      obtain ⟨rfl, rfl⟩ := Prod.mk.inj (Option.some.inj h)
      exact .load fun _ htables => recordsOf_aggregateRecords htables.stakes inputs lastEpoch
    | _ => cases h
  | scores scoresPerEpoch =>
    cases phase with
    | readRows lastEpoch records =>
      obtain ⟨rfl, rfl⟩ := Prod.mk.inj (Option.some.inj h)
      exact .load fun hrecords _ => RecordsOf.updateRecords hrecords scoresPerEpoch s.db
    | _ => cases h
  | incidents scan =>
    cases phase with
    | updatedRecords lastEpoch records =>
      unfold ValidatorsWarmer.step at h
      dsimp only at h
      cases hupdate : updateIncidents scan s.db records with
      | some validators =>
        rw [hupdate] at h
        obtain ⟨rfl, rfl⟩ := Prod.mk.inj (Option.some.inj h)
        exact .load fun hrecords _ => RecordsOf.updateIncidents hrecords hupdate
      | none =>
        rw [hupdate] at h
        obtain ⟨rfl, rfl⟩ := Prod.mk.inj (Option.some.inj h)
        exact .load fun _ _ => trivial
    | _ => cases h
  | write now =>
    cases phase with
    | loadedValidators lastEpoch validators =>
      obtain ⟨rfl, rfl⟩ := Prod.mk.inj (Option.some.inj h)
      exact .write
    | _ => cases h
  | list scan => cases phase <;> cases h
  | fails =>
    cases phase with
    | loadedValidators lastEpoch validators => cases h
    | ended => cases h
    | _ =>
      obtain ⟨rfl, rfl⟩ := Prod.mk.inj (Option.some.inj h)
      exact .load fun _ _ => trivial

theorem ListRequest.moves {phase phase' : ListRequest}
    (h : phase.step toLowercase s b = some (s', phase')) :
    ApiTask.Moves toLowercase s (.list phase) b s' (.list phase') := by
  cases phase with
  | started params =>
    cases b with
    | list scan =>
      obtain ⟨rfl, rfl⟩ := Prod.mk.inj (Option.some.inj h)
      exact .list
    | _ => cases h
  | listing params generation validators =>
    cases b with
    | next =>
      obtain ⟨rfl, rfl⟩ := Prod.mk.inj (Option.some.inj h)
      exact .listed
    | _ => cases h
  | listed => cases h

theorem ReportRequest.moves {phase phase' : ReportRequest}
    (h : phase.step s b = some (s', phase')) :
    ApiTask.Moves toLowercase s (.report phase) b s' (.report phase') := by
  cases b with
  | next =>
    cases phase with
    | started =>
      obtain ⟨rfl, rfl⟩ := Prod.mk.inj (Option.some.inj h)
      exact .read (fun _ _ => nofun) trivial
    | readLastEpoch lastEpoch =>
      obtain ⟨rfl, rfl⟩ := Prod.mk.inj (Option.some.inj h)
      exact .read (fun _ _ => nofun) trivial
    | readScores lastEpoch scores =>
      obtain ⟨rfl, rfl⟩ := Prod.mk.inj (Option.some.inj h)
      exact .report
    | _ => cases h
  | fails =>
    cases phase with
    | started =>
      obtain ⟨rfl, rfl⟩ := Prod.mk.inj (Option.some.inj h)
      exact .read (fun _ _ => nofun) trivial
    | _ => cases h
  | _ => cases phase <;> cases h

/-- A step of a task is a step of its phase. -/
theorem lift_eq_some {π : Type*} (task : π → ApiTask) {step : Option (ApiState × π)}
    {task' : ApiTask} (h : (step.map fun r => (r.1, task r.2)) = some (s', task')) :
    ∃ phase', step = some (s', phase') ∧ task' = task phase' := by
  obtain ⟨⟨_, phase'⟩, hstep, heq⟩ := Option.map_eq_some_iff.mp h
  obtain ⟨rfl, rfl⟩ := Prod.mk.inj heq
  exact ⟨phase', hstep, rfl⟩

/-- **What a step of a task does.** -/
theorem ApiTask.step_cases {task task' : ApiTask}
    (h : task.step toLowercase s b = some (s', task')) :
    Moves toLowercase s task b s' task' := by
  cases task with
  | command phase =>
    obtain ⟨phase', hstep, rfl⟩ := lift_eq_some ApiTask.command h
    exact CommandPhase.moves hstep
  | warmer phase =>
    obtain ⟨phase', hstep, rfl⟩ := lift_eq_some ApiTask.warmer h
    exact ValidatorsWarmer.moves hstep
  | list phase =>
    obtain ⟨phase', hstep, rfl⟩ := lift_eq_some ApiTask.list h
    exact ListRequest.moves hstep
  | report phase =>
    obtain ⟨phase', hstep, rfl⟩ := lift_eq_some ApiTask.report h
    exact ReportRequest.moves hstep

/-- Only a warm-up that has loaded validators writes. -/
theorem ApiTask.step_write {now : String → Nat → Timestamp} {task task' : ApiTask}
    (h : task.step toLowercase s (.write now) = some (s', task')) :
    ∃ lastEpoch validators, task = .warmer (.loadedValidators lastEpoch validators) ∧
      s' = s.write now lastEpoch validators ∧ task' = .warmer .ended := by
  cases task with
  | warmer phase =>
    cases phase with
    | loadedValidators lastEpoch validators =>
      obtain ⟨rfl, rfl⟩ := Prod.mk.inj (Option.some.inj h)
      exact ⟨lastEpoch, validators, rfl, rfl, rfl⟩
    | _ => cases h
  | command phase =>
    cases phase with
    | executing steps => cases steps <;> cases h
    | _ => cases h
  | list phase => cases phase <;> cases h
  | report phase => cases phase <;> cases h

end Steps

/-! ## Torn responses -/

/-- Between its two reads. -/
def ApiTask.isListing : ApiTask → Bool
  | .list (.listing ..) => true
  | _ => false

/-- No warm-up writes between the two reads of a request of `/validators`. -/
def NoWriteBetweenReads (s : Procs ApiState ApiTask) (a : ApiMove) : Prop :=
  ∀ n now, a = .proc n (.write now) → ∀ task ∈ s.procs, ¬ task.isListing

/-- The epochs of the listed validators are among those of the aggregates. -/
def EpochsListed (params : QueryParams) (response : ResponseValidators) : Prop :=
  params.queryFromDate = none → ∀ v ∈ response.validators, ∀ stats ∈ v.epochStats,
    stats.epoch ∈ response.validatorsAggregated.map ValidatorsAggregated.epoch

/-- Both parts of a response are of one generation, and their windows agree. -/
def ApiTask.NotTorn : ApiTask → Prop
  | .list (.listed params generation generationAggregated response) =>
    generation = generationAggregated ∧ EpochsListed params response
  | _ => True

/-- What a request of `/validators` knows of the cache: what it has read is there as long
as nothing was written. -/
def ApiTask.Knows (toLowercase : String → String) (s : ApiState) : ApiTask → Prop
  | .list (.listing params generation validators) =>
    generation ≤ s.generation ∧ (generation = s.generation →
      ∃ scan, validators = getValidators toLowercase scan params.config s.validators)
  | .list (.listed params generation generationAggregated response) =>
    generation = generationAggregated → EpochsListed params response
  | _ => True

/-- A request between its reads is one of the current generation. -/
def ApiTask.Current (s : ApiState) : ApiTask → Prop
  | .list (.listing _ generation _) => generation = s.generation
  | .list (.listed _ generation generationAggregated _) => generation = generationAggregated
  | _ => True

structure CacheInv (toLowercase : String → String) (s : Procs ApiState ApiTask) : Prop where
  aggregated : ∃ now, s.shared.validatorsAggregated = aggregateValidators now s.shared.validators
  tasks : ∀ task ∈ s.procs, task.Knows toLowercase s.shared

section Torn

variable {toLowercase : String → String} {s s' : Procs ApiState ApiTask} {a : ApiMove}

theorem cacheInv_init (toLowercase : String → String) (db : Database) :
    CacheInv toLowercase (apiInit db) where
  aggregated := ⟨fun _ _ => 0, rfl⟩
  tasks _ htask := nomatch htask

/-- A write ends the current generation. -/
theorem ApiTask.Knows.write {shared : ApiState} {task : ApiTask}
    (h : task.Knows toLowercase shared) (now : String → Nat → Timestamp) (lastEpoch : Nat)
    (validators : Dict String ValidatorRecord) :
    task.Knows toLowercase (shared.write now lastEpoch validators) := by
  cases task with
  | list phase =>
    cases phase with
    | listing params generation listed =>
      obtain ⟨hle, -⟩ := h
      refine ⟨Nat.le_succ_of_le hle, fun heq => ?_⟩
      have hsucc : generation = shared.generation + 1 := heq
      omega
    | started params => trivial
    | listed => exact h
  | _ => trivial

theorem aggregated_step (hinv : CacheInv toLowercase s)
    (h : (apiProtocol toLowercase).step s a = some s') :
    ∃ now, s'.shared.validatorsAggregated = aggregateValidators now s'.shared.validators := by
  rcases Protocol.step_cases h with ⟨scores, shared, -, henv, rfl⟩ | ⟨i, -, rfl⟩ |
    ⟨n, b, task, shared, task', -, -, hstep, rfl⟩
  · obtain rfl := Option.some.inj henv
    exact hinv.aggregated
  · exact hinv.aggregated
  · cases ApiTask.step_cases hstep with
    | @write now => exact ⟨now, rfl⟩
    | _ => exact hinv.aggregated

theorem knows_step (hinv : CacheInv toLowercase s)
    (h : (apiProtocol toLowercase).step s a = some s') :
    ∀ task ∈ s'.procs, task.Knows toLowercase s'.shared := by
  refine Protocol.forall_step (ApiTask.Knows toLowercase) h hinv.tasks ?_ ?_ ?_
  · intro i _
    cases i <;> trivial
  · intro scores shared _ henv task _ htask
    obtain rfl := Option.some.inj henv
    exact htask
  · intro n b task shared task' _ hn hstep
    have htask := hinv.tasks task (List.mem_of_getElem? hn)
    cases ApiTask.step_cases hstep with
    | command => exact ⟨trivial, fun _ _ hq => hq⟩
    | load => exact ⟨trivial, fun _ _ hq => hq⟩
    | write => exact ⟨trivial, fun _ _ hq => hq.write _ _ _⟩
    | @list params scan => exact ⟨⟨le_refl _, fun _ => ⟨scan, rfl⟩⟩, fun _ _ hq => hq⟩
    | @listed params generation validators =>
      refine ⟨fun heq hdate v hv stats hstats => ?_, fun _ _ hq => hq⟩
      -- nothing was written: both parts are of the cache as it is
      obtain ⟨scan, rfl⟩ := htask.2 heq
      obtain ⟨now, hnow⟩ := hinv.aggregated
      rw [hnow]
      exact epochs_listed hv hdate hstats
    | read => exact ⟨trivial, fun _ _ hq => hq⟩
    | report => exact ⟨trivial, fun _ _ hq => hq⟩

theorem cacheInv_step (hinv : CacheInv toLowercase s)
    (h : (apiProtocol toLowercase).step s a = some s') : CacheInv toLowercase s' :=
  ⟨aggregated_step hinv h, knows_step hinv h⟩

/-- Without a write between its reads a request reads one generation. -/
theorem current_step (hcurrent : ∀ task ∈ s.procs, task.Current s.shared)
    (hok : NoWriteBetweenReads s a) (h : (apiProtocol toLowercase).step s a = some s') :
    ∀ task ∈ s'.procs, task.Current s'.shared := by
  refine Protocol.forall_step ApiTask.Current h hcurrent ?_ ?_ ?_
  · intro i _
    cases i <;> trivial
  · intro scores shared _ henv task _ htask
    obtain rfl := Option.some.inj henv
    exact htask
  · intro n b task shared task' ha hn hstep
    have htask := hcurrent task (List.mem_of_getElem? hn)
    cases ApiTask.step_cases hstep with
    | command => exact ⟨trivial, fun _ _ hq => hq⟩
    | load => exact ⟨trivial, fun _ _ hq => hq⟩
    | @write now lastEpoch validators =>
      refine ⟨trivial, fun q hq hcur => ?_⟩
      have hidle := hok n now ha q hq
      cases q with
      | list phase =>
        cases phase with
        | started params => trivial
        | listing params generation listed => exact absurd rfl hidle
        | listed => exact hcur
      | _ => trivial
    | list => exact ⟨rfl, fun _ _ hq => hq⟩
    | listed => exact ⟨htask, fun _ _ hq => hq⟩
    | read => exact ⟨trivial, fun _ _ hq => hq⟩
    | report => exact ⟨trivial, fun _ _ hq => hq⟩

theorem ApiTask.Current.notTorn {shared : ApiState} {task : ApiTask}
    (hcurrent : task.Current shared) (hknows : task.Knows toLowercase shared) : task.NotTorn := by
  cases task with
  | list phase =>
    cases phase with
    | listed => exact ⟨hcurrent, hknows hcurrent⟩
    | _ => trivial
  | _ => trivial

/-- In a run without a write between the two reads of a request no response is torn. -/
theorem statesAll_notTorn (db : Database) {moves : List ApiMove}
    (hok : StepsAll (apiProtocol toLowercase).step NoWriteBetweenReads (apiInit db) moves) :
    StatesAll (apiProtocol toLowercase).step (fun s => ∀ task ∈ s.procs, task.NotTorn)
      (apiInit db) moves := by
  have hinv : StatesAll (apiProtocol toLowercase).step
      (fun s => CacheInv toLowercase s ∧ ∀ task ∈ s.procs, task.Current s.shared)
      (apiInit db) moves :=
    statesAll_of_stepsAll
      (fun s a s' hinv hok h => ⟨cacheInv_step hinv.1 h, current_step hinv.2 hok h⟩)
      ⟨cacheInv_init toLowercase db, fun _ htask => nomatch htask⟩ hok
  exact hinv.mono fun s hinv task htask =>
    (hinv.2 task htask).notTorn (hinv.1.tasks task htask)

/-- After a write between the reads the request returns parts of two generations. -/
theorem exists_torn (hinv : CacheInv toLowercase s)
    (h : (apiProtocol toLowercase).step s a = some s') (hwrite : ¬ NoWriteBetweenReads s a) :
    ∃ more s'', exec (apiProtocol toLowercase).step s' more = some s'' ∧
      ∃ task ∈ s''.procs, ¬ task.NotTorn := by
  unfold NoWriteBetweenReads at hwrite
  push Not at hwrite
  obtain ⟨n, now, rfl, task, htask, hlisting⟩ := hwrite
  rcases Protocol.step_cases h with ⟨_, _, ha, -, -⟩ | ⟨_, ha, -⟩ |
    ⟨_, _, warmer, shared, warmer', ha, hn, hstep, rfl⟩
  · cases ha
  · cases ha
  cases ha
  obtain ⟨lastEpoch, validators, rfl, rfl, rfl⟩ := ApiTask.step_write hstep
  obtain ⟨m, hm⟩ := List.mem_iff_getElem?.mp htask
  have hknows := hinv.tasks task htask
  cases task with
  | list phase =>
    cases phase with
    | listing params generation listed =>
      have hne : n ≠ m := by
        rintro rfl
        rw [hm] at hn
        cases hn
      have hm' : (s.procs.set n (.warmer .ended))[m]? =
          some (.list (.listing params generation listed)) := by
        rw [List.getElem?_set_ne hne]
        exact hm
      refine ⟨[.next].map (.proc m), _, Protocol.exec_solo hm' rfl, _,
        List.mem_of_getElem? (List.getElem?_set_self (List.getElem?_eq_some_iff.mp hm').1), ?_⟩
      rintro ⟨heq, -⟩
      have hsucc : generation = s.shared.generation + 1 := heq
      have hle : generation ≤ s.shared.generation := hknows.1
      omega
    | _ => cases hlisting
  | _ => cases hlisting

end Torn

/-- **Torn responses**: in a run in which no warm-up writes between the two reads of a
request of `/validators`, both parts of a response are of one generation, and without a
date the epochs of the validators are among those of the aggregates; after a write between
the reads the request goes on to return parts of two generations. -/
theorem listValidators_notTorn (toLowercase : String → String) (db : Database) :
    (∀ moves, StepsAll (apiProtocol toLowercase).step NoWriteBetweenReads (apiInit db) moves →
      StatesAll (apiProtocol toLowercase).step (fun s => ∀ task ∈ s.procs, task.NotTorn)
        (apiInit db) moves) ∧
    ∀ moves a s s', exec (apiProtocol toLowercase).step (apiInit db) moves = some s →
      (apiProtocol toLowercase).step s a = some s' → ¬ NoWriteBetweenReads s a →
        ∃ more s'', exec (apiProtocol toLowercase).step s' more = some s'' ∧
          ∃ task ∈ s''.procs, ¬ task.NotTorn := by
  refine ⟨fun moves => statesAll_notTorn db, fun moves a s s' hexec h hwrite => ?_⟩
  have hinv : StatesAll (apiProtocol toLowercase).step (CacheInv toLowercase) (apiInit db) moves :=
    statesAll_of_invariant (fun s a s' hinv h => cacheInv_step hinv h)
      (cacheInv_init toLowercase db) moves
  exact exists_torn (hinv.last hexec) h hwrite

/-- No validators yet, and the cluster is in epoch 500. -/
def clusterOnly : Database := ⟨[], [], [], [], [⟨500, 10, 0⟩]⟩

/-- The same validator in any epoch. -/
def snapshotOf (epoch : Nat) : Snapshot := { singleValidators 0 10 with epoch := epoch }

theorem snapshotOf_fits (epoch : Nat) :
    CommandFits (.storeValidators .sequential (snapshotOf epoch)) := by
  intro v hv
  obtain rfl := List.mem_singleton.mp hv
  decide

/-- Task `n` is `store_validators` with a snapshot of the epoch. -/
def storeEpoch (n epoch : Nat) : List ApiMove :=
  [.spawn (.command (.storeValidators .sequential (snapshotOf epoch)) (snapshotOf_fits epoch)),
    .proc n .next, .proc n .next]

/-- Task `n` is a warm-up. -/
def warmUp (n : Nat) : List ApiMove :=
  [.spawn .warmer, .proc n .next,
    .proc n (.rows ⟨.sequential, fun _ _ => 0, fun _ => none⟩), .proc n (.scores Dict.empty),
    .proc n (.incidents .sequential), .proc n (.write fun _ _ => 0)]

/-- Epoch 501 is stored and warmed up between the reads of a request for two epochs. -/
def warmUpBetweenReads : List ApiMove :=
  storeEpoch 0 499 ++ storeEpoch 1 500 ++ warmUp 2 ++
    [.spawn (.list { epochs := some 2 }), .proc 3 (.list .sequential)] ++
    storeEpoch 4 501 ++ warmUp 5 ++ [.proc 3 .next]

/-- The validator has stats for epoch 499, of which there is no aggregate. -/
theorem listValidators_torn :
    ¬ StatesAll (apiProtocol String.toLower).step (fun s => ∀ task ∈ s.procs, task.NotTorn)
        (apiInit clusterOnly) warmUpBetweenReads ∧
      ∃ s response,
        exec (apiProtocol String.toLower).step (apiInit clusterOnly) warmUpBetweenReads =
          some s ∧
        s.procs[3]? = some (.list (.listed { epochs := some 2 } 1 2 response)) ∧
        response.validators.map (fun v => v.epochStats.map ValidatorEpochStats.epoch) =
          [[500, 499]] ∧
        response.validatorsAggregated.map ValidatorsAggregated.epoch = [501, 500] := by
  have hrun : ∃ s response,
      exec (apiProtocol String.toLower).step (apiInit clusterOnly) warmUpBetweenReads = some s ∧
      s.procs[3]? = some (.list (.listed { epochs := some 2 } 1 2 response)) ∧
      response.validators.map (fun v => v.epochStats.map ValidatorEpochStats.epoch) =
        [[500, 499]] ∧
      response.validatorsAggregated.map ValidatorsAggregated.epoch = [501, 500] :=
    ⟨_, _, rfl, rfl, rfl, rfl⟩
  refine ⟨fun hall => ?_, hrun⟩
  obtain ⟨s, response, hexec, htask, -, -⟩ := hrun
  have htorn := hall.last hexec _ (List.mem_of_getElem? htask)
  exact absurd htorn.1 (by decide)

/-- Epoch 501 is stored between the reads, and no warm-up comes in between. -/
def storedBetweenReads : List ApiMove :=
  storeEpoch 0 499 ++ storeEpoch 1 500 ++ warmUp 2 ++
    [.spawn (.list { epochs := some 2 }), .proc 3 (.list .sequential)] ++
    storeEpoch 4 501 ++ [.proc 3 .next]

theorem listValidators_notTorn_stored :
    StatesAll (apiProtocol String.toLower).step (fun s => ∀ task ∈ s.procs, task.NotTorn)
      (apiInit clusterOnly) storedBetweenReads := by
  apply (listValidators_notTorn String.toLower clusterOnly).1
  iterate 11 refine .cons rfl (by rintro _ _ ⟨⟩) ?_
  -- the write of the warm-up comes before the request
  refine .cons rfl (by rintro _ _ ⟨⟩; decide) ?_
  iterate 5 refine .cons rfl (by rintro _ _ ⟨⟩) ?_
  exact .cons rfl (by rintro _ _ ⟨⟩) trivial

/-! ## Incomplete reports -/

/-- When a request of `/reports/staking` reads the cached validators, those with a score and
the flag have stats for the last epoch that it has read. -/
def ReadsCovered (s : Procs ApiState ApiTask) (a : ApiMove) : Prop :=
  ∀ n lastEpoch scores, a = .proc n .next →
    s.procs[n]? = some (.report (.readScores lastEpoch scores)) →
      Covered lastEpoch scores s.shared.validators

/-- When a request of `/reports/staking` reads the cached validators, their load had read the
same last epoch. -/
def ReadsSameEpoch (s : Procs ApiState ApiTask) (a : ApiMove) : Prop :=
  ∀ n lastEpoch scores, a = .proc n .next →
    s.procs[n]? = some (.report (.readScores lastEpoch scores)) →
      lastEpoch = s.shared.loadEpoch

structure ApiInv (s : Procs ApiState ApiTask) : Prop where
  tables : TablesInv s.shared.db
  records : RecordsOf s.shared.loadEpoch s.shared.validators
  tasks : ∀ task ∈ s.procs, task.Promises

section Reports

variable {toLowercase : String → String} {s s' : Procs ApiState ApiTask} {a : ApiMove}

theorem apiInv_init {db : Database} (hdb : TablesInv db) : ApiInv (apiInit db) where
  tables := hdb
  records _ he := nomatch he
  tasks _ htask := nomatch htask

theorem promises_step (hinv : ApiInv s) (h : (apiProtocol toLowercase).step s a = some s') :
    ∀ task ∈ s'.procs, task.Promises := by
  refine Protocol.forall_step (fun _ task => ApiTask.Promises task) h hinv.tasks ?_ ?_ ?_
  · intro i _
    cases i with
    | command c fits => exact fits
    | _ => trivial
  · exact fun _ _ _ _ _ _ htask => htask
  · intro n b task shared task' _ hn hstep
    have htask := hinv.tasks task (List.mem_of_getElem? hn)
    refine ⟨?_, fun _ _ hq => hq⟩
    cases ApiTask.step_cases hstep with
    | command hcommand => exact (hcommand htask hinv.tables).2
    | load hload => exact hload htask hinv.tables
    | _ => trivial

/-- **The invariant of the API**: the tables keep their constraints, and the cached
validators are the records of a load. -/
theorem apiInv_step (hinv : ApiInv s) (h : (apiProtocol toLowercase).step s a = some s') :
    ApiInv s' := by
  have hpromises := promises_step hinv h
  rcases Protocol.step_cases h with ⟨scores, shared, -, henv, rfl⟩ | ⟨i, -, rfl⟩ |
    ⟨n, b, task, shared, task', -, hn, hstep, rfl⟩
  · obtain rfl := Option.some.inj henv
    exact ⟨hinv.tables, hinv.records, hpromises⟩
  · exact ⟨hinv.tables, hinv.records, hpromises⟩
  · have htask := hinv.tasks task (List.mem_of_getElem? hn)
    cases ApiTask.step_cases hstep with
    | command hcommand => exact ⟨(hcommand htask hinv.tables).1, hinv.records, hpromises⟩
    | write => exact ⟨hinv.tables, htask, hpromises⟩
    | _ => exact ⟨hinv.tables, hinv.records, hpromises⟩

/-- **A step keeps the reports complete** exactly if the validators that it may read cover
the scores. -/
theorem dropsNobody_step (hinv : ApiInv s) (hall : ∀ task ∈ s.procs, task.DropsNobody)
    (h : (apiProtocol toLowercase).step s a = some s') :
    (∀ task ∈ s'.procs, task.DropsNobody) ↔ ReadsCovered s a := by
  constructor
  · rintro hall' n lastEpoch scores rfl hn
    have hstep : (apiProtocol toLowercase).step s (.proc n .next) = some
        ⟨s.shared, s.procs.set n (.report (.reported scores s.shared.validators
          (getPlannedStakes lastEpoch scores s.shared.validators)))⟩ :=
      Protocol.step_proc hn rfl
    obtain rfl := Option.some.inj (h.symm.trans hstep)
    have hn' := List.getElem?_set_self (a := ApiTask.report (.reported scores s.shared.validators
      (getPlannedStakes lastEpoch scores s.shared.validators))) (List.getElem?_eq_some_iff.mp hn).1
    exact (complete_iff hinv.records scores).mp (hall' _ (List.mem_of_getElem? hn'))
  · intro hcovered
    refine Protocol.forall_step (fun _ task => ApiTask.DropsNobody task) h hall ?_ ?_ ?_
    · intro i _
      cases i <;> trivial
    · exact fun _ _ _ _ _ _ htask => htask
    · intro n b task shared task' ha hn hstep
      refine ⟨?_, fun _ _ hq => hq⟩
      cases ApiTask.step_cases hstep with
      | read _ hread => exact hread
      | report => exact (complete_iff hinv.records _).mpr (hcovered n _ _ ha hn)
      | _ => trivial

/-- A request that has read the epoch of the load finds the stats of all. -/
theorem ReadsSameEpoch.covered (hinv : ApiInv s) (h : ReadsSameEpoch s a) :
    ReadsCovered s a := by
  intro n lastEpoch scores ha hn
  obtain rfl := h n lastEpoch scores ha hn
  exact covered_of_records hinv.records scores

end Reports

/-- **The staking report**: in a run every report is complete exactly if, whenever a request
reads the cached validators, those with a score and the flag have stats for the last epoch
that it has read; and so if the load of the validators had read the same last epoch. -/
theorem reportsStaking_complete (toLowercase : String → String) (db : Database)
    (hdb : TablesInv db) :
    (∀ moves, StatesAll (apiProtocol toLowercase).step
        (fun s => ∀ task ∈ s.procs, task.DropsNobody) (apiInit db) moves ↔
      StepsAll (apiProtocol toLowercase).step ReadsCovered (apiInit db) moves) ∧
    ∀ moves, StepsAll (apiProtocol toLowercase).step ReadsSameEpoch (apiInit db) moves →
      StatesAll (apiProtocol toLowercase).step (fun s => ∀ task ∈ s.procs, task.DropsNobody)
        (apiInit db) moves := by
  constructor
  · exact statesAll_iff_stepsAll (fun s a s' hinv h => apiInv_step hinv h)
      (fun s a s' hinv hall h => dropsNobody_step hinv hall h) (apiInv_init hdb)
      fun _ htask => nomatch htask
  · intro moves hok
    have hinv : StatesAll (apiProtocol toLowercase).step
        (fun s => ApiInv s ∧ ∀ task ∈ s.procs, task.DropsNobody) (apiInit db) moves := by
      refine statesAll_of_stepsAll (fun s a s' hinv hok h => ⟨apiInv_step hinv.1 h, ?_⟩)
        ⟨apiInv_init hdb, fun _ htask => nomatch htask⟩ hok
      exact (dropsNobody_step hinv.1 hinv.2 h).mpr (hok.covered hinv.1)
    exact hinv.mono fun s hinv => hinv.2

theorem clusterOnly_tables : TablesInv clusterOnly := ⟨List.nodup_nil, fun _ hrow => nomatch hrow⟩

/-- A score of the validator. -/
def voteScores : Dict String ValidatorScoreRecord where
  entries := [("vote", {
    voteAccount := "vote"
    score := 1
    rank := 1
    vemndeVotes := 0
    msolVotes := 0
    uiHints := []
    componentScores := []
    componentRanks := []
    componentValues := []
    eligibleStakeAlgo := true
    eligibleStakeVemnde := false
    eligibleStakeMsol := false
    targetStakeAlgo := 20
    targetStakeVemnde := 0
    targetStakeMsol := 0
    scoringRunId := 1
    createdAt := 0 })]
  nodup := List.nodup_singleton _

/-- Task `n` is a request of `/reports/staking`. -/
def reportStaking (n : Nat) : List ApiMove :=
  [.spawn .report, .proc n .next, .proc n .next, .proc n .next]

/-- The request finds the epoch of the warm-up in the database. -/
def reportAfterWarmUp : List ApiMove :=
  storeEpoch 0 500 ++ warmUp 1 ++ [.env voteScores] ++ reportStaking 2

theorem reportsStaking_complete_afterWarmUp :
    StatesAll (apiProtocol String.toLower).step (fun s => ∀ task ∈ s.procs, task.DropsNobody)
      (apiInit clusterOnly) reportAfterWarmUp := by
  apply (reportsStaking_complete String.toLower clusterOnly clusterOnly_tables).2
  iterate 13 refine .cons rfl (by rintro _ _ _ ⟨⟩ ⟨⟩) ?_
  refine .cons rfl ?_ trivial
  rintro _ _ _ ⟨⟩ ⟨⟩
  rfl

/-- Epoch 501 is stored after the warm-up. -/
def reportAfterNewEpoch : List ApiMove :=
  storeEpoch 0 500 ++ warmUp 1 ++ [.env voteScores] ++ storeEpoch 2 501 ++ reportStaking 3

/-- The validator has a score and the flag, and the report is empty. -/
theorem reportsStaking_empty :
    ¬ StatesAll (apiProtocol String.toLower).step (fun s => ∀ task ∈ s.procs, task.DropsNobody)
        (apiInit clusterOnly) reportAfterNewEpoch ∧
      ∃ s validators validator,
        exec (apiProtocol String.toLower).step (apiInit clusterOnly) reportAfterNewEpoch =
          some s ∧
        s.procs[3]? = some (.report (.reported voteScores validators (some []))) ∧
        flagged validators "vote" = some validator ∧
        validator.epochStats.map ValidatorEpochStats.epoch = [500] := by
  have hrun : ∃ s validators validator,
      exec (apiProtocol String.toLower).step (apiInit clusterOnly) reportAfterNewEpoch = some s ∧
      s.procs[3]? = some (.report (.reported voteScores validators (some []))) ∧
      flagged validators "vote" = some validator ∧
      validator.epochStats.map ValidatorEpochStats.epoch = [500] :=
    ⟨_, _, _, rfl, rfl, rfl, rfl⟩
  refine ⟨fun hall => ?_, hrun⟩
  obtain ⟨s, validators, validator, hexec, htask, hflagged, -⟩ := hrun
  obtain ⟨changes, hchanges, haccounts⟩ := hall.last hexec _ (List.mem_of_getElem? htask)
  obtain rfl := Option.some.inj hchanges
  -- the vote account of the score is missing
  have hmem : ("vote" : String) ∈ (voteScores.entries.filter fun e =>
      (flagged validators e.1).isSome).map Prod.fst := by
    refine List.mem_map.mpr ⟨_, List.mem_filter.mpr ⟨List.mem_singleton_self _, ?_⟩, rfl⟩
    show (flagged validators "vote").isSome = true
    rw [hflagged]
    rfl
  rw [← haccounts] at hmem
  cases hmem

end DelegationStrategy.Api
