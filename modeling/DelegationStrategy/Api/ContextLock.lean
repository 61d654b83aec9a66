import DelegationStrategy.Lib.FairLock
import DelegationStrategy.Lib.Trace
import Mathlib.Logic.Function.Basic

/-!
# The shared context lock of the API

`api/src/context.rs` wraps the whole `Context` (database client, paths, cache)
in one `tokio::sync::RwLock`. The cache warmer, the HTTP handlers and the score
upload all go through it. This module embeds the lock operations of every
routine, in program order, and runs any number of them interleaved.

What decides the order of the operations is Rust's temporary scopes: the guard
of `context.read().await.psql_client` in an argument of a call lives until the
end of the *whole statement*, across the `.await` of the call. So

- `f(&context.read().await.psql_client, …).await` takes a guard, runs the query
  and drops the guard (`readStatement`);
- `f(&context.read().await.psql_client, &context.read().await.blacklist_path, …)`
  takes a second guard **while it holds the first** (`nestedReadStatement`).

The lock is deadlock free along a run exactly if no routine takes its second
guard while a writer waits (`contextLock_deadlockFree_iff`); only three routines
ever do take one (`nested_acquire_routine`), and once the cycle is closed no
task that takes part in it gets out by itself (`deadlock_is_permanent`).
-/

namespace DelegationStrategy.Api

open DelegationStrategy.Lib

/-- One lock operation of a routine. -/
inductive LockOp where
  | acquire (m : Mode)
  | release (m : Mode)
  deriving DecidableEq, Repr

/-- A statement with one `context.read().await`, dropped at its end. -/
def readStatement : List LockOp := [.acquire .read, .release .read]

/-- A statement with one `context.write().await`, dropped at its end. -/
def writeStatement : List LockOp := [.acquire .write, .release .write]

/-- A call with two `context.read().await` among its arguments: both guards are
temporaries of the statement. -/
def nestedReadStatement : List LockOp :=
  [.acquire .read, .acquire .read, .release .read, .release .read]

/-! ## The routines -/

/-- The functions the cache warmer calls, in the order of its loop
(`spawn_cache_warmer`). -/
inductive WarmFunction where
  | warmScoresCache
  | warmVersionsCache
  | warmCommissionsCache
  | warmUptimesCache
  | warmClusterStatsCache
  | warmValidatorsCache
  deriving DecidableEq, Repr

/-- The function the loop of `spawn_cache_warmer` calls next. -/
def WarmFunction.next : WarmFunction → WarmFunction
  | .warmScoresCache => .warmVersionsCache
  | .warmVersionsCache => .warmCommissionsCache
  | .warmCommissionsCache => .warmUptimesCache
  | .warmUptimesCache => .warmClusterStatsCache
  | .warmClusterStatsCache => .warmValidatorsCache
  | .warmValidatorsCache => .warmScoresCache

/-- The handlers that use the context (`reports_scoring_html`, `config` and
`docs` do not). -/
inductive Handler where
  | unstakeHints
  | globalUnstakeHints
  | adminScoreUpload
  | listValidators
  | validatorScoreBreakdown
  | validatorScoreBreakdowns
  | validatorScores
  | validatorsFlat
  | validatorsBlockRewards
  | clusterStats
  | uptimes
  | events
  | versions
  | commissions
  | glossary
  | reportsCommissionChanges
  | reportsScoring
  | reportsStaking
  | rewards
  | jitoMev
  | jito
  deriving DecidableEq, Repr

/-- The lock operations of the warmer's functions. `warm_scores_cache` loads the
scores only if it found a scoring run. -/
def WarmFunction.code (scoringRunFound : Bool) : WarmFunction → List LockOp
  | .warmScoresCache =>
    readStatement                                          -- load_last_scoring_run
      ++ (if scoringRunFound then readStatement else [])   -- load_scores
      ++ readStatement                                     -- load_all_scores
      ++ readStatement                                     -- load_last_scoring_run
      ++ readStatement                                     -- load_scoring_runs
      ++ writeStatement                                    -- validators_single_run_scores
      ++ writeStatement                                    -- validators_multi_run_scores
  | .warmVersionsCache => readStatement ++ writeStatement
  | .warmCommissionsCache => readStatement ++ writeStatement
  | .warmUptimesCache => readStatement ++ writeStatement
  | .warmClusterStatsCache => readStatement ++ writeStatement
  | .warmValidatorsCache =>
    readStatement                                          -- cache.per_epoch.clone()
      ++ nestedReadStatement                               -- load_validators: client, scoring_url
      ++ writeStatement                                    -- per_epoch, validators, aggregated

/-- The lock operations of the handlers. -/
def Handler.code : Handler → List LockOp
  | .unstakeHints => nestedReadStatement                   -- client, blacklist_path
  | .globalUnstakeHints => nestedReadStatement             -- client, blacklist_path
  | .adminScoreUpload => writeStatement
  | .listValidators => readStatement ++ readStatement
  | .validatorScoreBreakdown => readStatement
  | .validatorScoreBreakdowns => readStatement
  | .validatorScores => readStatement
  | .validatorsFlat => readStatement
  | .validatorsBlockRewards => readStatement
  | .clusterStats => readStatement
  | .uptimes => readStatement ++ readStatement
  | .events => readStatement ++ readStatement              -- the second guard is a variable, `ctx`
  | .versions => readStatement ++ readStatement
  | .commissions => readStatement ++ readStatement
  | .glossary => readStatement
  | .reportsCommissionChanges => readStatement
  | .reportsScoring => readStatement
  | .reportsStaking => readStatement ++ readStatement ++ readStatement
  | .rewards => readStatement                              -- one guard for all four queries
  | .jitoMev => readStatement
  | .jito => readStatement

/-- What a task executes. -/
inductive Routine where
  | warm (f : WarmFunction) (scoringRunFound : Bool)
  | handler (h : Handler)
  deriving DecidableEq, Repr

def Routine.code : Routine → List LockOp
  | .warm f scoringRunFound => f.code scoringRunFound
  | .handler h => h.code

/-! ## The running API -/

/-- Tasks are numbered; task `0` is the cache warmer, every request gets a fresh
number. `code t` is what task `t` still has to execute of `routine t`. -/
structure State where
  lock : RwLock Nat
  code : Nat → List LockOp
  routine : Nat → Option Routine
  nextTask : Nat
  nextWarm : WarmFunction

/-- The scheduler's choices. -/
inductive Action where
  /-- The cache warmer enters the next function of its loop. -/
  | warm (scoringRunFound : Bool)
  /-- A request arrives and its handler is spawned. -/
  | serve (h : Handler)
  /-- A task executes its next lock operation. -/
  | run (t : Nat)
  /-- A task returns early (an error, a missing record) or its request is
  dropped by the client: guards and pending request go away with it. -/
  | leave (t : Nat)
  deriving Repr

/-- Nothing runs and the lock is free. -/
def init : State where
  lock := RwLock.free
  code _ := []
  routine _ := none
  nextTask := 1
  nextWarm := .warmScoresCache

/-- Task `t` enters routine `r`. -/
def State.enter (s : State) (t : Nat) (r : Routine) : State :=
  { s with
    code := Function.update s.code t r.code
    routine := Function.update s.routine t (some r) }

/-- Task `t` goes on with `c` while the lock becomes `l`. -/
def State.goOn (s : State) (t : Nat) (l : RwLock Nat) (c : List LockOp) : State :=
  { s with lock := l, code := Function.update s.code t c }

/-- One step of the API. A task that waits for a guard executes nothing, and the
warmer, which nobody cancels, cannot leave while it waits. -/
def step (s : State) : Action → Option State
  | .warm scoringRunFound =>
    -- the loop awaits a function before it calls the next
    if s.code 0 = [] then
      some { s.enter 0 (.warm s.nextWarm scoringRunFound) with nextWarm := s.nextWarm.next }
    else none
  | .serve h =>
    some { s.enter s.nextTask (.handler h) with nextTask := s.nextTask + 1 }
  | .run t =>
    if s.lock.Waits t then none
    else match s.code t with
      | [] => none
      | .acquire m :: c => some (s.goOn t (s.lock.request t m) c)
      | .release m :: c => some (s.goOn t (s.lock.release t m) c)
  | .leave t =>
    if t = 0 ∧ s.lock.Waits t then none else some (s.goOn t (s.lock.leave t) [])

section Updates

variable (s : State) (t : Nat) (r : Routine) (l : RwLock Nat) (c : List LockOp)

@[simp] theorem enter_lock : (s.enter t r).lock = s.lock := rfl

@[simp] theorem enter_nextTask : (s.enter t r).nextTask = s.nextTask := rfl

@[simp] theorem enter_code_self : (s.enter t r).code t = r.code :=
  Function.update_self ..

@[simp] theorem enter_routine_self : (s.enter t r).routine t = some r :=
  Function.update_self ..

@[simp] theorem goOn_lock : (s.goOn t l c).lock = l := rfl

@[simp] theorem goOn_routine : (s.goOn t l c).routine = s.routine := rfl

@[simp] theorem goOn_nextTask : (s.goOn t l c).nextTask = s.nextTask := rfl

@[simp] theorem goOn_code_self : (s.goOn t l c).code t = c :=
  Function.update_self ..

variable {s t r l c} {t' : Nat}

theorem enter_code_other (h : t' ≠ t) : (s.enter t r).code t' = s.code t' :=
  Function.update_of_ne h ..

theorem enter_routine_other (h : t' ≠ t) : (s.enter t r).routine t' = s.routine t' :=
  Function.update_of_ne h ..

theorem goOn_code_other (h : t' ≠ t) : (s.goOn t l c).code t' = s.code t' :=
  Function.update_of_ne h ..

end Updates

/-! ## The guards of a task, by what it has still to execute -/

/-- The guards of mode `m` that the rest of a routine releases beyond those it
still acquires, i.e. those the task has asked for already. -/
def outstanding (m : Mode) : List LockOp → Int
  | [] => 0
  | .acquire m' :: c => outstanding m c - (if m' = m then 1 else 0)
  | .release m' :: c => outstanding m c + (if m' = m then 1 else 0)

/-- Every routine releases what it acquires. -/
theorem outstanding_code (m : Mode) (r : Routine) : outstanding m r.code = 0 := by
  match r with
  | .warm f found => cases f <;> cases found <;> cases m <;> decide
  | .handler h => cases h <;> cases m <;> decide

/-- No routine releases a guard it does not hold. -/
theorem outstanding_nonneg {m : Mode} {r : Routine} {c : List LockOp}
    (h : c <:+ r.code) : 0 ≤ outstanding m c := by
  have key : ∀ c ∈ r.code.tails, 0 ≤ outstanding m c := by
    match r with
    | .warm f found => cases f <;> cases found <;> cases m <;> decide
    | .handler h => cases h <;> cases m <;> decide
  exact key c ((List.mem_tails _ _).mpr h)

/-- The routines with two `context.read().await` in one call expression. -/
def Routine.nests : Routine → Bool
  | .warm .warmValidatorsCache _ => true
  | .handler .unstakeHints => true
  | .handler .globalUnstakeHints => true
  | _ => false

/-- Whether the next operation asks for a guard. -/
def asks : List LockOp → Bool
  | .acquire _ :: _ => true
  | _ => false

/-- In every other routine a guard is acquired only when none is held. -/
theorem nests_of_outstanding {m : Mode} {r : Routine} {c : List LockOp}
    (h : c <:+ r.code) (hask : asks c) (hout : 0 < outstanding m c) : r.nests := by
  have key : ∀ c ∈ r.code.tails, asks c → 0 < outstanding m c → r.nests := by
    match r with
    | .warm f found => cases f <;> cases found <;> cases m <;> decide
    | .handler h => cases h <;> cases m <;> decide
  exact key c ((List.mem_tails _ _).mpr h) hask hout

/-! ## The invariant of the running API -/

/-- What holds in every reachable state: the lock has at most one request of
each task, a task has exactly the guards and requests that its routine has asked
for and not released, and it executes the rest of some routine. -/
structure Inv (s : State) : Prop where
  oneRequest : s.lock.OneRequest
  guards : ∀ t m, ((s.lock.holders.count (t, m) + s.lock.queue.count (t, m) : Nat) : Int)
    = outstanding m (s.code t)
  suffix : ∀ t, s.code t = [] ∨ ∃ r, s.routine t = some r ∧ s.code t <:+ r.code
  fresh : ∀ t, s.nextTask ≤ t → s.code t = []
  warmer : 0 < s.nextTask

theorem init_inv : Inv init where
  oneRequest := List.nodup_nil
  guards _ _ := rfl
  suffix _ := Or.inl rfl
  fresh _ _ := rfl
  warmer := Nat.one_pos

/-- The next operation of a task is the rest of its routine. -/
theorem Inv.suffix_cons {s : State} (h : Inv s) {t : Nat} {op : LockOp}
    {c : List LockOp} (hc : s.code t = op :: c) :
    ∃ r, s.routine t = some r ∧ op :: c <:+ r.code := by
  rcases h.suffix t with hnil | ⟨r, hr, hsuf⟩
  · rw [hc] at hnil
    cases hnil
  · rw [hc] at hsuf
    exact ⟨r, hr, hsuf⟩

/-- A task that does not wait holds the guards its routine has asked for. -/
theorem Inv.count_holders {s : State} (h : Inv s) {t : Nat}
    (ht : ¬ s.lock.Waits t) (m : Mode) :
    (s.lock.holders.count (t, m) : Int) = outstanding m (s.code t) := by
  have hq : s.lock.queue.count (t, m) = 0 :=
    List.count_eq_zero.mpr fun hmem => ht (List.mem_map.mpr ⟨_, hmem, rfl⟩)
  have hg := h.guards t m
  omega

/-- A task that had finished its last routine may enter another one. -/
theorem Inv.enter {s : State} (h : Inv s) {t : Nat} (ht : s.code t = [])
    (r : Routine) {n : Nat} (w : WarmFunction) (hn : s.nextTask ≤ n) (htn : t < n) :
    Inv { s.enter t r with nextTask := n, nextWarm := w } where
  oneRequest := h.oneRequest
  guards t' m := by
    show _ = outstanding m ((s.enter t r).code t')
    -- the task that enters holds nothing, and its routine starts balanced
    by_cases htt : t' = t
    · subst htt
      rw [enter_code_self, outstanding_code]
      exact (h.guards t' m).trans (congrArg (outstanding m) ht)
    · rw [enter_code_other htt]
      exact h.guards t' m
  suffix t' := by
    show (s.enter t r).code t' = [] ∨
      ∃ r', (s.enter t r).routine t' = some r' ∧ (s.enter t r).code t' <:+ r'.code
    by_cases htt : t' = t
    · subst htt
      rw [enter_code_self, enter_routine_self]
      exact Or.inr ⟨r, rfl, List.suffix_refl _⟩
    · rw [enter_code_other htt, enter_routine_other htt]
      exact h.suffix t'
  fresh t' ht' := by
    have hlt : n ≤ t' := ht'
    show (s.enter t r).code t' = []
    rw [enter_code_other (by omega)]
    exact h.fresh t' (Nat.le_trans hn hlt)
  warmer := Nat.lt_of_lt_of_le h.warmer hn

/-- Going on with the lock changed: the counts of the acting task must match the
code it goes on with, those of the other tasks must stay. -/
theorem Inv.goOn {s : State} (h : Inv s) {t : Nat} {l : RwLock Nat}
    {c : List LockOp} (hc : c <:+ s.code t) (hone : l.OneRequest)
    (hself : ∀ m, ((l.holders.count (t, m) + l.queue.count (t, m) : Nat) : Int)
      = outstanding m c)
    (hother : ∀ t' m, t' ≠ t → l.holders.count (t', m) + l.queue.count (t', m)
      = s.lock.holders.count (t', m) + s.lock.queue.count (t', m)) :
    Inv (s.goOn t l c) where
  oneRequest := hone
  guards t' m := by
    by_cases htt : t' = t
    · subst htt
      rw [goOn_lock, goOn_code_self]
      exact hself m
    · rw [goOn_lock, goOn_code_other htt, hother t' m htt]
      exact h.guards t' m
  suffix t' := by
    by_cases htt : t' = t
    · subst htt
      rw [goOn_code_self, goOn_routine]
      rcases h.suffix t' with hnil | ⟨r, hr, hsuf⟩
      · rw [hnil] at hc
        exact Or.inl (List.suffix_nil.mp hc)
      · exact Or.inr ⟨r, hr, hc.trans hsuf⟩
    · rw [goOn_code_other htt]
      exact h.suffix t'
  fresh t' ht' := by
    have hnil := h.fresh t' ht'
    by_cases htt : t' = t
    · subst htt
      rw [hnil] at hc
      rw [goOn_code_self]
      exact List.suffix_nil.mp hc
    · rw [goOn_code_other htt]
      exact hnil
  warmer := h.warmer

/-- The guards and requests of a pair, through granting. -/
theorem count_grant (x : Nat × Mode) (hs q : List (Nat × Mode)) :
    (RwLock.grant hs q).holders.count x + (RwLock.grant hs q).queue.count x
      = hs.count x + q.count x :=
  RwLock.countP_grant (· == x) hs q

/-- Asking for a guard adds one request, wherever granting puts it. -/
theorem Inv.request {s : State} (h : Inv s) {t : Nat} {m : Mode}
    {c : List LockOp} (ht : ¬ s.lock.Waits t) (hc : s.code t = .acquire m :: c) :
    Inv (s.goOn t (s.lock.request t m) c) := by
  have hcount : ∀ x, (s.lock.request t m).holders.count x
      + (s.lock.request t m).queue.count x
      = s.lock.holders.count x + s.lock.queue.count x + [(t, m)].count x := by
    intro x
    rw [RwLock.request, count_grant, List.count_append]
    omega
  -- the request is counted whether it was granted at once or not
  refine h.goOn (hc ▸ List.suffix_cons _ c)
    (RwLock.oneRequest_grant (RwLock.nodup_enqueue h.oneRequest ht))
    (fun m' => ?_) (fun t' m' htt => ?_)
  · have hg := h.guards t m'
    rw [hc, outstanding] at hg
    rw [hcount, List.count_singleton]
    by_cases hm : m = m'
    · subst hm
      simp at hg ⊢
      omega
    · simp [hm] at hg ⊢
      omega
  · rw [hcount, List.count_singleton, if_neg (by simpa using fun h => absurd h.symm htt)]
    rfl

/-- Dropping a guard removes one holder. -/
theorem Inv.release {s : State} (h : Inv s) {t : Nat} {m : Mode}
    {c : List LockOp} (ht : ¬ s.lock.Waits t) (hc : s.code t = .release m :: c) :
    Inv (s.goOn t (s.lock.release t m) c) := by
  -- the guard is really held: no routine releases what it has not acquired
  have hheld : 0 < s.lock.holders.count (t, m) := by
    obtain ⟨r, -, hsuf⟩ := h.suffix_cons hc
    have hnonneg := outstanding_nonneg (m := m) ((List.suffix_cons _ c).trans hsuf)
    have hcount := h.count_holders ht m
    rw [hc, outstanding, if_pos rfl] at hcount
    omega
  have hcount : ∀ x, (s.lock.release t m).holders.count x
      + (s.lock.release t m).queue.count x
      = s.lock.holders.count x - (if (t, m) == x then 1 else 0) + s.lock.queue.count x := by
    intro x
    rw [RwLock.release, count_grant, List.count_erase]
  refine h.goOn (hc ▸ List.suffix_cons _ c) (RwLock.oneRequest_grant h.oneRequest)
    (fun m' => ?_) (fun t' m' htt => ?_)
  · have hg := h.guards t m'
    rw [hc, outstanding] at hg
    rw [hcount]
    by_cases hm : m = m'
    · subst hm
      simp at hg ⊢
      omega
    · simp [hm] at hg ⊢
      omega
  · rw [hcount, if_neg (by simpa using fun h => absurd h.symm htt)]
    rfl

/-- A task that leaves takes its guards and its request with it. -/
theorem Inv.leave {s : State} (h : Inv s) (t : Nat) :
    Inv (s.goOn t (s.lock.leave t) []) := by
  have hcount : ∀ x, (s.lock.leave t).holders.count x + (s.lock.leave t).queue.count x
      = (s.lock.holders.filter fun y => y.1 ≠ t).count x
        + (s.lock.queue.filter fun y => y.1 ≠ t).count x :=
    fun x => count_grant x _ _
  refine h.goOn List.nil_suffix
    (RwLock.oneRequest_grant ((List.filter_sublist.map Prod.fst).nodup h.oneRequest))
    (fun m => ?_) (fun t' m htt => ?_)
  · have hzero : ∀ l : List (Nat × Mode), (l.filter fun y => y.1 ≠ t).count (t, m) = 0 :=
      fun l => List.count_eq_zero.mpr fun hmem => by
        simpa using (List.mem_filter.mp hmem).2
    rw [hcount, hzero, hzero]
    rfl
  · have hsame : ∀ l : List (Nat × Mode),
        (l.filter fun y => y.1 ≠ t).count (t', m) = l.count (t', m) :=
      fun l => List.count_filter (by simpa using htt)
    rw [hcount, hsame, hsame]

/-! ## Every step -/

/-- What a step can do. -/
theorem step_cases {s s' : State} {a : Action} (h : step s a = some s') :
    (∃ found, a = .warm found ∧ s.code 0 = [] ∧
      s' = { s.enter 0 (.warm s.nextWarm found) with nextWarm := s.nextWarm.next }) ∨
    (∃ hd, a = .serve hd ∧
      s' = { s.enter s.nextTask (.handler hd) with nextTask := s.nextTask + 1 }) ∨
    (∃ t m c, a = .run t ∧ ¬ s.lock.Waits t ∧ s.code t = .acquire m :: c ∧
      s' = s.goOn t (s.lock.request t m) c) ∨
    (∃ t m c, a = .run t ∧ ¬ s.lock.Waits t ∧ s.code t = .release m :: c ∧
      s' = s.goOn t (s.lock.release t m) c) ∨
    (∃ t, a = .leave t ∧ s' = s.goOn t (s.lock.leave t) []) := by
  cases a with
  | warm found =>
    rw [step] at h
    split at h
    case isTrue hc => exact Or.inl ⟨found, rfl, hc, (Option.some.inj h).symm⟩
    case isFalse => cases h
  | serve hd => exact Or.inr (Or.inl ⟨hd, rfl, (Option.some.inj h).symm⟩)
  | run t =>
    rw [step] at h
    split at h
    case isTrue => cases h
    case isFalse ht =>
      cases hc : s.code t with
      | nil => simp [hc] at h
      | cons op c =>
        rw [hc] at h
        cases op with
        | acquire m =>
          exact Or.inr (Or.inr (Or.inl ⟨t, m, c, rfl, ht, hc, (Option.some.inj h).symm⟩))
        | release m =>
          exact Or.inr (Or.inr (Or.inr (Or.inl
            ⟨t, m, c, rfl, ht, hc, (Option.some.inj h).symm⟩)))
  | leave t =>
    rw [step] at h
    split at h
    case isTrue => cases h
    case isFalse =>
      exact Or.inr (Or.inr (Or.inr (Or.inr ⟨t, rfl, (Option.some.inj h).symm⟩)))

theorem step_inv {s s' : State} {a : Action} (hinv : Inv s)
    (h : step s a = some s') : Inv s' := by
  rcases step_cases h with ⟨found, rfl, hc, rfl⟩ | ⟨hd, rfl, rfl⟩ |
    ⟨t, m, c, rfl, ht, hc, rfl⟩ | ⟨t, m, c, rfl, ht, hc, rfl⟩ | ⟨t, rfl, rfl⟩
  · exact hinv.enter hc _ _ (Nat.le_refl _) hinv.warmer
  · exact hinv.enter (hinv.fresh _ (Nat.le_refl _)) _ _ (Nat.le_succ _)
      (Nat.lt_succ_self _)
  · exact hinv.request ht hc
  · exact hinv.release ht hc
  · exact hinv.leave t

/-! ## Deadlock freedom, exactly -/

/-- No task holds a read guard and waits for another guard behind a writer that
waits for it. -/
def DeadlockFree (s : State) : Prop := ¬ s.lock.WaitCycle

/-- When a task that holds a read guard asks for another guard, no writer
waits. -/
def NestsUnopposed (s : State) (a : Action) : Prop :=
  ∀ t m c, a = .run t → s.code t = .acquire m :: c →
    (t, Mode.read) ∈ s.lock.holders → ∀ w, (w, Mode.write) ∉ s.lock.queue

/-- One step closes a wait cycle exactly if it asks for a further guard while a
writer waits. -/
theorem step_deadlockFree_iff {s s' : State} {a : Action} (hinv : Inv s)
    (hfree : DeadlockFree s) (h : step s a = some s') :
    DeadlockFree s' ↔ NestsUnopposed s a := by
  rcases step_cases h with ⟨found, rfl, -, rfl⟩ | ⟨hd, rfl, rfl⟩ |
    ⟨t, m, c, rfl, ht, hc, rfl⟩ | ⟨t, m, c, rfl, ht, hc, rfl⟩ | ⟨t, rfl, rfl⟩
  · exact ⟨fun _ _ _ _ ha => (nomatch ha), fun _ => hfree⟩
  · exact ⟨fun _ _ _ _ ha => (nomatch ha), fun _ => hfree⟩
  · have hiff := RwLock.request_waitCycle_iff hinv.oneRequest hfree ht m
    constructor
    · rintro hfree' t' m' c' ⟨⟩ - hheld w hw
      exact hfree' (hiff.mpr ⟨hheld, w, hw⟩)
    · intro hok hcycle
      obtain ⟨hheld, w, hw⟩ := hiff.mp hcycle
      exact hok t m c rfl hc hheld w hw
  · refine ⟨?_, fun _ => RwLock.release_not_waitCycle hinv.oneRequest hfree t m⟩
    rintro - t' m' c' ⟨⟩ hc'
    rw [hc] at hc'
    cases hc'
  · exact ⟨fun _ _ _ _ ha => (nomatch ha),
      fun _ => RwLock.leave_not_waitCycle hinv.oneRequest hfree t⟩

/-- **Deadlock freedom of the context lock, exactly**: along any interleaving of
the warmer, the handlers and the score upload, no state visited has a wait cycle
if and only if no task asks for a further guard while a writer waits. -/
theorem contextLock_deadlockFree_iff (as : List Action) :
    StatesAll step DeadlockFree init as ↔ StepsAll step NestsUnopposed init as :=
  statesAll_iff_stepsAll (fun _ _ _ hinv h => step_inv hinv h)
    (fun _ _ _ hinv hfree h => step_deadlockFree_iff hinv hfree h)
    init_inv (fun ⟨_, _, _, h, _⟩ => nomatch h) as

/-- `/unstake-hints` takes its first guard, the score upload starts to wait for
it, and `/unstake-hints` asks for its second guard. -/
theorem contextLock_deadlocks :
    ¬ StatesAll step DeadlockFree init
      [.serve .unstakeHints, .serve .adminScoreUpload, .run 1, .run 2, .run 1] := by
  intro h
  refine h.last rfl ⟨1, .read, 2, ?_⟩
  decide

/-- Only the unstake hint handlers and `warm_validators_cache` ever ask for a
guard while they hold one. -/
theorem nested_acquire_routine (as : List Action) :
    StatesAll step (fun s => ∀ t m, (t, m) ∈ s.lock.holders → asks (s.code t) →
      ¬ s.lock.Waits t → ∃ r, s.routine t = some r ∧ r.nests) init as := by
  refine (statesAll_of_invariant (fun _ _ _ hinv h => step_inv hinv h) init_inv as).mono
    fun s hinv t m hheld hask ht => ?_
  have hcount := hinv.count_holders ht m
  have hpos := List.count_pos_iff.mpr hheld
  cases hc : s.code t with
  | nil => simp [hc, asks] at hask
  | cons op c =>
    obtain ⟨r, hr, hsuf⟩ := hinv.suffix_cons hc
    rw [hc] at hcount hask
    exact ⟨r, hr, nests_of_outstanding (m := m) hsuf hask (by omega)⟩

/-- **The deadlock is permanent**: as long as no task gives up, no step resolves
a wait cycle. -/
theorem deadlock_is_permanent {s : State} (hcycle : s.lock.WaitCycle)
    (as : List Action) :
    StepsAll step (fun _ a => ∀ t, a ≠ .leave t) s as →
      StatesAll step (fun s => s.lock.WaitCycle) s as := by
  refine statesAll_of_stepsAll
    (fun (s : State) a s' (hcycle : s.lock.WaitCycle) hstay h => ?_) hcycle
  rcases step_cases h with ⟨_, rfl, -, rfl⟩ | ⟨_, rfl, rfl⟩ |
    ⟨t, m, c, rfl, ht, -, rfl⟩ | ⟨t, m, c, rfl, ht, -, rfl⟩ | ⟨t, rfl, rfl⟩
  · exact hcycle
  · exact hcycle
  · exact RwLock.request_waitCycle hcycle t m
  · exact RwLock.release_waitCycle hcycle ht m
  · exact absurd rfl (hstay t)

end DelegationStrategy.Api
