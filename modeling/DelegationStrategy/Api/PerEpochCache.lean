import DelegationStrategy.Lib.Interleaving
import DelegationStrategy.Lib.Query
import Mathlib.Data.Rat.Defs

/-!
# The label of the BigQuery cache

`PerEpochCache::load` (`api/src/cache.rs`) takes its label from `MAX(epoch)` of the
table `epochs` and loads nothing if the cache has this label already. What it loads
comes from other tables: `load_latest_unique_delegators` (`store/src/utils.rs`) asks
for `MAX(epoch)` of `stakes`, and counts in that partition. The ETL appends to the two
tables in any order.

Passes of `warm_validators_cache` are the processes of a protocol; each query and the
final write is a step, and the ETL is the environment.

- An entry is honest if its delegators were counted in a partition not older than its
  label (`Honest`). Nothing an ETL appends makes an honest entry dishonest.
- So all depends on one query: `MAX(epoch)` of `stakes` must not be behind the label
  that the load has read (`StakesReady`). Otherwise the load can store a stale count
  under a new label (`exists_dishonest`), and no later pass refreshes it.
- The cache is written by a load whose queries all succeeded, and by nothing else
  (`Kept`).
-/

namespace DelegationStrategy.Api

open DelegationStrategy.Lib

/-! ## The tables -/

/-- A stake account in an epoch: the columns of `stakes` that the query reads. -/
structure StakesRow where
  epoch : Nat
  voteAccount : Option String
  withdrawAuthority : String
  active : Int
  deriving DecidableEq, Repr

/-- The tables `epochs` and `stakes` of the data set. -/
structure BigQuery where
  epochs : List Nat
  stakes : List StakesRow
  deriving DecidableEq, Repr

/-- `load_last_bigquery_epoch`. -/
def loadLastBigqueryEpoch (bigQuery : BigQuery) : Option Nat := bigQuery.epochs.max?

/-- `SELECT MAX(epoch)` of `stakes`. -/
def maxStakesEpoch (stakes : List StakesRow) : Option Nat :=
  (stakes.map StakesRow.epoch).max?

/-- The vote accounts of the active stake accounts of an epoch, with their
`withdraw_authority`. -/
def delegations (stakes : List StakesRow) (epoch : Nat) : List (String × String) :=
  (stakes.filter fun row => 0 < row.active ∧ row.epoch = epoch).filterMap fun row =>
    row.voteAccount.map fun voteAccount => (voteAccount, row.withdrawAuthority)

/-- `SELECT vote_account, COUNT(DISTINCT withdraw_authority) … GROUP BY vote_account`. -/
def uniqueDelegators (stakes : List StakesRow) (epoch : Nat) : Dict String Nat :=
  Dict.ofList <| ((delegations stakes epoch).map Prod.fst).dedup.map fun voteAccount =>
    (voteAccount, (((delegations stakes epoch).filter fun d => d.1 = voteAccount).map
      Prod.snd).dedup.length)

inductive EtlStep where
  | addEpoch (epoch : Nat)
  | addStakes (rows : List StakesRow)

def BigQuery.append (bigQuery : BigQuery) : EtlStep → BigQuery
  | .addEpoch epoch => { bigQuery with epochs := bigQuery.epochs ++ [epoch] }
  | .addStakes rows => { bigQuery with stakes := bigQuery.stakes ++ rows }

/-! ## The cache -/

structure PerEpochCache where
  epoch : Nat
  uniqueDelegators : Dict String Nat
  takeRates : Dict String Rat

/-- What a load returns. The partition in which the delegators were counted is the local
variable `max_epoch` of `load_latest_unique_delegators`; the program does not keep it. -/
structure LoadedCache where
  cache : PerEpochCache
  maxEpoch : Option Nat

structure CacheState where
  bigQuery : BigQuery
  perEpoch : Option LoadedCache

/-- How far a pass of `warm_validators_cache` has come, with the local variables that
the entry depends on. -/
inductive WarmPhase where
  | started
  | readCached (cached : Option PerEpochCache)
  | readLastEpoch (lastEpoch : Nat)
  | readMaxEpoch (lastEpoch maxEpoch : Nat)
  /-- The result of `load_latest_unique_delegators`, with its `max_epoch`. -/
  | readDelegators (lastEpoch : Nat) (delegators : Option (Dict String Nat × Option Nat))
  /-- `load` has returned. -/
  | loaded (refreshed : Option LoadedCache)
  /-- `load_validators` has returned. -/
  | loadedValidators (refreshed : Option LoadedCache)
  | finished

/-- `failed` remembers that a query of the pass failed. -/
structure WarmPass where
  phase : WarmPhase
  failed : Bool

inductive WarmStep where
  /-- The next query or write. -/
  | next
  /-- `load_take_rates` returns these rates, whatever they are. -/
  | takeRates (takeRates : Dict String Rat)
  /-- The next query fails. -/
  | fails

/-- What `load` makes of the results of its queries. -/
def refreshedCache (lastEpoch : Nat) (delegators : Option (Dict String Nat × Option Nat))
    (takeRates : Dict String Rat) : Option LoadedCache :=
  delegators.map fun (uniqueDelegators, maxEpoch) =>
    ⟨⟨lastEpoch, uniqueDelegators, takeRates⟩, maxEpoch⟩

/-- The next query or write of a pass. -/
def WarmPass.step (s : CacheState) (p : WarmPass) : WarmStep → Option (CacheState × WarmPass)
  | .next =>
    match p.phase with
    | .started =>
      some (s, { p with phase := .readCached (s.perEpoch.map LoadedCache.cache) })
    | .readCached cached =>
      match loadLastBigqueryEpoch s.bigQuery with
      | some lastEpoch =>
        -- a cache hit
        if cached.map PerEpochCache.epoch = some lastEpoch then
          some (s, { p with phase := .loaded none })
        else some (s, { p with phase := .readLastEpoch lastEpoch })
      | none => some (s, { p with phase := .loaded none })
    | .readLastEpoch lastEpoch =>
      match maxStakesEpoch s.bigQuery.stakes with
      | some maxEpoch => some (s, { p with phase := .readMaxEpoch lastEpoch maxEpoch })
      -- `return Ok(Default::default())`
      | none => some (s, { p with phase := .readDelegators lastEpoch (some (Dict.empty, none)) })
    | .readMaxEpoch lastEpoch maxEpoch =>
      some (s, { p with
        phase := .readDelegators lastEpoch
          (some (uniqueDelegators s.bigQuery.stakes maxEpoch, some maxEpoch)) })
    | .readDelegators .. => none
    | .loaded refreshed => some (s, { p with phase := .loadedValidators refreshed })
    | .loadedValidators refreshed =>
      some ({ s with perEpoch := refreshed.or s.perEpoch }, { p with phase := .finished })
    | .finished => none
  | .takeRates takeRates =>
    match p.phase with
    | .readDelegators lastEpoch delegators =>
      some (s, { p with phase := .loaded (refreshedCache lastEpoch delegators takeRates) })
    | _ => none
  | .fails =>
    match p.phase with
    | .readCached _ => some (s, ⟨.loaded none, true⟩)
    -- the take rates are loaded in any case
    | .readLastEpoch lastEpoch => some (s, ⟨.readDelegators lastEpoch none, true⟩)
    | .readMaxEpoch lastEpoch _ => some (s, ⟨.readDelegators lastEpoch none, true⟩)
    | .readDelegators .. => some (s, ⟨.loaded none, true⟩)
    -- `load_validators(…).await?`
    | .loaded _ => some (s, ⟨.finished, true⟩)
    | _ => none

def warmProtocol : Protocol CacheState WarmPass EtlStep Unit WarmStep where
  env s etl := some { s with bigQuery := s.bigQuery.append etl }
  start _ := ⟨.started, false⟩
  proc := WarmPass.step

/-- The API starts with an empty cache. -/
def warmInit (bigQuery : BigQuery) : Procs CacheState WarmPass := ⟨⟨bigQuery, none⟩, []⟩

abbrev WarmMove := Move EtlStep Unit WarmStep

/-! ## Honest labels -/

/-- The delegators were counted in a partition of `stakes` that is not older than the
label. -/
def Honest (stakes : List StakesRow) (c : LoadedCache) : Prop :=
  ∃ maxEpoch counted, c.maxEpoch = some maxEpoch ∧ c.cache.epoch ≤ maxEpoch ∧
    counted <+: stakes ∧ (∃ row ∈ counted, row.epoch = maxEpoch) ∧
    c.cache.uniqueDelegators = uniqueDelegators counted maxEpoch

/-- A step replaces the entry only by what a load without a failure has returned. -/
def Kept (s : Procs CacheState WarmPass) : Prop :=
  ∀ a s', warmProtocol.step s a = some s' → s'.shared.perEpoch = s.shared.perEpoch ∨
    ∃ n refreshed, a = .proc n .next ∧
      s.procs[n]? = some ⟨.loadedValidators (some refreshed), false⟩ ∧
      s'.shared.perEpoch = some refreshed

/-- When a load asks for the latest partition of `stakes`, this is not older than the
label the load has read. -/
def StakesReady (s : Procs CacheState WarmPass) (a : WarmMove) : Prop :=
  ∀ n lastEpoch failed, a = .proc n .next →
    s.procs[n]? = some ⟨.readLastEpoch lastEpoch, failed⟩ →
      ∃ row ∈ s.shared.bigQuery.stakes, lastEpoch ≤ row.epoch

/-- What the local variables of a pass promise. -/
def WarmPhase.Promises (stakes : List StakesRow) : WarmPhase → Prop
  | .readMaxEpoch lastEpoch maxEpoch =>
    lastEpoch ≤ maxEpoch ∧ ∃ row ∈ stakes, row.epoch = maxEpoch
  | .readDelegators lastEpoch delegators =>
    ∀ takeRates c, refreshedCache lastEpoch delegators takeRates = some c → Honest stakes c
  | .loaded (some c) | .loadedValidators (some c) => Honest stakes c
  | _ => True

/-- The phases of a pass with a failed query: it will not write. -/
def WarmPhase.Failed : WarmPhase → Prop
  | .readDelegators _ none | .loaded none | .loadedValidators none | .finished => True
  | _ => False

/-- The entry and all passes keep their promises. -/
structure WarmInv (s : Procs CacheState WarmPass) : Prop where
  entry : ∀ c, s.shared.perEpoch = some c → Honest s.shared.bigQuery.stakes c
  passes : ∀ p ∈ s.procs, p.phase.Promises s.shared.bigQuery.stakes

/-! ## The steps of a pass -/

/-- What a query does to a pass. -/
inductive Reads (s : CacheState) (b : WarmStep) : WarmPass → WarmPass → Prop
  | cached {failed} :
    Reads s b ⟨.started, failed⟩ ⟨.readCached (s.perEpoch.map LoadedCache.cache), failed⟩
  | hit {cached failed} : Reads s b ⟨.readCached cached, failed⟩ ⟨.loaded none, failed⟩
  | miss {cached failed lastEpoch} (h : loadLastBigqueryEpoch s.bigQuery = some lastEpoch) :
    Reads s b ⟨.readCached cached, failed⟩ ⟨.readLastEpoch lastEpoch, failed⟩
  | maxEpoch {lastEpoch maxEpoch failed} (hnext : b = .next)
    (h : maxStakesEpoch s.bigQuery.stakes = some maxEpoch) :
    Reads s b ⟨.readLastEpoch lastEpoch, failed⟩ ⟨.readMaxEpoch lastEpoch maxEpoch, failed⟩
  | noStakes {lastEpoch failed} (hnext : b = .next)
    (h : maxStakesEpoch s.bigQuery.stakes = none) :
    Reads s b ⟨.readLastEpoch lastEpoch, failed⟩
      ⟨.readDelegators lastEpoch (some (Dict.empty, none)), failed⟩
  | delegators {lastEpoch maxEpoch failed} :
    Reads s b ⟨.readMaxEpoch lastEpoch maxEpoch, failed⟩
      ⟨.readDelegators lastEpoch
        (some (uniqueDelegators s.bigQuery.stakes maxEpoch, some maxEpoch)), failed⟩
  | takeRates {lastEpoch delegators takeRates failed} :
    Reads s b ⟨.readDelegators lastEpoch delegators, failed⟩
      ⟨.loaded (refreshedCache lastEpoch delegators takeRates), failed⟩
  | validators {refreshed failed} :
    Reads s b ⟨.loaded refreshed, failed⟩ ⟨.loadedValidators refreshed, failed⟩
  | fails {p phase} (h : phase.Failed) : Reads s b p ⟨phase, true⟩

section Step

variable {s s' : CacheState} {p p' : WarmPass} {b : WarmStep}

/-- **What a step of a pass does**: a query leaves the shared state as it is; the write
replaces the entry if the load returned one. -/
theorem WarmPass.step_cases (h : p.step s b = some (s', p')) :
    (s' = s ∧ Reads s b p p') ∨
      ∃ refreshed failed, b = .next ∧ p = ⟨.loadedValidators refreshed, failed⟩ ∧
        s' = { s with perEpoch := refreshed.or s.perEpoch } ∧ p' = ⟨.finished, failed⟩ := by
  obtain ⟨phase, failed⟩ := p
  cases b with
  | next =>
    cases phase with
    | started =>
      obtain ⟨rfl, rfl⟩ := Prod.mk.inj (Option.some.inj h)
      exact Or.inl ⟨rfl, .cached⟩
    | readCached cached =>
      unfold WarmPass.step at h
      dsimp only at h
      cases hlast : loadLastBigqueryEpoch s.bigQuery with
      | none =>
        rw [hlast] at h
        obtain ⟨rfl, rfl⟩ := Prod.mk.inj (Option.some.inj h)
        exact Or.inl ⟨rfl, .hit⟩
      | some lastEpoch =>
        rw [hlast] at h
        dsimp only at h
        by_cases hhit : cached.map PerEpochCache.epoch = some lastEpoch
        · rw [if_pos hhit] at h
          obtain ⟨rfl, rfl⟩ := Prod.mk.inj (Option.some.inj h)
          exact Or.inl ⟨rfl, .hit⟩
        · rw [if_neg hhit] at h
          obtain ⟨rfl, rfl⟩ := Prod.mk.inj (Option.some.inj h)
          exact Or.inl ⟨rfl, .miss hlast⟩
    | readLastEpoch lastEpoch =>
      unfold WarmPass.step at h
      dsimp only at h
      cases hmax : maxStakesEpoch s.bigQuery.stakes with
      | none =>
        rw [hmax] at h
        obtain ⟨rfl, rfl⟩ := Prod.mk.inj (Option.some.inj h)
        exact Or.inl ⟨rfl, .noStakes rfl hmax⟩
      | some maxEpoch =>
        rw [hmax] at h
        obtain ⟨rfl, rfl⟩ := Prod.mk.inj (Option.some.inj h)
        exact Or.inl ⟨rfl, .maxEpoch rfl hmax⟩
    | readMaxEpoch lastEpoch maxEpoch =>
      obtain ⟨rfl, rfl⟩ := Prod.mk.inj (Option.some.inj h)
      exact Or.inl ⟨rfl, .delegators⟩
    | readDelegators lastEpoch delegators => cases h
    | loaded refreshed =>
      obtain ⟨rfl, rfl⟩ := Prod.mk.inj (Option.some.inj h)
      exact Or.inl ⟨rfl, .validators⟩
    | loadedValidators refreshed =>
      obtain ⟨rfl, rfl⟩ := Prod.mk.inj (Option.some.inj h)
      exact Or.inr ⟨refreshed, failed, rfl, rfl, rfl, rfl⟩
    | finished => cases h
  | takeRates takeRates =>
    cases phase with
    | readDelegators lastEpoch delegators =>
      obtain ⟨rfl, rfl⟩ := Prod.mk.inj (Option.some.inj h)
      exact Or.inl ⟨rfl, .takeRates⟩
    | _ => cases h
  | fails =>
    cases phase with
    | started => cases h
    | loadedValidators refreshed => cases h
    | finished => cases h
    | _ =>
      obtain ⟨rfl, rfl⟩ := Prod.mk.inj (Option.some.inj h)
      exact Or.inl ⟨rfl, .fails trivial⟩

/-! ## The invariant -/

theorem Honest.mono {stakes stakes' : List StakesRow} {c : LoadedCache}
    (h : Honest stakes c) (happend : stakes <+: stakes') : Honest stakes' c := by
  obtain ⟨maxEpoch, counted, hmax, hle, hcounted, hrow, hcount⟩ := h
  exact ⟨maxEpoch, counted, hmax, hle, hcounted.trans happend, hrow, hcount⟩

theorem WarmPhase.Promises.mono {stakes stakes' : List StakesRow} {phase : WarmPhase}
    (h : phase.Promises stakes) (happend : stakes <+: stakes') : phase.Promises stakes' := by
  cases phase with
  | readMaxEpoch lastEpoch maxEpoch =>
    obtain ⟨hle, row, hrow, hepoch⟩ := h
    exact ⟨hle, row, happend.subset hrow, hepoch⟩
  | readDelegators lastEpoch delegators =>
    exact fun takeRates c hc => (h takeRates c hc).mono happend
  | loaded refreshed =>
    cases refreshed with
    | none => trivial
    | some c => exact Honest.mono h happend
  | loadedValidators refreshed =>
    cases refreshed with
    | none => trivial
    | some c => exact Honest.mono h happend
  | _ => trivial

/-- A pass that will not write promises nothing. -/
theorem WarmPhase.Failed.promises {stakes : List StakesRow} {phase : WarmPhase}
    (h : phase.Failed) : phase.Promises stakes := by
  cases phase with
  | readDelegators lastEpoch delegators =>
    cases delegators with
    | none =>
      intro takeRates c hc
      cases hc
    | some d => exact h.elim
  | loaded refreshed =>
    cases refreshed with
    | none => trivial
    | some c => exact h.elim
  | loadedValidators refreshed =>
    cases refreshed with
    | none => trivial
    | some c => exact h.elim
  | finished => trivial
  | _ => exact h.elim

/-- The latest partition is not older than any row. -/
theorem maxStakesEpoch_spec {stakes : List StakesRow} {maxEpoch : Nat}
    (h : maxStakesEpoch stakes = some maxEpoch) :
    (∃ row ∈ stakes, row.epoch = maxEpoch) ∧ ∀ row ∈ stakes, row.epoch ≤ maxEpoch := by
  obtain ⟨hmem, hmax⟩ := List.max?_eq_some_iff.mp h
  obtain ⟨row, hrow, heq⟩ := List.mem_map.mp hmem
  exact ⟨⟨row, hrow, heq⟩, fun r hr => hmax _ (List.mem_map_of_mem hr)⟩

theorem maxStakesEpoch_ne_none {stakes : List StakesRow} {row : StakesRow}
    (hrow : row ∈ stakes) : maxStakesEpoch stakes ≠ none := by
  intro h
  have hnil := List.max?_eq_none_iff.mp h
  rw [List.map_eq_nil_iff] at hnil
  rw [hnil] at hrow
  cases hrow

/-- A query keeps what a pass promises, if the one for the latest partition of `stakes`
comes when the partition is there. -/
theorem promises_reads (hpromises : p.phase.Promises s.bigQuery.stakes)
    (hready : ∀ lastEpoch failed, b = .next → p = ⟨.readLastEpoch lastEpoch, failed⟩ →
      ∃ row ∈ s.bigQuery.stakes, lastEpoch ≤ row.epoch)
    (h : Reads s b p p') : p'.phase.Promises s.bigQuery.stakes := by
  cases h with
  | cached => trivial
  | hit => trivial
  | miss => trivial
  | maxEpoch hnext hmax =>
    obtain ⟨row, hrow, hle⟩ := hready _ _ hnext rfl
    obtain ⟨hmem, hgreatest⟩ := maxStakesEpoch_spec hmax
    exact ⟨hle.trans (hgreatest row hrow), hmem⟩
  | noStakes hnext hmax =>
    obtain ⟨row, hrow, -⟩ := hready _ _ hnext rfl
    exact absurd hmax (maxStakesEpoch_ne_none hrow)
  | delegators =>
    obtain ⟨hle, hrow⟩ := hpromises
    rintro takeRates c ⟨⟩
    exact ⟨_, s.bigQuery.stakes, rfl, hle, List.prefix_refl _, hrow, rfl⟩
  | @takeRates lastEpoch delegators takeRates failed =>
    show WarmPhase.Promises _ (.loaded (refreshedCache lastEpoch delegators takeRates))
    cases hc : refreshedCache lastEpoch delegators takeRates with
    | none => trivial
    | some c => exact hpromises takeRates c hc
  | @validators refreshed failed =>
    cases refreshed with
    | none => trivial
    | some c => exact hpromises
  | fails hfailed => exact hfailed.promises

/-- A pass with a failed query stays one that will not write. -/
theorem failed_reads (hfailed : p.failed = true → p.phase.Failed) (h : Reads s b p p') :
    p'.failed = true → p'.phase.Failed := by
  cases h with
  | cached => exact fun h => (hfailed h).elim
  | hit => exact fun _ => trivial
  | miss => exact fun h => (hfailed h).elim
  | maxEpoch => exact fun h => (hfailed h).elim
  | noStakes => exact fun h => (hfailed h).elim
  | delegators => exact fun h => (hfailed h).elim
  | @takeRates lastEpoch delegators =>
    intro h
    have hnone := hfailed h
    cases delegators with
    | none => trivial
    | some d => exact hnone.elim
  | @validators refreshed =>
    intro h
    have hnone := hfailed h
    cases refreshed with
    | none => trivial
    | some c => exact hnone.elim
  | fails h => exact fun _ => h

end Step

/-! ## Runs -/

section Run

variable {s s' : Procs CacheState WarmPass} {a : WarmMove}

theorem stakes_append (bigQuery : BigQuery) (etl : EtlStep) :
    bigQuery.stakes <+: (bigQuery.append etl).stakes := by
  cases etl with
  | addEpoch epoch => exact List.prefix_refl _
  | addStakes rows => exact List.prefix_append _ _

theorem passes_step (hinv : WarmInv s) (hready : StakesReady s a)
    (h : warmProtocol.step s a = some s') :
    ∀ p ∈ s'.procs, p.phase.Promises s'.shared.bigQuery.stakes := by
  refine Protocol.forall_step (fun s p => p.phase.Promises s.bigQuery.stakes) h hinv.passes
    ?_ ?_ ?_
  · intro i _
    trivial
  · intro etl shared _ henv p _ hp
    obtain rfl := Option.some.inj henv
    exact hp.mono (stakes_append s.shared.bigQuery etl)
  · intro n b p shared p' ha hn hstep
    rcases WarmPass.step_cases hstep with ⟨rfl, hreads⟩ | ⟨refreshed, failed, -, -, rfl, rfl⟩
    · refine ⟨promises_reads (hinv.passes p (List.mem_of_getElem? hn))
        (fun lastEpoch failed hb hp => ?_) hreads, fun _ _ hq => hq⟩
      exact hready n lastEpoch failed (hb ▸ ha) (hp ▸ hn)
    · exact ⟨trivial, fun _ _ hq => hq⟩

theorem entry_step (hinv : WarmInv s) (h : warmProtocol.step s a = some s') :
    ∀ c, s'.shared.perEpoch = some c → Honest s'.shared.bigQuery.stakes c := by
  intro c hc
  rcases Protocol.step_cases h with ⟨etl, shared, -, henv, rfl⟩ | ⟨i, -, rfl⟩ |
    ⟨n, b, p, shared, p', -, hn, hstep, rfl⟩
  · obtain rfl := Option.some.inj henv
    exact (hinv.entry c hc).mono (stakes_append s.shared.bigQuery etl)
  · exact hinv.entry c hc
  · rcases WarmPass.step_cases hstep with ⟨rfl, -⟩ | ⟨refreshed, failed, -, rfl, rfl, -⟩
    · exact hinv.entry c hc
    · cases refreshed with
      | none => exact hinv.entry c hc
      | some c' =>
        -- the write: the pass promised an honest entry
        obtain rfl := Option.some.inj hc
        exact hinv.passes _ (List.mem_of_getElem? hn)

/-- In a run in which every query for the latest partition of `stakes` is ready, the entry
is honest in every state. -/
theorem statesAll_honest (bigQuery : BigQuery) {moves : List WarmMove}
    (hok : StepsAll warmProtocol.step StakesReady (warmInit bigQuery) moves) :
    StatesAll warmProtocol.step
      (fun s => ∀ c, s.shared.perEpoch = some c → Honest s.shared.bigQuery.stakes c)
      (warmInit bigQuery) moves := by
  have hinit : WarmInv (warmInit bigQuery) :=
    ⟨fun _ hc => (nomatch hc), fun _ hp => (nomatch hp)⟩
  refine (statesAll_of_stepsAll (fun s a s' hinv hready h => ?_) hinit hok).mono
    fun s hinv => hinv.entry
  exact ⟨entry_step hinv h, passes_step hinv hready h⟩

/-! ## Failures -/

/-- The passes with a failed query are those that will not write. -/
def FailedPasses (s : Procs CacheState WarmPass) : Prop :=
  ∀ p ∈ s.procs, p.failed = true → p.phase.Failed

theorem failedPasses_step (hinv : FailedPasses s) (h : warmProtocol.step s a = some s') :
    FailedPasses s' := by
  refine Protocol.forall_step (fun _ (p : WarmPass) => p.failed = true → p.phase.Failed) h hinv
    ?_ ?_ ?_
  · intro i _ hfailed
    cases hfailed
  · exact fun _ _ _ _ _ _ hp => hp
  · intro n b p shared p' _ hn hstep
    rcases WarmPass.step_cases hstep with ⟨-, hreads⟩ | ⟨_, _, -, -, -, rfl⟩
    · exact ⟨failed_reads (hinv p (List.mem_of_getElem? hn)) hreads, fun _ _ hq => hq⟩
    · exact ⟨fun _ => trivial, fun _ _ hq => hq⟩

/-- Only the write of a pass without a failure replaces the entry. -/
theorem FailedPasses.kept (hinv : FailedPasses s) : Kept s := by
  intro a s' h
  rcases Protocol.step_cases h with ⟨etl, shared, -, henv, rfl⟩ | ⟨i, -, rfl⟩ |
    ⟨n, b, p, shared, p', rfl, hn, hstep, rfl⟩
  · obtain rfl := Option.some.inj henv
    exact Or.inl rfl
  · exact Or.inl rfl
  · rcases WarmPass.step_cases hstep with ⟨rfl, -⟩ | ⟨refreshed, failed, rfl, rfl, rfl, -⟩
    · exact Or.inl rfl
    · cases refreshed with
      | none => exact Or.inl rfl
      | some c =>
        cases failed with
        | true => exact (hinv _ (List.mem_of_getElem? hn) rfl).elim
        | false => exact Or.inr ⟨n, c, rfl, hn, rfl⟩

theorem statesAll_kept (bigQuery : BigQuery) (moves : List WarmMove) :
    StatesAll warmProtocol.step Kept (warmInit bigQuery) moves := by
  have hinit : FailedPasses (warmInit bigQuery) := fun _ hp => nomatch hp
  exact (statesAll_of_invariant (fun s a s' hinv h => failedPasses_step hinv h) hinit moves).mono
    fun s hinv => hinv.kept

/-! ## A query that is not ready -/

/-- A load that is not ready, and whose later queries succeed, stores an entry that is not
honest. -/
theorem exists_dishonest (h : warmProtocol.step s a = some s') (hready : ¬ StakesReady s a) :
    ∃ more s'' c, exec warmProtocol.step s' more = some s'' ∧ s''.shared.perEpoch = some c ∧
      ¬ Honest s''.shared.bigQuery.stakes c := by
  unfold StakesReady at hready
  push Not at hready
  obtain ⟨n, lastEpoch, failed, rfl, hn, hold⟩ := hready
  obtain ⟨hlt, -⟩ := List.getElem?_eq_some_iff.mp hn
  have hmove : ∀ p', WarmPass.step s.shared ⟨.readLastEpoch lastEpoch, failed⟩ .next =
      some (s.shared, p') → s' = ⟨s.shared, s.procs.set n p'⟩ := by
    intro p' hp'
    have hstep : warmProtocol.step s (.proc n .next) = some ⟨s.shared, s.procs.set n p'⟩ :=
      Protocol.step_proc hn hp'
    exact Option.some.inj (h.symm.trans hstep)
  cases hmax : maxStakesEpoch s.shared.bigQuery.stakes with
  | none =>
    obtain rfl := hmove ⟨.readDelegators lastEpoch (some (Dict.empty, none)), failed⟩ (by
      unfold WarmPass.step
      dsimp only
      rw [hmax])
    refine ⟨[.takeRates Dict.empty, .next, .next].map (.proc n), _,
      ⟨⟨lastEpoch, Dict.empty, Dict.empty⟩, none⟩,
      Protocol.exec_solo (List.getElem?_set_self hlt) rfl, rfl, ?_⟩
    rintro ⟨maxEpoch, -, hnone, -⟩
    cases hnone
  | some maxEpoch =>
    obtain rfl := hmove ⟨.readMaxEpoch lastEpoch maxEpoch, failed⟩ (by
      unfold WarmPass.step
      dsimp only
      rw [hmax])
    refine ⟨[.next, .takeRates Dict.empty, .next, .next].map (.proc n), _,
      ⟨⟨lastEpoch, uniqueDelegators s.shared.bigQuery.stakes maxEpoch, Dict.empty⟩,
        some maxEpoch⟩,
      Protocol.exec_solo (List.getElem?_set_self hlt) rfl, rfl, ?_⟩
    rintro ⟨_, -, ⟨⟩, hle, -⟩
    obtain ⟨⟨row, hrow, heq⟩, -⟩ := maxStakesEpoch_spec hmax
    have hlt := hold row hrow
    rw [heq] at hlt
    exact absurd hle (not_le.mpr hlt)

end Run

/-- **The label of the BigQuery cache**: in every run only a load without a failure
replaces the entry; the entry is honest in every state of a run in which every query for
the latest partition of `stakes` finds one that is not older than the label; and after a
query that does not, the load can go on to store an entry that is not honest. -/
theorem perEpochCache_honest (bigQuery : BigQuery) :
    (∀ moves, StatesAll warmProtocol.step Kept (warmInit bigQuery) moves) ∧
    (∀ moves, StepsAll warmProtocol.step StakesReady (warmInit bigQuery) moves →
      StatesAll warmProtocol.step
        (fun s => ∀ c, s.shared.perEpoch = some c → Honest s.shared.bigQuery.stakes c)
        (warmInit bigQuery) moves) ∧
    ∀ moves a s s', exec warmProtocol.step (warmInit bigQuery) moves = some s →
      warmProtocol.step s a = some s' → ¬ StakesReady s a →
        ∃ more s'' c, exec warmProtocol.step s' more = some s'' ∧
          s''.shared.perEpoch = some c ∧ ¬ Honest s''.shared.bigQuery.stakes c :=
  ⟨statesAll_kept bigQuery, fun _ => statesAll_honest bigQuery,
    fun _ _ _ _ _ h hready => exists_dishonest h hready⟩

/-- A validator with one delegator in epoch 9, the latest of both tables. -/
def epochNine : BigQuery := ⟨[9], [⟨9, some "vote", "alice", 1000⟩]⟩

/-- A pass that loads, or finds nothing to load. -/
def fullPass (n : Nat) : List WarmMove :=
  [.spawn (), .proc n .next, .proc n .next, .proc n .next, .proc n .next,
    .proc n (.takeRates Dict.empty), .proc n .next, .proc n .next]

def hitPass (n : Nat) : List WarmMove :=
  [.spawn (), .proc n .next, .proc n .next, .proc n .next, .proc n .next]

/-- Epoch 10 is added to `epochs`, and a pass comes before its partition of `stakes`. -/
def epochFirst : List WarmMove :=
  [.env (.addEpoch 10)] ++ fullPass 0 ++
    [.env (.addStakes [⟨10, some "vote", "alice", 1000⟩, ⟨10, some "vote", "bob", 1000⟩])] ++
    hitPass 1

/-- The entry gets the label 10 with the delegators of epoch 9, and the next pass keeps it,
although epoch 10 has two delegators. -/
theorem perEpochCache_stale :
    ¬ StatesAll warmProtocol.step
        (fun s => ∀ c, s.shared.perEpoch = some c → Honest s.shared.bigQuery.stakes c)
        (warmInit epochNine) epochFirst ∧
      ∃ s c, exec warmProtocol.step (warmInit epochNine) epochFirst = some s ∧
        s.shared.perEpoch = some c ∧ c.cache.epoch = 10 ∧ c.maxEpoch = some 9 ∧
        c.cache.uniqueDelegators.entries = [("vote", 1)] ∧
        (uniqueDelegators s.shared.bigQuery.stakes 10).entries = [("vote", 2)] := by
  have hrun : ∃ s c, exec warmProtocol.step (warmInit epochNine) epochFirst = some s ∧
      s.shared.perEpoch = some c ∧ c.cache.epoch = 10 ∧ c.maxEpoch = some 9 ∧
      c.cache.uniqueDelegators.entries = [("vote", 1)] ∧
      (uniqueDelegators s.shared.bigQuery.stakes 10).entries = [("vote", 2)] :=
    ⟨_, _, rfl, rfl, rfl, rfl, by decide, by decide⟩
  refine ⟨fun hall => ?_, hrun⟩
  obtain ⟨s, c, hexec, hentry, hlabel, hmax, -⟩ := hrun
  obtain ⟨maxEpoch, -, hmax', hle, -⟩ :=
    hall.last hexec c hentry
  rw [hmax] at hmax'
  obtain rfl := Option.some.inj hmax'
  rw [hlabel] at hle
  exact absurd hle (by decide)

/-- The partition comes first. -/
def stakesFirst : List WarmMove :=
  [.env (.addStakes [⟨10, some "vote", "alice", 1000⟩]), .env (.addEpoch 10)] ++ fullPass 0

/-- Only one query has to be ready. -/
theorem stakesReady_of_phase {s : Procs CacheState WarmPass} {a : WarmMove}
    (h : ∀ p ∈ s.procs, ∀ lastEpoch, p.phase ≠ .readLastEpoch lastEpoch) : StakesReady s a :=
  fun _ lastEpoch _ _ hn => absurd rfl (h _ (List.mem_of_getElem? hn) lastEpoch)

/-- With the partition first the entry with the label 10 is honest. -/
theorem perEpochCache_honest_ten :
    StatesAll warmProtocol.step
      (fun s => ∀ c, s.shared.perEpoch = some c → Honest s.shared.bigQuery.stakes c)
      (warmInit epochNine) stakesFirst := by
  apply (perEpochCache_honest epochNine).2.1 stakesFirst
  refine .cons rfl (stakesReady_of_phase (by simp [warmInit])) ?_
  refine .cons rfl (stakesReady_of_phase (by simp [warmInit])) ?_
  refine .cons rfl (stakesReady_of_phase (by simp [warmInit])) ?_
  refine .cons rfl (stakesReady_of_phase (by simp [warmInit, warmProtocol])) ?_
  refine .cons rfl (stakesReady_of_phase (by simp [warmInit, warmProtocol])) ?_
  refine .cons rfl ?_ ?_
  · -- the query for the latest partition
    rintro _ _ _ ⟨⟩ ⟨⟩
    exact ⟨⟨10, some "vote", "alice", 1000⟩, by decide, by decide⟩
  refine .cons rfl (stakesReady_of_phase (by simp [warmInit, warmProtocol])) ?_
  refine .cons rfl (stakesReady_of_phase (by simp [warmInit, warmProtocol])) ?_
  refine .cons rfl (stakesReady_of_phase (by simp [warmInit, warmProtocol])) ?_
  exact .cons rfl (stakesReady_of_phase (by simp [warmInit, warmProtocol])) trivial

end DelegationStrategy.Api
