import DelegationStrategy.Lib.Trace
import DelegationStrategy.Store.Scoring

/-!
# The cached scores of the last run

`warm_scores_cache` (`api/src/cache.rs`) reads the last scoring run, its scores,
the scores of all runs, the last scoring run *again*, and all runs; then it stores
what it read. The context lock is released between the reads, so uploads
(`store_scoring`) come in between, and the second read of the last run may find
another run than the one whose scores were loaded.

The cache is coherent in every state of a run in which no upload adds a run
between the two reads, unless the run read first has no scores
(`scoresCache_coherent`).
-/

namespace DelegationStrategy.Api

open DelegationStrategy.Lib DelegationStrategy.Store

/-- `CachedSingleRunScores`. -/
structure CachedSingleRunScores where
  scoringRun : Option ScoringRunRow
  scores : Dict String ValidatorScoreRecord

/-- `CachedMultiRunScores`. -/
structure CachedMultiRunScores where
  scoringRuns : Option (List ScoringRunRow)
  scores : Dict Nat (List ValidatorScoreRecord)

/-- How far `warm_scores_cache` has come, with its local variables. -/
inductive ScoresWarmer where
  | idle
  | loadedLastScoringRun (lastScoringRun : Option ScoringRunRow)
  | loadedScores (scores : Dict String ValidatorScoreRecord)
  | loadedAllScores (scores : Dict String ValidatorScoreRecord)
      (multiRunScores : Dict Nat (List ValidatorScoreRecord))
  | reloadedLastScoringRun (scores : Dict String ValidatorScoreRecord)
      (multiRunScores : Dict Nat (List ValidatorScoreRecord))
      (lastScoringRun : Option ScoringRunRow)
  | loadedScoringRuns (scores : Dict String ValidatorScoreRecord)
      (multiRunScores : Dict Nat (List ValidatorScoreRecord))
      (lastScoringRun : Option ScoringRunRow) (multiRunScoringRuns : List ScoringRunRow)
  | storedSingleRunScores (multiRunScores : Dict Nat (List ValidatorScoreRecord))
      (multiRunScoringRuns : List ScoringRunRow)
  /-- A conversion panicked and took the task of the cache warmer with it. -/
  | dead

structure ScoresState where
  tables : ScoringTables
  warmer : ScoresWarmer
  singleRunScores : CachedSingleRunScores
  multiRunScores : CachedMultiRunScores

/-- The API starts with an empty cache. -/
def ScoresState.init (tables : ScoringTables) : ScoresState where
  tables := tables
  warmer := .idle
  singleRunScores := ⟨none, Dict.empty⟩
  multiRunScores := ⟨none, Dict.empty⟩

inductive ScoresAction where
  /-- A score upload: `store_scoring` under the write lock. -/
  | upload (fault : Nat → Option DbError) (upload : ScoringUpload)
  /-- The next query or write of `warm_scores_cache`. -/
  | warm (scan : Scan)
  /-- The next query of `warm_scores_cache` fails, and it returns the error. -/
  | warmFails

/-- The query or the write that `warm_scores_cache` executes next. -/
def ScoresState.warm (s : ScoresState) (scan : Scan) : Option ScoresState :=
  match s.warmer with
  | .idle => some { s with warmer := .loadedLastScoringRun (loadLastScoringRun s.tables) }
  | .loadedLastScoringRun none => some { s with warmer := .loadedScores Dict.empty }
  | .loadedLastScoringRun (some scoringRun) =>
    some { s with
      -- a column that does not convert panics, and the warmer is not started again
      warmer := match loadScores scan s.tables scoringRun.scoringRunId with
        | some scores => .loadedScores scores
        | none => .dead }
  | .loadedScores scores =>
    some { s with
      warmer := match loadAllScores scan s.tables with
        | some multiRunScores => .loadedAllScores scores multiRunScores
        | none => .idle }
  | .loadedAllScores scores multiRunScores =>
    -- `let last_scoring_run` once more: it shadows the run whose scores were loaded
    some { s with
      warmer :=
        .reloadedLastScoringRun scores multiRunScores (loadLastScoringRun s.tables) }
  | .reloadedLastScoringRun scores multiRunScores lastScoringRun =>
    some { s with
      warmer := .loadedScoringRuns scores multiRunScores lastScoringRun
        (loadScoringRuns s.tables) }
  | .loadedScoringRuns scores multiRunScores lastScoringRun multiRunScoringRuns =>
    some { s with
      warmer := .storedSingleRunScores multiRunScores multiRunScoringRuns
      singleRunScores := ⟨lastScoringRun, scores⟩ }
  | .storedSingleRunScores multiRunScores multiRunScoringRuns =>
    some { s with
      warmer := .idle
      multiRunScores := ⟨some multiRunScoringRuns, multiRunScores⟩ }
  | .dead => none

/-- Whether `warm_scores_cache` executes a query next. -/
def ScoresWarmer.queries : ScoresWarmer → Bool
  | .loadedLastScoringRun none | .loadedScoringRuns .. | .storedSingleRunScores .. | .dead =>
    false
  | _ => true

/-- One step of the API, as far as the scores are concerned. -/
def scoresStep (f64ToString : Rat → String) (s : ScoresState) :
    ScoresAction → Option ScoresState
  | .upload fault upload =>
    some { s with tables := (storeScoring f64ToString fault upload s.tables).1 }
  | .warm scan => s.warm scan
  | .warmFails => if s.warmer.queries then some { s with warmer := .idle } else none

/-! ## Coherence -/

/-- The scores are scores of the run. -/
def Coherent (scoringRun : Option ScoringRunRow)
    (scores : Dict String ValidatorScoreRecord) : Prop :=
  ∀ run, scoringRun = some run → ∀ entry ∈ scores.entries,
    entry.2.scoringRunId = run.scoringRunId

/-- The cache never combines a run with scores of another. -/
def ScoresState.CacheCoherent (s : ScoresState) : Prop :=
  Coherent s.singleRunScores.scoringRun s.singleRunScores.scores

/-- No upload adds a run between the two reads of the last scoring run, unless the
run read first has no scores. -/
def NoRunBetweenReads (s : ScoresState) (a : ScoresAction) : Prop :=
  ∀ fault upload, a = .upload fault upload → fault 0 = none →
    match s.warmer with
    | .loadedLastScoringRun (some run) =>
      ∀ row ∈ s.tables.scores, row.scoringRunId ≠ run.scoringRunId
    | .loadedScores scores | .loadedAllScores scores _ => scores.entries = []
    | _ => True

/-- What the local variables of the warmer say about the tables. -/
def WarmerCoherent (tables : ScoringTables) : ScoresWarmer → Prop
  | .loadedLastScoringRun (some run) =>
    run ∈ tables.scoringRuns ∧ (loadLastScoringRun tables = some run ∨
      ∀ row ∈ tables.scores, row.scoringRunId ≠ run.scoringRunId)
  | .loadedScores scores | .loadedAllScores scores _ =>
    Coherent (loadLastScoringRun tables) scores
  | .reloadedLastScoringRun scores _ run | .loadedScoringRuns scores _ run _ =>
    Coherent run scores
  | _ => True

structure ScoresInv (s : ScoresState) : Prop where
  warmer : WarmerCoherent s.tables s.warmer
  cache : s.CacheCoherent

theorem scoresInv_init (tables : ScoringTables) : ScoresInv (.init tables) where
  warmer := trivial
  cache _ h := nomatch h

theorem coherent_of_nil {run : Option ScoringRunRow} {scores : Dict String ValidatorScoreRecord}
    (h : scores.entries = []) : Coherent run scores := by
  intro _ _ entry hentry
  rw [h] at hentry
  cases hentry

/-- The scores that `load_scores` returns are scores of the run. -/
theorem coherent_loadScores {scan : Scan} {tables : ScoringTables} {run : ScoringRunRow}
    {scores : Dict String ValidatorScoreRecord}
    (h : loadScores scan tables run.scoringRunId = some scores) :
    Coherent (some run) scores := by
  rintro _ ⟨⟩ entry hentry
  obtain ⟨row, -, hid, -, hrecord⟩ := (loadScores_eq_some h).2 entry hentry
  rw [(scoreRecord_eq_some hrecord).2, hid]

/-- A run without score rows has no scores. -/
theorem entries_loadScores {scan : Scan} {tables : ScoringTables} {run : ScoringRunRow}
    {scores : Dict String ValidatorScoreRecord}
    (h : loadScores scan tables run.scoringRunId = some scores)
    (hnone : ∀ row ∈ tables.scores, row.scoringRunId ≠ run.scoringRunId) :
    scores.entries = [] := by
  refine List.eq_nil_iff_forall_not_mem.mpr fun entry hentry => ?_
  obtain ⟨row, hrow, hid, -⟩ := (loadScores_eq_some h).2 entry hentry
  exact hnone row hrow hid

/-- Uploads keep what the warmer knows, under the condition. -/
theorem warmerCoherent_upload {f64ToString : Rat → String} {fault : Nat → Option DbError}
    {upload : ScoringUpload} {s : ScoresState} (hinv : WarmerCoherent s.tables s.warmer)
    (hok : NoRunBetweenReads s (.upload fault upload)) :
    WarmerCoherent (storeScoring f64ToString fault upload s.tables).1 s.warmer := by
  rcases storeScoring_cases f64ToString fault upload s.tables with
    ⟨-, hsame⟩ | ⟨hfault, rows, hruns, hscores⟩
  · rw [hsame]
    exact hinv
  · have hcond := hok fault upload rfl hfault
    cases hw : s.warmer with
    | loadedLastScoringRun run =>
      cases run with
      | none => trivial
      | some run =>
        rw [hw] at hcond hinv
        refine ⟨hruns ▸ List.mem_append_left _ hinv.1, Or.inr fun row hrow => ?_⟩
        rw [hscores] at hrow
        rcases List.mem_append.mp hrow with hold | hnew
        · exact hcond row hold
        · -- the new scores belong to the new run
          obtain ⟨_, -, rfl⟩ := List.mem_map.mp hnew
          exact (s.tables.sequence run hinv.1).ne'
    | loadedScores scores =>
      rw [hw] at hcond
      exact coherent_of_nil hcond
    | loadedAllScores scores multi =>
      rw [hw] at hcond
      exact coherent_of_nil hcond
    | reloadedLastScoringRun scores multi run =>
      rw [hw] at hinv
      exact hinv
    | loadedScoringRuns scores multi run runs =>
      rw [hw] at hinv
      exact hinv
    | idle => trivial
    | storedSingleRunScores multi runs => trivial
    | dead => trivial

/-- What the warmer does keeps the invariant. -/
theorem scoresInv_warm {s s' : ScoresState} {scan : Scan} (hinv : ScoresInv s)
    (h : s.warm scan = some s') : ScoresInv s' := by
  obtain ⟨hwarmer, hcache⟩ := hinv
  unfold ScoresState.warm at h
  -- one case for each query of the warmer; only the last ones touch the cache
  cases hw : s.warmer with
  | idle =>
    rw [hw] at h
    obtain rfl := Option.some.inj h
    refine ⟨?_, hcache⟩
    cases hlast : loadLastScoringRun s.tables with
    | none => trivial
    | some run => exact ⟨List.argmax_mem hlast, Or.inl hlast⟩
  | loadedLastScoringRun run =>
    cases run with
    | none =>
      rw [hw] at h
      obtain rfl := Option.some.inj h
      exact ⟨coherent_of_nil rfl, hcache⟩
    | some run =>
      rw [hw] at h hwarmer
      obtain rfl := Option.some.inj h
      refine ⟨?_, hcache⟩
      cases hload : loadScores scan s.tables run.scoringRunId with
      | none => trivial
      | some scores =>
        rcases hwarmer.2 with hlast | hnone
        · show Coherent (loadLastScoringRun s.tables) scores
          rw [hlast]
          exact coherent_loadScores hload
        · exact coherent_of_nil (entries_loadScores hload hnone)
  | loadedScores scores =>
    rw [hw] at h hwarmer
    obtain rfl := Option.some.inj h
    refine ⟨?_, hcache⟩
    cases loadAllScores scan s.tables with
    | none => trivial
    | some multi => exact hwarmer
  | loadedAllScores scores multi =>
    rw [hw] at h hwarmer
    obtain rfl := Option.some.inj h
    exact ⟨hwarmer, hcache⟩
  | reloadedLastScoringRun scores multi run =>
    rw [hw] at h hwarmer
    obtain rfl := Option.some.inj h
    exact ⟨hwarmer, hcache⟩
  | loadedScoringRuns scores multi run runs =>
    rw [hw] at h hwarmer
    obtain rfl := Option.some.inj h
    exact ⟨trivial, hwarmer⟩
  | storedSingleRunScores multi runs =>
    rw [hw] at h
    obtain rfl := Option.some.inj h
    exact ⟨trivial, hcache⟩
  | dead =>
    rw [hw] at h
    cases h

/-- A step under the condition keeps the invariant. -/
theorem scoresInv_step {f64ToString : Rat → String} {s s' : ScoresState} {a : ScoresAction}
    (hinv : ScoresInv s) (hok : NoRunBetweenReads s a)
    (h : scoresStep f64ToString s a = some s') : ScoresInv s' := by
  cases a with
  | upload fault upload =>
    obtain rfl := Option.some.inj h
    exact ⟨warmerCoherent_upload hinv.warmer hok, hinv.cache⟩
  | warm scan => exact scoresInv_warm hinv h
  | warmFails =>
    obtain ⟨-, hsome⟩ := Option.ite_none_right_eq_some.mp h
    obtain rfl := Option.some.inj hsome
    exact ⟨trivial, hinv.cache⟩

/-- **Coherence of the cached scores**: in every interleaving of the warmer with
uploads, as long as no upload adds a run between the two reads of the last scoring
run (unless the run read first has no scores), the cache never combines a run with
the scores of another. -/
theorem scoresCache_coherent (f64ToString : Rat → String) (tables : ScoringTables)
    (as : List ScoresAction)
    (hok : StepsAll (scoresStep f64ToString) NoRunBetweenReads (.init tables) as) :
    StatesAll (scoresStep f64ToString) ScoresState.CacheCoherent (.init tables) as :=
  (statesAll_of_stepsAll (fun _ _ _ hinv hok h => scoresInv_step hinv hok h)
    (scoresInv_init tables) hok).mono fun _ hinv => hinv.cache

/-- The first run is read whole; the second one is uploaded before the warmer stores what it
read, and the next warm-up reads it. -/
def uploadBetweenWarmUps : List ScoresAction :=
  [.upload (fun _ => none) (singleUpload "a")] ++ List.replicate 5 (.warm .sequential) ++
    [.upload (fun _ => none) (singleUpload "b")] ++ List.replicate 8 (.warm .sequential)

/-- The id of the cached run, and the cached scores with the ids of their runs. -/
def ScoresState.cachedRuns (s : ScoresState) : Option Nat × List (String × Nat) :=
  (s.singleRunScores.scoringRun.map (·.scoringRunId),
    s.singleRunScores.scores.entries.map fun e => (e.1, e.2.scoringRunId))

/-- The cache is filled with the first run and then with the second, and coherent throughout. -/
theorem scoresCache_coherent_between :
    StatesAll (scoresStep fun _ => "0") ScoresState.CacheCoherent (.init .empty)
        uploadBetweenWarmUps ∧
      (exec (scoresStep fun _ => "0") (.init .empty) (uploadBetweenWarmUps.take 8)).map
        ScoresState.cachedRuns = some (some 1, [("a", 1)]) ∧
      (exec (scoresStep fun _ => "0") (.init .empty) uploadBetweenWarmUps).map
        ScoresState.cachedRuns = some (some 2, [("b", 2)]) := by
  have hwarm : ∀ n s, StepsAll (scoresStep fun _ => "0") NoRunBetweenReads s
      (List.replicate n (.warm .sequential)) := by
    intro n s
    refine StepsAll.of_forall fun a ha _ _ _ hupload => ?_
    obtain rfl := List.eq_of_mem_replicate ha
    cases hupload
  refine ⟨scoresCache_coherent (fun _ => "0") .empty _ ?_, by decide, by decide⟩
  have hfirst : StepsAll (scoresStep fun _ => "0") NoRunBetweenReads (.init .empty)
      [.upload (fun _ => none) (singleUpload "a")] :=
    .cons rfl (fun _ _ _ _ => trivial) trivial
  refine ((hfirst.append fun _ _ => hwarm 5 _).append ?_).append fun _ _ => hwarm 8 _
  -- the warmer has read all runs when the second upload comes
  rintro _ ⟨⟩
  exact .cons rfl (fun _ _ _ _ => trivial) trivial

/-- The second upload comes between the two reads of the last scoring run: the
cache combines the second run with the score of the first. -/
theorem scoresCache_mixes_runs :
    ¬ StatesAll (scoresStep fun _ => "0") ScoresState.CacheCoherent (.init .empty)
      [.upload (fun _ => none) (singleUpload "a"), .warm .sequential, .warm .sequential,
        .upload (fun _ => none) (singleUpload "b"), .warm .sequential, .warm .sequential,
        .warm .sequential, .warm .sequential] := by
  intro h
  have hlast := h.last rfl
  have hid := hlast _ rfl _ (List.mem_singleton_self _)
  revert hid
  decide

end DelegationStrategy.Api
