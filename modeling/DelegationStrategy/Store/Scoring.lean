import DelegationStrategy.Collect.Snapshot
import DelegationStrategy.Lib.Autocommit
import DelegationStrategy.Store.Run
import Mathlib.Algebra.Ring.Nat
import Mathlib.Data.List.Sort

/-!
# The `scoring_runs` and `scores` tables

`store_scoring` (`store/src/utils.rs`) inserts a row in `scoring_runs` and then
its scores, 500 rows a statement, without a transaction; the readers
(`load_last_scoring_run`, `load_scores`) serve the run with the greatest id. So a
call that fails at chunk `j` leaves the new run with its first `500 * j` scores,
and this is what the readers serve from then on (`storeScoring_err`).
-/

namespace DelegationStrategy.Store

open DelegationStrategy.Lib DelegationStrategy.Collect

/-! ## Tables -/

structure ScoringRunRow where
  scoringRunId : Nat
  createdAt : Timestamp
  epoch : Int
  components : List String
  componentWeights : List Rat
  uiId : String
  deriving DecidableEq, Repr

structure ScoreRow where
  scoreId : Nat
  voteAccount : String
  score : Rat
  componentScores : List Rat
  componentRanks : List Int
  componentValues : List (Option String)
  vemndeVotes : Rat
  msolVotes : Rat
  rank : Int
  uiHints : List String
  eligibleStakeAlgo : Bool
  eligibleStakeVemnde : Bool
  eligibleStakeMsol : Bool
  targetStakeAlgo : Rat
  targetStakeVemnde : Rat
  targetStakeMsol : Rat
  scoringRunId : Nat
  deriving DecidableEq, Repr

/-- The two tables and their sequences. The keys are part of the type: a
sequence is ahead of the run ids it gave out, and every score belongs to a run. -/
structure ScoringTables where
  scoringRuns : List ScoringRunRow
  scores : List ScoreRow
  nextScoringRunId : Nat
  nextScoreId : Nat
  primaryKey : (scoringRuns.map ScoringRunRow.scoringRunId).Nodup
  sequence : ∀ run ∈ scoringRuns, run.scoringRunId < nextScoringRunId
  foreignKey : ∀ row ∈ scores, row.scoringRunId ∈ scoringRuns.map ScoringRunRow.scoringRunId

def ScoringTables.empty : ScoringTables where
  scoringRuns := []
  scores := []
  nextScoringRunId := 1
  nextScoreId := 1
  primaryKey := List.nodup_nil
  sequence _ h := nomatch h
  foreignKey _ h := nomatch h

/-! ## `store_scoring` -/

/-- `ValidatorScoringCsvRow`. -/
structure ValidatorScoringCsvRow where
  voteAccount : String
  score : Rat
  rank : Int
  vemndeVotes : Rat
  msolVotes : Rat
  uiHints : String
  eligibleStakeAlgo : Bool
  eligibleStakeVemnde : Bool
  eligibleStakeMsol : Bool
  normalizedDcConcentration : Rat
  normalizedGraceSkipRate : Rat
  normalizedAdjustedCredits : Rat
  avgDcConcentration : Rat
  avgGraceSkipRate : Rat
  avgAdjustedCredits : Rat
  rankDcConcentration : Int
  rankGraceSkipRate : Int
  rankAdjustedCredits : Int
  targetStakeAlgo : Rat
  targetStakeVemnde : Rat
  targetStakeMsol : Rat
  deriving DecidableEq, Repr

/-- The arguments of a call of `store_scoring`, and the time of the server. -/
structure ScoringUpload where
  now : Timestamp
  epoch : Int
  uiId : String
  components : List String
  componentWeights : List Rat
  scores : List ValidatorScoringCsvRow
  deriving DecidableEq, Repr

section StoreScoring

-- `f64::to_string`
variable (f64ToString : Rat → String)

def mapToOrderedComponentValues (components : List String) (row : ValidatorScoringCsvRow) :
    List (Option String) :=
  components.map fun component =>
    if component = "COMMISSION_ADJUSTED_CREDITS" then some (f64ToString row.avgAdjustedCredits)
    else if component = "GRACE_SKIP_RATE" then some (f64ToString row.avgGraceSkipRate)
    else if component = "DC_CONCENTRATION" then some (f64ToString row.avgDcConcentration)
    else none

def parseUiHints (uiHints : String) : List String :=
  if uiHints = "" then [] else uiHints.splitOn ","

/-- The maps `…_by_vote_account`: of rows with the same vote account the last
one counts. -/
def byVoteAccount {α : Type} (f : ValidatorScoringCsvRow → α)
    (scores : List ValidatorScoringCsvRow) : Dict String α :=
  Dict.ofList (scores.map fun row => (row.voteAccount, f row))

/-- What a score row takes from the maps. They know the vote account of every row, so the
`unwrap` of a missing one does not happen. -/
def lookup {α : Type} (f : ValidatorScoringCsvRow → α) (scores : List ValidatorScoringCsvRow)
    (row : ValidatorScoringCsvRow) : α :=
  ((byVoteAccount f scores).get? row.voteAccount).getD (f row)

/-- The parameters of one row of the `INSERT INTO scores`. -/
def scoreRow (upload : ScoringUpload) (scoringRunId scoreId : Nat)
    (row : ValidatorScoringCsvRow) : ScoreRow where
  scoreId := scoreId
  voteAccount := row.voteAccount
  score := row.score
  componentScores := lookup (fun row => [row.normalizedAdjustedCredits,
    row.normalizedGraceSkipRate, row.normalizedDcConcentration]) upload.scores row
  componentRanks := lookup (fun row => [row.rankAdjustedCredits, row.rankGraceSkipRate,
    row.rankDcConcentration]) upload.scores row
  componentValues := lookup (mapToOrderedComponentValues f64ToString upload.components)
    upload.scores row
  vemndeVotes := row.vemndeVotes
  msolVotes := row.msolVotes
  rank := row.rank
  uiHints := lookup (fun row => parseUiHints row.uiHints) upload.scores row
  eligibleStakeAlgo := row.eligibleStakeAlgo
  eligibleStakeVemnde := row.eligibleStakeVemnde
  eligibleStakeMsol := row.eligibleStakeMsol
  targetStakeAlgo := row.targetStakeAlgo
  targetStakeVemnde := row.targetStakeVemnde
  targetStakeMsol := row.targetStakeMsol
  scoringRunId := scoringRunId

/-- The rows of consecutive `INSERT`s, numbered by the sequence. -/
def scoreRows (upload : ScoringUpload) (scoringRunId firstScoreId : Nat)
    (rows : List ValidatorScoringCsvRow) : List ScoreRow :=
  (rows.zipIdx firstScoreId).map fun (row, scoreId) =>
    scoreRow f64ToString upload scoringRunId scoreId row

/-- The run that `INSERT INTO scoring_runs … RETURNING scoring_run_id` adds. -/
def scoringRun (upload : ScoringUpload) (scoringRunId : Nat) : ScoringRunRow where
  scoringRunId := scoringRunId
  createdAt := upload.now
  epoch := upload.epoch
  components := upload.components
  componentWeights := upload.componentWeights
  uiId := upload.uiId

def insertScoringRun (upload : ScoringUpload) : Statement DbError ScoringTables := fun tables =>
  .ok
    { tables with
      scoringRuns := tables.scoringRuns ++ [scoringRun upload tables.nextScoringRunId]
      nextScoringRunId := tables.nextScoringRunId + 1
      primaryKey := by
        rw [List.map_append, List.nodup_append]
        refine ⟨tables.primaryKey, List.nodup_singleton _, fun id hid id' hid' => ?_⟩
        obtain ⟨run, hrun, rfl⟩ := List.mem_map.mp hid
        rw [List.mem_singleton.mp hid']
        exact (tables.sequence run hrun).ne
      sequence := fun run hrun => by
        rcases List.mem_append.mp hrun with hrun | hrun
        · exact Nat.lt_succ_of_lt (tables.sequence run hrun)
        · rw [List.mem_singleton.mp hrun]
          exact Nat.lt_succ_self _
      foreignKey := fun row hrow => by
        rw [List.map_append]
        exact List.mem_append_left _ (tables.foreignKey row hrow) }

/-- The `INSERT INTO scores` of one chunk; it checks the foreign key. -/
def insertScores (upload : ScoringUpload) (scoringRunId : Nat)
    (chunk : List ValidatorScoringCsvRow) : Statement DbError ScoringTables := fun tables =>
  withParams (16 * chunk.length) <|
    if h : scoringRunId ∈ tables.scoringRuns.map ScoringRunRow.scoringRunId then
      .ok
        { tables with
          scores := tables.scores ++
            scoreRows f64ToString upload scoringRunId tables.nextScoreId chunk
          nextScoreId := tables.nextScoreId + chunk.length
          foreignKey := fun row hrow => by
            rcases List.mem_append.mp hrow with hrow | hrow
            · exact tables.foreignKey row hrow
            · obtain ⟨_, -, rfl⟩ := List.mem_map.mp hrow
              exact h }
    else .error .foreignKeyViolation

/-- The statements of `store_scoring`; the sequence gives the run its id. -/
def scoringStatements (upload : ScoringUpload) (scoringRunId : Nat) :
    List (Statement DbError ScoringTables) :=
  insertScoringRun upload ::
    (chunks 500 upload.scores).map (insertScores f64ToString upload scoringRunId)

/-- `store_scoring`. -/
def storeScoring (fault : Nat → Option DbError) (upload : ScoringUpload)
    (tables : ScoringTables) : ScoringTables × Except DbError Unit :=
  autocommit fault (scoringStatements f64ToString upload tables.nextScoringRunId) tables

end StoreScoring

/-! ## The readers -/

/-- `load_last_scoring_run`: the run with the greatest id. -/
def loadLastScoringRun (tables : ScoringTables) : Option ScoringRunRow :=
  tables.scoringRuns.argmax ScoringRunRow.scoringRunId

/-- `ValidatorScoreRecord`. -/
structure ValidatorScoreRecord where
  voteAccount : String
  score : Rat
  rank : Int
  vemndeVotes : Nat
  msolVotes : Nat
  uiHints : List String
  componentScores : List Rat
  componentRanks : List Int
  componentValues : List (Option String)
  eligibleStakeAlgo : Bool
  eligibleStakeVemnde : Bool
  eligibleStakeMsol : Bool
  targetStakeAlgo : Nat
  targetStakeVemnde : Nat
  targetStakeMsol : Nat
  scoringRunId : Nat
  createdAt : Timestamp
  deriving DecidableEq, Repr

/-- `Decimal` to `u64`: truncated, `none` if it does not fit. -/
def decimalToU64 (a : Rat) : Option Nat :=
  if 0 ≤ a ∧ a.floor.toNat < 2 ^ 64 then some a.floor.toNat else none

/-- A `u64` survives the conversion, and no other natural number is converted. -/
theorem decimalToU64_eq_some_iff {n m : Nat} :
    decimalToU64 n = some m ↔ n < 2 ^ 64 ∧ m = n := by
  have hfloor : (n : Rat).floor = n := by
    rw [← Rat.intCast_natCast, Rat.floor_intCast]
  have hnonneg : (0 : Rat) ≤ n := Rat.natCast_nonneg
  simp [decimalToU64, hfloor, hnonneg, eq_comm]

theorem decimalToU64_natCast {n : Nat} (h : n < 2 ^ 64) : decimalToU64 n = some n :=
  decimalToU64_eq_some_iff.mpr ⟨h, rfl⟩

/-- The record of a row; `none` where an `unwrap` panics. -/
def scoreRecord (tables : ScoringTables) (row : ScoreRow) : Option ValidatorScoreRecord := do
  let vemndeVotes ← decimalToU64 row.vemndeVotes
  let msolVotes ← decimalToU64 row.msolVotes
  let targetStakeAlgo ← decimalToU64 row.targetStakeAlgo
  let targetStakeVemnde ← decimalToU64 row.targetStakeVemnde
  let targetStakeMsol ← decimalToU64 row.targetStakeMsol
  let run ← tables.scoringRuns.find? fun run => run.scoringRunId = row.scoringRunId
  some
    { voteAccount := row.voteAccount
      score := row.score
      rank := row.rank
      vemndeVotes := vemndeVotes
      msolVotes := msolVotes
      uiHints := row.uiHints
      componentScores := row.componentScores
      componentRanks := row.componentRanks
      componentValues := row.componentValues
      eligibleStakeAlgo := row.eligibleStakeAlgo
      eligibleStakeVemnde := row.eligibleStakeVemnde
      eligibleStakeMsol := row.eligibleStakeMsol
      targetStakeAlgo := targetStakeAlgo
      targetStakeVemnde := targetStakeVemnde
      targetStakeMsol := targetStakeMsol
      scoringRunId := row.scoringRunId
      createdAt := run.createdAt }

/-- `records.entry(vote_account).or_insert_with(…)`. -/
def addScoreRecord (tables : ScoringTables) (records : Dict String ValidatorScoreRecord)
    (row : ScoreRow) : Option (Dict String ValidatorScoreRecord) :=
  if row.voteAccount ∈ records.keys then some records
  else (scoreRecord tables row).map (records.insert row.voteAccount)

/-- The rows of a run, `ORDER BY rank`. -/
def scoresOfRun (scan : Scan) (tables : ScoringTables) (scoringRunId : Nat) : List ScoreRow :=
  ((scan.order tables.scores).filter fun row => row.scoringRunId = scoringRunId).insertionSort
    fun row row' => row.rank ≤ row'.rank

/-- `load_scores`; `none` is a panic. -/
def loadScores (scan : Scan) (tables : ScoringTables) (scoringRunId : Nat) :
    Option (Dict String ValidatorScoreRecord) :=
  (scoresOfRun scan tables scoringRunId).foldlM (addScoreRecord tables) Dict.empty

/-- `load_all_scores`: the records of all runs, by run and ordered by rank; `none`
is an error of a conversion. -/
def loadAllScores (scan : Scan) (tables : ScoringTables) :
    Option (Dict Nat (List ValidatorScoreRecord)) :=
  ((scan.order tables.scores).insertionSort fun row row' => row.rank ≤ row'.rank).foldlM
    (fun records row => (scoreRecord tables row).map fun record =>
      records.insert row.scoringRunId
        ((records.get? row.scoringRunId).getD [] ++ [record]))
    Dict.empty

/-- `load_scoring_runs`: the latest run first. -/
def loadScoringRuns (tables : ScoringTables) : List ScoringRunRow :=
  tables.scoringRuns.insertionSort fun run run' => run'.scoringRunId ≤ run.scoringRunId

/-! ## What a call leaves -/

section WriteFacts

variable {f64ToString : Rat → String} {upload : ScoringUpload} {scoringRunId : Nat}

theorem scoreRows_append (firstScoreId : Nat) (rows rows' : List ValidatorScoringCsvRow) :
    scoreRows f64ToString upload scoringRunId firstScoreId (rows ++ rows') =
      scoreRows f64ToString upload scoringRunId firstScoreId rows ++
        scoreRows f64ToString upload scoringRunId (firstScoreId + rows.length) rows' := by
  unfold scoreRows
  rw [List.zipIdx_append, List.map_append]

theorem scoreRows_voteAccount (firstScoreId : Nat) (rows : List ValidatorScoringCsvRow) :
    (scoreRows f64ToString upload scoringRunId firstScoreId rows).map ScoreRow.voteAccount =
      rows.map ValidatorScoringCsvRow.voteAccount := by
  unfold scoreRows
  rw [List.map_map]
  conv_rhs => rw [← List.zipIdx_map_fst firstScoreId rows, List.map_map]
  rfl

/-- The `INSERT` of a chunk adds its rows and nothing else. -/
theorem insertScores_eq_ok {chunk : List ValidatorScoringCsvRow}
    {tables tables' : ScoringTables}
    (h : insertScores f64ToString upload scoringRunId chunk tables = .ok tables') :
    tables'.scoringRuns = tables.scoringRuns ∧
      tables'.scores = tables.scores ++
        scoreRows f64ToString upload scoringRunId tables.nextScoreId chunk ∧
      tables'.nextScoreId = tables.nextScoreId + chunk.length := by
  have hins := withParams_eq_ok h
  split at hins
  · obtain rfl := Except.ok.inj hins
    exact ⟨rfl, rfl, rfl⟩
  · cases hins

/-- A chunk of at most 500 rows of a run that exists can only fail through a
fault. -/
theorem insertScores_ne_error {chunk : List ValidatorScoringCsvRow} {tables : ScoringTables}
    {e : DbError} (hlen : chunk.length ≤ 500)
    (hrun : scoringRunId ∈ tables.scoringRuns.map ScoringRunRow.scoringRunId) :
    insertScores f64ToString upload scoringRunId chunk tables ≠ .error e := by
  unfold insertScores withParams maxParams
  rw [if_pos (by omega), dif_pos hrun]
  nofun

/-- Consecutive chunks add their rows one after the other. -/
theorem commitAll_insertScores {chunkList : List (List ValidatorScoringCsvRow)}
    {tables tables' : ScoringTables}
    (h : commitAll (chunkList.map (insertScores f64ToString upload scoringRunId)) tables =
      .ok tables') :
    tables'.scoringRuns = tables.scoringRuns ∧
      tables'.scores = tables.scores ++
        scoreRows f64ToString upload scoringRunId tables.nextScoreId chunkList.flatten := by
  induction chunkList generalizing tables with
  | nil =>
    obtain rfl := Except.ok.inj h
    exact ⟨rfl, (List.append_nil _).symm⟩
  | cons chunk chunkList ih =>
    obtain ⟨tables₁, hfirst, hrest⟩ := commitAll_cons.mp h
    obtain ⟨hruns, hscores, hnext⟩ := insertScores_eq_ok hfirst
    obtain ⟨hruns', hscores'⟩ := ih hrest
    refine ⟨hruns'.trans hruns, ?_⟩
    rw [hscores', hscores, hnext, List.flatten_cons, scoreRows_append, List.append_assoc]

/-- After the run and the first `j` chunks. -/
theorem commitAll_scoringStatements {tables tables' : ScoringTables} {j : Nat}
    (h : commitAll ((scoringStatements f64ToString upload tables.nextScoringRunId).take (j + 1))
      tables = .ok tables') :
    tables'.scoringRuns =
        tables.scoringRuns ++ [scoringRun upload tables.nextScoringRunId] ∧
      tables'.scores = tables.scores ++
        scoreRows f64ToString upload tables.nextScoringRunId tables.nextScoreId
          (upload.scores.take (500 * j)) := by
  unfold scoringStatements at h
  rw [List.take_succ_cons] at h
  obtain ⟨tables₁, hrun, hchunks⟩ := commitAll_cons.mp h
  obtain rfl := Except.ok.inj hrun
  rw [← List.map_take] at hchunks
  obtain ⟨hruns, hscores⟩ := commitAll_insertScores hchunks
  rw [chunks_take_flatten (by decide)] at hscores
  exact ⟨hruns, hscores⟩

end WriteFacts

/-! ## What the readers serve -/

section ReadFacts

variable {tables : ScoringTables} {records records' : Dict String ValidatorScoreRecord}

theorem scoreRecord_eq_some {row : ScoreRow} {record : ValidatorScoreRecord}
    (h : scoreRecord tables row = some record) :
    record.voteAccount = row.voteAccount ∧ record.scoringRunId = row.scoringRunId := by
  unfold scoreRecord at h
  simp only [Option.bind_eq_bind, Option.bind_eq_some_iff] at h
  obtain ⟨_, -, _, -, _, -, _, -, _, -, _, -, h⟩ := h
  obtain rfl := Option.some.inj h
  exact ⟨rfl, rfl⟩

/-- A row adds its record unless there is one for its vote account. -/
theorem addScoreRecord_eq_some {row : ScoreRow}
    (h : addScoreRecord tables records row = some records') :
    (∀ voteAccount, voteAccount ∈ records'.keys ↔
      voteAccount ∈ records.keys ∨ voteAccount = row.voteAccount) ∧
    ∀ entry ∈ records'.entries, entry ∈ records.entries ∨
      (entry.1 = row.voteAccount ∧ scoreRecord tables row = some entry.2) := by
  unfold addScoreRecord at h
  split at h
  · rename_i hthere
    obtain rfl := Option.some.inj h
    refine ⟨fun voteAccount => ⟨Or.inl, ?_⟩, fun _ hentry => Or.inl hentry⟩
    rintro (hk | rfl)
    · exact hk
    · exact hthere
  · obtain ⟨record, hrecord, rfl⟩ := Option.map_eq_some_iff.mp h
    refine ⟨fun _ => Dict.mem_keys_insert, fun entry hentry => ?_⟩
    rcases Dict.mem_insert.mp hentry with ⟨hk, hvalue⟩ | ⟨-, hold⟩
    · exact Or.inr ⟨hk, hvalue ▸ hrecord⟩
    · exact Or.inl hold

/-- The keys and the records after a number of rows. -/
theorem foldlM_addScoreRecord {rows : List ScoreRow}
    (h : rows.foldlM (addScoreRecord tables) records = some records') :
    (∀ voteAccount, voteAccount ∈ records'.keys ↔
      voteAccount ∈ records.keys ∨ voteAccount ∈ rows.map ScoreRow.voteAccount) ∧
    ∀ entry ∈ records'.entries, entry ∈ records.entries ∨
      ∃ row ∈ rows, entry.1 = row.voteAccount ∧ scoreRecord tables row = some entry.2 := by
  induction rows generalizing records with
  | nil =>
    obtain rfl := Option.some.inj h
    exact ⟨fun _ => by simp, fun _ h => Or.inl h⟩
  | cons row rows ih =>
    rw [List.foldlM_cons] at h
    obtain ⟨records₁, hadd, hrest⟩ := Option.bind_eq_some_iff.mp h
    obtain ⟨hkeys, hentries⟩ := ih hrest
    obtain ⟨hkeys₁, hentries₁⟩ := addScoreRecord_eq_some hadd
    refine ⟨fun voteAccount => ?_, fun entry hentry => ?_⟩
    · rw [hkeys, hkeys₁, List.map_cons, List.mem_cons, or_assoc]
    · rcases hentries entry hentry with hentry | ⟨r, hr, hrec⟩
      · rcases hentries₁ entry hentry with hold | hrec
        · exact Or.inl hold
        · exact Or.inr ⟨row, List.mem_cons_self, hrec⟩
      · exact Or.inr ⟨r, List.mem_cons_of_mem _ hr, hrec⟩

theorem mem_scoresOfRun {scan : Scan} {scoringRunId : Nat} {row : ScoreRow} :
    row ∈ scoresOfRun scan tables scoringRunId ↔
      row ∈ tables.scores ∧ row.scoringRunId = scoringRunId := by
  unfold scoresOfRun
  rw [List.mem_insertionSort, List.mem_filter, Scan.mem_order, decide_eq_true_iff]

/-- **`load_scores` serves the rows of the run**: a record for each vote account
that has a row, made of such a row. -/
theorem loadScores_eq_some {scan : Scan} {scoringRunId : Nat}
    (h : loadScores scan tables scoringRunId = some records) :
    (∀ voteAccount, voteAccount ∈ records.keys ↔
      ∃ row ∈ tables.scores, row.scoringRunId = scoringRunId ∧
        row.voteAccount = voteAccount) ∧
    ∀ entry ∈ records.entries, ∃ row ∈ tables.scores, row.scoringRunId = scoringRunId ∧
      entry.1 = row.voteAccount ∧ scoreRecord tables row = some entry.2 := by
  obtain ⟨hkeys, hentries⟩ := foldlM_addScoreRecord h
  refine ⟨fun voteAccount => ?_, fun entry hentry => ?_⟩
  · rw [hkeys, List.mem_map]
    constructor
    · rintro (hk | ⟨row, hrow, hk⟩)
      · cases hk
      · obtain ⟨hrow, hrun⟩ := mem_scoresOfRun.mp hrow
        exact ⟨row, hrow, hrun, hk⟩
    · rintro ⟨row, hrow, hrun, hk⟩
      exact Or.inr ⟨row, mem_scoresOfRun.mpr ⟨hrow, hrun⟩, hk⟩
  · rcases hentries entry hentry with hnil | ⟨row, hrow, hrec⟩
    · cases hnil
    · obtain ⟨hrow, hrun⟩ := mem_scoresOfRun.mp hrow
      exact ⟨row, hrow, hrun, hrec⟩

end ReadFacts

/-! ## A failed call -/

/-- Every score belongs to a run, so the next run id has no scores yet. -/
theorem ScoringTables.scoringRunId_lt (tables : ScoringTables) {row : ScoreRow}
    (h : row ∈ tables.scores) : row.scoringRunId < tables.nextScoringRunId := by
  obtain ⟨run, hrun, heq⟩ := List.mem_map.mp (tables.foreignKey row h)
  rw [← heq]
  exact tables.sequence run hrun

/-- A new run is the one with the greatest id. -/
theorem loadLastScoringRun_concat {tables tables' : ScoringTables} {run : ScoringRunRow}
    (hid : run.scoringRunId = tables.nextScoringRunId)
    (hruns : tables'.scoringRuns = tables.scoringRuns ++ [run]) :
    loadLastScoringRun tables' = some run := by
  unfold loadLastScoringRun
  rw [hruns, List.argmax_concat]
  cases hmax : tables.scoringRuns.argmax ScoringRunRow.scoringRunId with
  | none => rfl
  | some r =>
    have hr := tables.sequence r (List.argmax_mem hmax)
    exact if_pos (hid ▸ hr)

/-- The rows of the next run are the new ones. -/
theorem mem_scores_of_next {f64ToString : Rat → String} {upload : ScoringUpload}
    {tables tables' : ScoringTables} {rows : List ValidatorScoringCsvRow}
    (hscores : tables'.scores = tables.scores ++ scoreRows f64ToString upload
      tables.nextScoringRunId tables.nextScoreId rows) {row : ScoreRow} :
    (row ∈ tables'.scores ∧ row.scoringRunId = tables.nextScoringRunId) ↔
      row ∈ scoreRows f64ToString upload tables.nextScoringRunId tables.nextScoreId rows := by
  rw [hscores, List.mem_append]
  constructor
  · rintro ⟨hold | hnew, hrun⟩
    · exact absurd hrun (tables.scoringRunId_lt hold).ne
    · exact hnew
  · intro hnew
    obtain ⟨_, -, rfl⟩ := List.mem_map.mp hnew
    exact ⟨Or.inr hnew, rfl⟩

/-- What the readers serve of a run whose score rows are the new ones. -/
theorem loadScores_of_next {f64ToString : Rat → String} {upload : ScoringUpload}
    {tables tables' : ScoringTables} {rows : List ValidatorScoringCsvRow} {scan : Scan}
    {records : Dict String ValidatorScoreRecord}
    (hscores : tables'.scores = tables.scores ++ scoreRows f64ToString upload
      tables.nextScoringRunId tables.nextScoreId rows)
    (hload : loadScores scan tables' tables.nextScoringRunId = some records) :
    (∀ voteAccount, voteAccount ∈ records.keys ↔
      voteAccount ∈ rows.map ValidatorScoringCsvRow.voteAccount) ∧
    ∀ entry ∈ records.entries, ∃ row ∈ scoreRows f64ToString upload
        tables.nextScoringRunId tables.nextScoreId rows,
      entry.1 = row.voteAccount ∧ scoreRecord tables' row = some entry.2 := by
  obtain ⟨hkeys, hentries⟩ := loadScores_eq_some hload
  refine ⟨fun voteAccount => ?_, fun entry hentry => ?_⟩
  · rw [hkeys, ← scoreRows_voteAccount, List.mem_map]
    constructor
    · rintro ⟨row, hrow, hid, hkey⟩
      exact ⟨row, (mem_scores_of_next hscores).mp ⟨hrow, hid⟩, hkey⟩
    · rintro ⟨row, hrow, hkey⟩
      obtain ⟨hrow, hid⟩ := (mem_scores_of_next hscores).mpr hrow
      exact ⟨row, hrow, hid, hkey⟩
  · obtain ⟨row, hrow, hid, hrec⟩ := hentries entry hentry
    exact ⟨row, (mem_scores_of_next hscores).mp ⟨hrow, hid⟩, hrec⟩

/-- A call, failed or not, changes nothing or adds a run and the first of its scores. -/
theorem storeScoring_cases (f64ToString : Rat → String) (fault : Nat → Option DbError)
    (upload : ScoringUpload) (tables : ScoringTables) :
    (fault 0 ≠ none ∧ (storeScoring f64ToString fault upload tables).1 = tables) ∨
    (fault 0 = none ∧ ∃ count,
      (storeScoring f64ToString fault upload tables).1.scoringRuns =
        tables.scoringRuns ++ [scoringRun upload tables.nextScoringRunId] ∧
      (storeScoring f64ToString fault upload tables).1.scores = tables.scores ++
        scoreRows f64ToString upload tables.nextScoringRunId tables.nextScoreId
          (upload.scores.take count)) := by
  cases hf : fault 0 with
  | some e =>
    refine Or.inl ⟨nofun, ?_⟩
    unfold storeScoring scoringStatements autocommit
    rw [hf]
  | none =>
    obtain ⟨k, hk, -, hend⟩ := autocommit_spec fault
      (scoringStatements f64ToString upload tables.nextScoringRunId) tables
    cases k with
    | zero =>
      -- the first statement does not fail by itself
      rcases hend with ⟨-, hlen⟩ | ⟨_, _, -, hstatement, hfault | ⟨-, hfail⟩⟩
      · cases hlen
      · rw [hf] at hfault
        cases hfault
      · obtain rfl := Option.some.inj hstatement
        cases hfail
    | succ j => exact Or.inr ⟨rfl, _, commitAll_scoringStatements hk⟩

/-- **What a failed call of `store_scoring` leaves**: nothing if the run was not
inserted; otherwise the new run with the first `500 * j` scores, for the chunk `j`
that failed, and that is what the readers serve. -/
theorem storeScoring_err (f64ToString : Rat → String) (fault : Nat → Option DbError)
    (upload : ScoringUpload) (tables tables' : ScoringTables) (e : DbError)
    (h : storeScoring f64ToString fault upload tables = (tables', .error e)) :
    (fault 0 = some e ∧ tables'.scoringRuns = tables.scoringRuns ∧
      tables'.scores = tables.scores) ∨
    ∃ j, (∀ i ≤ j, fault i = none) ∧ fault (j + 1) = some e ∧
      500 * j < upload.scores.length ∧
      tables'.scoringRuns =
        tables.scoringRuns ++ [scoringRun upload tables.nextScoringRunId] ∧
      tables'.scores = tables.scores ++
        scoreRows f64ToString upload tables.nextScoringRunId tables.nextScoreId
          (upload.scores.take (500 * j)) ∧
      loadLastScoringRun tables' = some (scoringRun upload tables.nextScoringRunId) ∧
      ∀ scan records, loadScores scan tables' tables.nextScoringRunId = some records →
        (∀ voteAccount, voteAccount ∈ records.keys ↔ voteAccount ∈
          (upload.scores.take (500 * j)).map ValidatorScoringCsvRow.voteAccount) ∧
        ∀ entry ∈ records.entries, ∃ row ∈ scoreRows f64ToString upload
            tables.nextScoringRunId tables.nextScoreId (upload.scores.take (500 * j)),
          entry.1 = row.voteAccount ∧ scoreRecord tables' row = some entry.2 := by
  obtain ⟨k, hk, hnone, hend⟩ := autocommit_spec fault
    (scoringStatements f64ToString upload tables.nextScoringRunId) tables
  rw [show autocommit fault _ tables = (tables', .error e) from h] at hk hend
  obtain ⟨hok, -⟩ | ⟨e', statement, he, hstatement, hcause⟩ := hend
  · cases hok
  obtain rfl : e = e' := Except.error.inj he
  cases k with
  | zero =>
    -- the run itself was not inserted
    left
    obtain rfl := Except.ok.inj hk
    obtain rfl := Option.some.inj hstatement
    rcases hcause with hfault | ⟨-, hfail⟩
    · exact ⟨hfault, rfl, rfl⟩
    · cases hfail
  | succ j =>
    right
    obtain ⟨hruns, hscores⟩ := commitAll_scoringStatements hk
    obtain ⟨chunk, hchunk, rfl⟩ :
        ∃ chunk, (chunks 500 upload.scores)[j]? = some chunk ∧
          insertScores f64ToString upload tables.nextScoringRunId chunk = statement := by
      simpa [scoringStatements] using hstatement
    have hj : j < (chunks 500 upload.scores).length := (List.getElem?_eq_some_iff.mp hchunk).1
    have hlen := length_of_mem_chunks (List.mem_of_getElem? hchunk)
    have hrun : tables.nextScoringRunId ∈
        tables'.scoringRuns.map ScoringRunRow.scoringRunId := by
      rw [hruns, List.map_append]
      exact List.mem_append_right _ (List.mem_singleton_self _)
    refine ⟨j, fun i hi => hnone i (Nat.lt_succ_of_le hi), ?_, lt_length_of_chunks hj,
      hruns, hscores, loadLastScoringRun_concat rfl hruns, fun scan records hload =>
        loadScores_of_next hscores hload⟩
    -- an `INSERT` of at most 500 scores of a known run does not fail by itself
    rcases hcause with hfault | ⟨-, hfail⟩
    · exact hfault
    · exact absurd hfail (insertScores_ne_error hlen hrun)

/-- An upload of one validator, with the score `0`. -/
def singleUpload (voteAccount : String) : ScoringUpload where
  now := 0
  epoch := 500
  uiId := "500.1"
  components := ["COMMISSION_ADJUSTED_CREDITS", "GRACE_SKIP_RATE", "DC_CONCENTRATION"]
  componentWeights := [10, 1, 2]
  scores :=
    [{ voteAccount := voteAccount
       score := 0
       rank := 1
       vemndeVotes := 0
       msolVotes := 0
       uiHints := ""
       eligibleStakeAlgo := true
       eligibleStakeVemnde := true
       eligibleStakeMsol := true
       normalizedDcConcentration := 0
       normalizedGraceSkipRate := 0
       normalizedAdjustedCredits := 0
       avgDcConcentration := 0
       avgGraceSkipRate := 0
       avgAdjustedCredits := 0
       rankDcConcentration := 1
       rankGraceSkipRate := 1
       rankAdjustedCredits := 1
       targetStakeAlgo := 0
       targetStakeVemnde := 0
       targetStakeMsol := 0 }]

/-- The connection is lost before the only chunk: the call fails, and the run
without its score stays. -/
theorem storeScoring_leaves_run :
    (storeScoring (fun _ => "0") (stopAt 1 .connection) (singleUpload "vote") .empty).2 =
        .error .connection ∧
      (storeScoring (fun _ => "0") (stopAt 1 .connection) (singleUpload "vote")
        .empty).1.scoringRuns ≠ ScoringTables.empty.scoringRuns := by
  decide

theorem storeScoring_err_single :
    loadLastScoringRun
      (storeScoring (fun _ => "0") (stopAt 1 .connection) (singleUpload "vote") .empty).1 =
        some (scoringRun (singleUpload "vote") 1) := by
  rcases storeScoring_err (fun _ => "0") (stopAt 1 .connection) (singleUpload "vote") .empty
    _ .connection rfl with ⟨hfault, -⟩ | ⟨_, -, -, -, -, -, hlast, -⟩
  · cases hfault
  · exact hlast

end DelegationStrategy.Store
