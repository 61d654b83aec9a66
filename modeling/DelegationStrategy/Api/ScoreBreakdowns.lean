import DelegationStrategy.Api.ScoresCache
import DelegationStrategy.Lib.CoarseMin
import DelegationStrategy.Store.ScoreRoundTrip
import DelegationStrategy.Store.ValidatorRecords

/-!
# The score breakdowns

`/validators/score-breakdown` (`api/src/handlers/validator_score_breakdown.rs`) shows the
score of a validator in the last scoring run, `/validators/score-breakdowns`
(`api/src/handlers/validator_score_breakdowns.rs`) its scores in all runs. Both report the
score that was enough for algorithmic stake in the run, `min_score_eligible_algo`: the
score of least `to_fixed_for_sort` among the eligible ones, the first of them in the
order of a hash map. It is the minimum in every order exactly if the eligible scores that
round to the least number are equal (`minScoreEligibleAlgo_iff`).
-/

namespace DelegationStrategy.Api

open DelegationStrategy.Lib DelegationStrategy.Collect DelegationStrategy.Store

/-! ## The handlers -/

/-- `response_error`. -/
structure ResponseError where
  status : Nat
  message : String
  deriving DecidableEq, Repr

structure ScoreBreakdown where
  voteAccount : String
  score : Rat
  minScoreEligibleAlgo : Option Rat
  rank : Int
  uiHints : List String
  vemndeVotes : Nat
  msolVotes : Nat
  componentScores : List Rat
  componentRanks : List Int
  componentValues : List (Option String)
  componentWeights : List Rat
  components : List String
  eligibleStakeAlgo : Bool
  eligibleStakeVemnde : Bool
  eligibleStakeMnde : Bool
  eligibleStakeMsol : Bool
  targetStakeAlgo : Nat
  targetStakeVemnde : Nat
  targetStakeMnde : Nat
  targetStakeMsol : Nat
  scoringRunId : Nat
  createdAt : Timestamp
  epoch : Int
  uiId : String
  deriving DecidableEq, Repr

/-- The `ScoreBreakdown { … }` of both handlers. -/
def scoreBreakdown (minScoreEligibleAlgo : Option Rat) (scoringRun : ScoringRunRow)
    (score : ValidatorScoreRecord) : ScoreBreakdown where
  voteAccount := score.voteAccount
  score := score.score
  minScoreEligibleAlgo := minScoreEligibleAlgo
  rank := score.rank
  uiHints := score.uiHints
  vemndeVotes := score.vemndeVotes
  msolVotes := score.msolVotes
  componentScores := score.componentScores
  componentRanks := score.componentRanks
  componentValues := score.componentValues
  componentWeights := scoringRun.componentWeights
  components := scoringRun.components
  eligibleStakeAlgo := score.eligibleStakeAlgo
  eligibleStakeVemnde := score.eligibleStakeVemnde
  eligibleStakeMnde := score.eligibleStakeVemnde
  eligibleStakeMsol := score.eligibleStakeMsol
  targetStakeAlgo := score.targetStakeAlgo
  targetStakeVemnde := score.targetStakeVemnde
  targetStakeMnde := score.targetStakeVemnde
  targetStakeMsol := score.targetStakeMsol
  scoringRunId := score.scoringRunId
  createdAt := score.createdAt
  epoch := scoringRun.epoch
  uiId := scoringRun.uiId

/-- `scores.iter().filter(…).map(…).min_by(…)`: the first score of least `to_fixed_for_sort`
in the order of the iteration. -/
def minScoreEligibleAlgo (iteration : Scan) (scores : Dict String ValidatorScoreRecord) :
    Option Rat :=
  (((iteration.order scores.entries).filter fun entry => 0 < entry.2.targetStakeAlgo).map
    fun entry => entry.2.score).argmin toFixedForSort

/-- The handler of `/validators/score-breakdown`. -/
def validatorScoreBreakdown (iteration : Scan) (cache : CachedSingleRunScores)
    (queryVoteAccount : String) : Except ResponseError ScoreBreakdown :=
  match cache.scoringRun with
  | none => .error ⟨200, "No scoring run available!"⟩
  | some scoringRun =>
    match cache.scores.get? queryVoteAccount with
    | none => .error ⟨200, "No score found for the validator!"⟩
    | some score =>
      .ok (scoreBreakdown (minScoreEligibleAlgo iteration cache.scores) scoringRun score)

/-- `QueryParams` of `/validators/score-breakdowns`. -/
structure ScoreBreakdownsQuery where
  queryFromDate : Option Timestamp
  queryVoteAccount : Option String
  deriving DecidableEq, Repr

/-- The records of each run for which `p` holds; a run without any is left out. -/
def filterScores (p : ValidatorScoreRecord → Bool)
    (validatorScores : Dict Nat (List ValidatorScoreRecord)) :
    Dict Nat (List ValidatorScoreRecord) :=
  validatorScores.filterMapVal fun records =>
    if records.filter p = [] then none else some (records.filter p)

def filterScoresByDate (fromDate : Timestamp) :
    Dict Nat (List ValidatorScoreRecord) → Dict Nat (List ValidatorScoreRecord) :=
  filterScores fun score => fromDate < score.createdAt

def filterScoresByVoteAccount (voteAccount : String) :
    Dict Nat (List ValidatorScoreRecord) → Dict Nat (List ValidatorScoreRecord) :=
  filterScores fun score => score.voteAccount = voteAccount

/-- `scoring_run_scores`: of records with the same vote account the last one counts. -/
def scoringRunScores (records : List ValidatorScoreRecord) : Dict String ValidatorScoreRecord :=
  Dict.ofList (records.map fun record => (record.voteAccount, record))

/-- `compute_runs_min_elig_scores`; the map of each run has an order of its own. -/
def computeRunsMinEligScores (iteration : Nat → Scan) (scoringRuns : List ScoringRunRow)
    (validatorScores : Dict Nat (List ValidatorScoreRecord)) : Dict Nat (Option Rat) :=
  scoringRuns.foldl
    (fun runsMinEligScores scoringRun =>
      runsMinEligScores.orInsert scoringRun.scoringRunId
        (minScoreEligibleAlgo (iteration scoringRun.scoringRunId)
          (scoringRunScores ((validatorScores.get? scoringRun.scoringRunId).getD []))))
    Dict.empty

/-- `compute_score_breakdowns`; the `unwrap` of a missing run does not happen
(`get?_computeRunsMinEligScores`). -/
def computeScoreBreakdowns (scoringRuns : List ScoringRunRow)
    (validatorScores : List ValidatorScoreRecord) (runsMinEligScores : Dict Nat (Option Rat)) :
    List ScoreBreakdown :=
  validatorScores.filterMap fun score =>
    (scoringRuns.find? fun s => s.scoringRunId = score.scoringRunId).map fun scoringRun =>
      scoreBreakdown ((runsMinEligScores.get? scoringRun.scoringRunId).getD none) scoringRun score

/-- `validator_scores` after the filter by date. -/
def datedScores (query : ScoreBreakdownsQuery)
    (validatorScores : Dict Nat (List ValidatorScoreRecord)) :
    Dict Nat (List ValidatorScoreRecord) :=
  match query.queryFromDate with
  | some fromDate => filterScoresByDate fromDate validatorScores
  | none => validatorScores

/-- The handler of `/validators/score-breakdowns`; `values` is the order of the last map. -/
def validatorScoreBreakdowns (iteration : Nat → Scan) (values : Scan)
    (cache : CachedMultiRunScores) (query : ScoreBreakdownsQuery) :
    Except ResponseError (List ScoreBreakdown) :=
  match cache.scoringRuns with
  | none => .error ⟨404, "No scoring runs found!"⟩
  | some scoringRuns =>
    let validatorScores := datedScores query cache.scores
    let runsMinEligScores := computeRunsMinEligScores iteration scoringRuns validatorScores
    let validatorScores := match query.queryVoteAccount with
      | some voteAccount => filterScoresByVoteAccount voteAccount validatorScores
      | none => validatorScores
    .ok (computeScoreBreakdowns scoringRuns
      ((values.order validatorScores.entries).flatMap Prod.snd) runsMinEligScores)

/-! ## What the handlers answer -/

theorem validatorScoreBreakdown_eq_ok {iteration : Scan} {cache : CachedSingleRunScores}
    {queryVoteAccount : String} {b : ScoreBreakdown} :
    validatorScoreBreakdown iteration cache queryVoteAccount = .ok b ↔
      ∃ run score, cache.scoringRun = some run ∧
        cache.scores.get? queryVoteAccount = some score ∧
        b = scoreBreakdown (minScoreEligibleAlgo iteration cache.scores) run score := by
  cases hrun : cache.scoringRun with
  | none => simp [validatorScoreBreakdown, hrun]
  | some run =>
    cases hscore : cache.scores.get? queryVoteAccount with
    | none => simp [validatorScoreBreakdown, hrun, hscore]
    | some score => simp [validatorScoreBreakdown, hrun, hscore, eq_comm]

section Filter

variable {p : ValidatorScoreRecord → Bool}
  {validatorScores : Dict Nat (List ValidatorScoreRecord)}

theorem mem_filterScores {scoringRunId : Nat} {records : List ValidatorScoreRecord}
    (h : (scoringRunId, records) ∈ (filterScores p validatorScores).entries) :
    ∃ all, (scoringRunId, all) ∈ validatorScores.entries ∧ records = all.filter p := by
  obtain ⟨all, hall, hsome⟩ := Dict.mem_filterMapVal.mp h
  obtain ⟨-, heq⟩ := Option.ite_none_left_eq_some.mp hsome
  exact ⟨all, hall, (Option.some.inj heq).symm⟩

theorem getD_filterScores (scoringRunId : Nat) :
    ((filterScores p validatorScores).get? scoringRunId).getD [] =
      ((validatorScores.get? scoringRunId).getD []).filter p := by
  rw [filterScores, Dict.get?_filterMapVal]
  cases validatorScores.get? scoringRunId with
  | none => rfl
  | some records =>
    show (if records.filter p = [] then none else some (records.filter p)).getD [] = _
    split
    · rename_i hnil
      exact hnil.symm
    · rfl

theorem mem_datedScores {query : ScoreBreakdownsQuery} {scoringRunId : Nat}
    {records : List ValidatorScoreRecord}
    (h : (scoringRunId, records) ∈ (datedScores query validatorScores).entries) :
    ∃ all, (scoringRunId, all) ∈ validatorScores.entries ∧ ∀ record ∈ records, record ∈ all := by
  unfold datedScores at h
  split at h
  · obtain ⟨all, hall, rfl⟩ := mem_filterScores h
    exact ⟨all, hall, fun record hrecord => List.mem_of_mem_filter hrecord⟩
  · exact ⟨records, h, fun record hrecord => hrecord⟩

end Filter

/-- A breakdown of the second handler is made of a record that the query selects and of the
run of the record. -/
theorem mem_validatorScoreBreakdowns {iteration : Nat → Scan} {values : Scan}
    {cache : CachedMultiRunScores} {query : ScoreBreakdownsQuery} {bs : List ScoreBreakdown}
    {b : ScoreBreakdown} (h : validatorScoreBreakdowns iteration values cache query = .ok bs)
    (hb : b ∈ bs) :
    ∃ runs run score scoringRunId records, cache.scoringRuns = some runs ∧ run ∈ runs ∧
      run.scoringRunId = score.scoringRunId ∧
      (scoringRunId, records) ∈ (datedScores query cache.scores).entries ∧ score ∈ records ∧
      b = scoreBreakdown (((computeRunsMinEligScores iteration runs
        (datedScores query cache.scores)).get? run.scoringRunId).getD none) run score := by
  unfold validatorScoreBreakdowns at h
  cases hruns : cache.scoringRuns with
  | none =>
    rw [hruns] at h
    cases h
  | some runs =>
    rw [hruns] at h
    obtain rfl := Except.ok.inj h
    obtain ⟨score, hscore, hsome⟩ := List.mem_filterMap.mp hb
    obtain ⟨run, hfind, rfl⟩ := Option.map_eq_some_iff.mp hsome
    obtain ⟨⟨id, records⟩, hentry, hrecords⟩ := List.mem_flatMap.mp hscore
    rw [Scan.mem_order] at hentry
    obtain ⟨all, hall, hmem⟩ :
        ∃ all, (id, all) ∈ (datedScores query cache.scores).entries ∧ score ∈ all := by
      cases hvote : query.queryVoteAccount with
      | none =>
        rw [hvote] at hentry
        exact ⟨records, hentry, hrecords⟩
      | some voteAccount =>
        rw [hvote] at hentry
        obtain ⟨all, hall, rfl⟩ := mem_filterScores hentry
        exact ⟨all, hall, List.mem_of_mem_filter hrecords⟩
    exact ⟨runs, run, score, id, all, rfl, List.mem_of_find?_eq_some hfind,
      by simpa using List.find?_some hfind, hall, hmem, rfl⟩

/-- Every run has a bar, that of the records under its id. -/
theorem get?_computeRunsMinEligScores {iteration : Nat → Scan} {scoringRuns : List ScoringRunRow}
    {validatorScores : Dict Nat (List ValidatorScoreRecord)} {run : ScoringRunRow}
    (hrun : run ∈ scoringRuns) :
    (computeRunsMinEligScores iteration scoringRuns validatorScores).get? run.scoringRunId =
      some (minScoreEligibleAlgo (iteration run.scoringRunId)
        (scoringRunScores ((validatorScores.get? run.scoringRunId).getD []))) := by
  have hbars := Dict.get?_foldl_orInsert ScoringRunRow.scoringRunId
    (fun id => minScoreEligibleAlgo (iteration id)
      (scoringRunScores ((validatorScores.get? id).getD []))) scoringRuns run.scoringRunId
  rwa [if_pos (List.mem_map_of_mem hrun)] at hbars

/-! ## The bar of a run -/

/-- The scores that were enough for algorithmic stake. -/
def eligibleScores (records : List ValidatorScoreRecord) : List Rat :=
  (records.filter fun record => 0 < record.targetStakeAlgo).map ValidatorScoreRecord.score

/-- The records are the scores of distinct validators in a run. -/
structure ScoresOfRun (run : ScoringRunRow) (records : List ValidatorScoreRecord) : Prop where
  distinct : (records.map ValidatorScoreRecord.voteAccount).Nodup
  scoringRunId : ∀ record ∈ records, record.scoringRunId = run.scoringRunId
  createdAt : ∀ record ∈ records, record.createdAt = run.createdAt

/-- The caches of both endpoints have the records as those of the run. -/
structure Serves (run : ScoringRunRow) (records : List ValidatorScoreRecord)
    (single : CachedSingleRunScores) (multi : CachedMultiRunScores) : Prop where
  scoringRun : single.scoringRun = some run
  scores : single.scores.entries.Perm (records.map fun record => (record.voteAccount, record))
  scoringRuns : ∃ runs, multi.scoringRuns = some runs ∧ run ∈ runs
  multiScores : ((multi.scores.get? run.scoringRunId).getD []).Perm records
  keyed : ∀ entry ∈ multi.scores.entries, ∀ record ∈ entry.2, record.scoringRunId = entry.1

/-- What both endpoints report as the bar of the run is the least score that was enough,
whatever is asked and in whatever order the maps are iterated. -/
structure TrueBars (run : ScoringRunRow) (records : List ValidatorScoreRecord)
    (single : CachedSingleRunScores) (multi : CachedMultiRunScores) : Prop where
  scoreBreakdown : ∀ iteration voteAccount b,
    validatorScoreBreakdown iteration single voteAccount = .ok b →
      IsMinimum (eligibleScores records) b.minScoreEligibleAlgo
  scoreBreakdowns : ∀ iteration values query bs,
    validatorScoreBreakdowns iteration values multi query = .ok bs →
      ∀ b ∈ bs, b.scoringRunId = run.scoringRunId →
        IsMinimum (eligibleScores records) b.minScoreEligibleAlgo
  same : ∀ iteration voteAccount b iterations values query bs,
    validatorScoreBreakdown iteration single voteAccount = .ok b →
    validatorScoreBreakdowns iterations values multi query = .ok bs →
      ∀ b' ∈ bs, b'.scoringRunId = run.scoringRunId →
        b.minScoreEligibleAlgo = b'.minScoreEligibleAlgo

section Bars

variable {run : ScoringRunRow} {records : List ValidatorScoreRecord}
  {single : CachedSingleRunScores} {multi : CachedMultiRunScores}

/-- A map of the records has their eligible scores, in some order. -/
theorem perm_eligibleScores (iteration : Scan) {scores : Dict String ValidatorScoreRecord}
    (h : scores.entries.Perm (records.map fun record => (record.voteAccount, record))) :
    (((iteration.order scores.entries).filter fun entry => 0 < entry.2.targetStakeAlgo).map
      fun entry => entry.2.score).Perm (eligibleScores records) := by
  have hperm := (((iteration.perm scores.entries).trans h).filter fun entry =>
    decide (0 < entry.2.targetStakeAlgo)).map fun entry => entry.2.score
  refine hperm.trans (List.Perm.of_eq ?_)
  rw [List.filter_map, List.map_map]
  rfl

/-- If the least rounded scores agree, the bar is the minimum. -/
theorem isMinimum_minScoreEligibleAlgo
    (hagree : LeastAgree toFixedForSort (eligibleScores records)) (iteration : Scan)
    {scores : Dict String ValidatorScoreRecord}
    (h : scores.entries.Perm (records.map fun record => (record.voteAccount, record))) :
    IsMinimum (eligibleScores records) (minScoreEligibleAlgo iteration scores) :=
  isMinimum_argmin toFixedForSort_mono hagree (perm_eligibleScores iteration h)

theorem entries_scoringRunScores
    (h : (records.map ValidatorScoreRecord.voteAccount).Nodup) :
    (scoringRunScores records).entries =
      records.map fun record => (record.voteAccount, record) := by
  refine Dict.entries_ofList ?_
  rw [List.map_map]
  exact h

/-- The date of the query selects all records of a run or none. -/
theorem perm_datedScores {query : ScoreBreakdownsQuery} (hscores : ScoresOfRun run records)
    (hserves : Serves run records single multi) {rs : List ValidatorScoreRecord}
    {record : ValidatorScoreRecord} (hrs : (run.scoringRunId, rs) ∈
      (datedScores query multi.scores).entries) (hrecord : record ∈ rs) :
    (((datedScores query multi.scores).get? run.scoringRunId).getD []).Perm records := by
  unfold datedScores at hrs ⊢
  cases hdate : query.queryFromDate with
  | none => exact hserves.multiScores
  | some fromDate =>
    rw [hdate] at hrs
    obtain ⟨all, hall, rfl⟩ := mem_filterScores hrs
    have hget := Dict.get?_of_mem hall
    obtain ⟨hmem, hlater⟩ := List.mem_filter.mp hrecord
    have hperm := hserves.multiScores
    rw [hget] at hperm
    -- all records of the run have the date of the run
    have hrun : fromDate < run.createdAt := by
      rw [← hscores.createdAt record (hperm.subset hmem)]
      simpa using hlater
    show (((filterScores _ multi.scores).get? run.scoringRunId).getD []).Perm records
    rw [getD_filterScores, hget, Option.getD_some, List.filter_eq_self.mpr ?_]
    · exact hperm
    · intro r hr
      rw [hscores.createdAt r (hperm.subset hr)]
      simpa using hrun

/-- The bar in a breakdown of the run is computed from the records of the run. -/
theorem bar_of_mem_validatorScoreBreakdowns {iteration : Nat → Scan} {values : Scan}
    {query : ScoreBreakdownsQuery} {bs : List ScoreBreakdown} {b : ScoreBreakdown}
    (hscores : ScoresOfRun run records) (hserves : Serves run records single multi)
    (h : validatorScoreBreakdowns iteration values multi query = .ok bs) (hb : b ∈ bs)
    (hid : b.scoringRunId = run.scoringRunId) :
    ∃ scores : Dict String ValidatorScoreRecord,
      scores.entries.Perm (records.map fun record => (record.voteAccount, record)) ∧
      b.minScoreEligibleAlgo = minScoreEligibleAlgo (iteration run.scoringRunId) scores := by
  obtain ⟨runs, run', score, id, rs, hruns, hrun', hrunId, hrs, hscore, rfl⟩ :=
    mem_validatorScoreBreakdowns h hb
  obtain ⟨runs', hruns', hrun⟩ := hserves.scoringRuns
  obtain rfl : runs = runs' := Option.some.inj (hruns.symm.trans hruns')
  have hid' : run'.scoringRunId = run.scoringRunId := hrunId.trans hid
  -- the record comes from the list of its run
  obtain ⟨all, hall, hsub⟩ := mem_datedScores hrs
  obtain rfl : run.scoringRunId = id :=
    hid.symm.trans (hserves.keyed _ hall score (hsub score hscore))
  have hperm := perm_datedScores hscores hserves hrs hscore
  refine ⟨scoringRunScores (((datedScores query multi.scores).get? run.scoringRunId).getD []),
    ?_, ?_⟩
  · rw [entries_scoringRunScores ((hperm.map _).nodup_iff.mpr hscores.distinct)]
    exact hperm.map _
  · show Option.getD _ none = _
    rw [hid', get?_computeRunsMinEligScores hrun]
    rfl

/-- Caches that have the records and nothing else. -/
def singleRunScores (run : ScoringRunRow) (hscores : ScoresOfRun run records) :
    CachedSingleRunScores where
  scoringRun := some run
  scores :=
    { entries := records.map fun record => (record.voteAccount, record)
      nodup := by
        rw [List.map_map]
        exact hscores.distinct }

def multiRunScores (run : ScoringRunRow) (records : List ValidatorScoreRecord) :
    CachedMultiRunScores where
  scoringRuns := some [run]
  scores :=
    { entries := [(run.scoringRunId, records)]
      nodup := List.nodup_singleton _ }

theorem serves_singleRunScores (hscores : ScoresOfRun run records) :
    Serves run records (singleRunScores run hscores) (multiRunScores run records) where
  scoringRun := rfl
  scores := List.Perm.refl _
  scoringRuns := ⟨[run], rfl, List.mem_singleton_self _⟩
  multiScores := by
    have hget : (multiRunScores run records).scores.get? run.scoringRunId = some records :=
      Dict.get?_of_mem (List.mem_singleton_self _)
    rw [hget]
    exact List.Perm.refl _
  keyed := by
    intro entry hentry record hrecord
    obtain rfl := List.mem_singleton.mp hentry
    exact hscores.scoringRunId record hrecord

/-- **The bar is the minimum exactly if the least rounded scores agree**: over all caches
that have the records of a run, all requests and all orders of the hash maps. -/
theorem minScoreEligibleAlgo_iff (run : ScoringRunRow) (records : List ValidatorScoreRecord)
    (hscores : ScoresOfRun run records) :
    (∀ single multi, Serves run records single multi → TrueBars run records single multi) ↔
      LeastAgree toFixedForSort (eligibleScores records) := by
  constructor
  · intro h
    rw [leastAgree_iff toFixedForSort_mono]
    intro a ha hleast
    obtain ⟨record, hrecord, rfl⟩ := List.mem_map.mp ha
    obtain ⟨hmem, heligible⟩ := List.mem_filter.mp hrecord
    -- iterate over the map from this record on
    have hentry : (record.voteAccount, record) ∈ (singleRunScores run hscores).scores.entries :=
      List.mem_map.mpr ⟨record, hmem, rfl⟩
    obtain ⟨scan, rest, hscan⟩ := Scan.exists_order_cons hentry
    have hserves := serves_singleRunScores hscores
    have hbar := (h _ _ hserves).scoreBreakdown scan record.voteAccount _
      (validatorScoreBreakdown_eq_ok.mpr ⟨run, record, rfl, Dict.get?_of_mem hentry, rfl⟩)
    have hperm := perm_eligibleScores scan hserves.scores
    have hfirst : minScoreEligibleAlgo scan (singleRunScores run hscores).scores =
        some record.score := by
      rw [hscan, List.filter_cons_of_pos (by simpa using heligible), List.map_cons] at hperm
      unfold minScoreEligibleAlgo
      rw [hscan, List.filter_cons_of_pos (by simpa using heligible), List.map_cons]
      exact argmin_cons_of_le fun b hb =>
        hleast b (hperm.subset (List.mem_cons_of_mem _ hb))
    have hmin : IsMinimum (eligibleScores records) (some record.score) := hfirst ▸ hbar
    exact hmin.2
  · intro hagree single multi hserves
    have hsingle : ∀ iteration voteAccount b,
        validatorScoreBreakdown iteration single voteAccount = .ok b →
          IsMinimum (eligibleScores records) b.minScoreEligibleAlgo := by
      intro iteration voteAccount b hb
      obtain ⟨_, _, -, -, rfl⟩ := validatorScoreBreakdown_eq_ok.mp hb
      exact isMinimum_minScoreEligibleAlgo hagree iteration hserves.scores
    have hmulti : ∀ iteration values query bs,
        validatorScoreBreakdowns iteration values multi query = .ok bs →
          ∀ b ∈ bs, b.scoringRunId = run.scoringRunId →
            IsMinimum (eligibleScores records) b.minScoreEligibleAlgo := by
      intro iteration values query bs hbs b hb hid
      obtain ⟨scores, hperm, hbar⟩ :=
        bar_of_mem_validatorScoreBreakdowns hscores hserves hbs hb hid
      rw [hbar]
      exact isMinimum_minScoreEligibleAlgo hagree _ hperm
    refine ⟨hsingle, hmulti, ?_⟩
    intro iteration voteAccount b iterations values query bs hb hbs b' hb' hid
    exact (hsingle _ _ _ hb).unique (hmulti _ _ _ _ hbs b' hb' hid)

end Bars

/-! ### Loaded caches -/

section Loads

variable {scan scan' : Scan} {tables : ScoringTables} {scoringRunId : Nat}
  {scores : Dict String ValidatorScoreRecord} {all : Dict Nat (List ValidatorScoreRecord)}

/-- Where the scores of a run have distinct vote accounts, the load of the run and the load of
all runs have the same records of it. -/
theorem entries_perm_of_load (hload : loadScores scan tables scoringRunId = some scores)
    (hall : loadAllScores scan' tables = some all)
    (hdistinct : ((tables.scores.filter fun row => row.scoringRunId = scoringRunId).map
      ScoreRow.voteAccount).Nodup) :
    scores.entries.Perm (((all.get? scoringRunId).getD []).map fun record =>
      (record.voteAccount, record)) := by
  obtain ⟨hvotes, hrows⟩ := loadAllScores_run hall scoringRunId
  obtain ⟨hkeys, hentries⟩ := loadScores_eq_some hload
  have hinj : ∀ row ∈ tables.scores, row.scoringRunId = scoringRunId →
      ∀ row' ∈ tables.scores, row'.scoringRunId = scoringRunId →
        row.voteAccount = row'.voteAccount → row = row' := by
    intro row hrow hid row' hrow' hid' hvote
    exact List.inj_on_of_nodup_map hdistinct (List.mem_filter.mpr ⟨hrow, by simpa using hid⟩)
      (List.mem_filter.mpr ⟨hrow', by simpa using hid'⟩) hvote
  -- both lists have each record of the run once
  refine (List.perm_ext_iff_of_nodup (List.Nodup.of_map Prod.fst scores.nodup) ?_).mpr ?_
  · refine List.Nodup.of_map Prod.fst ?_
    rw [List.map_map]
    exact hvotes.nodup_iff.mpr hdistinct
  · rintro ⟨voteAccount, record⟩
    rw [List.mem_map]
    constructor
    · intro hentry
      obtain ⟨row, hrow, hid, hkey, hrec⟩ := hentries _ hentry
      obtain ⟨record', hrecord', hvote⟩ := List.mem_map.mp (hvotes.symm.subset
        (List.mem_map_of_mem (List.mem_filter.mpr ⟨hrow, by simpa using hid⟩)))
      obtain ⟨row', hrow', hid', hrec'⟩ := hrows record' hrecord'
      have hsame : row' = row := hinj row' hrow' hid' row hrow hid
        ((scoreRecord_eq_some hrec').1.symm.trans hvote)
      obtain rfl : record' = record := Option.some.inj (hrec'.symm.trans (hsame ▸ hrec))
      exact ⟨record', hrecord', Prod.ext (hvote.trans hkey.symm) rfl⟩
    · rintro ⟨record', hrecord', heq⟩
      obtain ⟨hvote, rfl⟩ := Prod.mk.inj heq
      obtain ⟨row, hrow, hid, hrec⟩ := hrows record' hrecord'
      have hkey : record'.voteAccount ∈ scores.keys :=
        (hkeys _).mpr ⟨row, hrow, hid, (scoreRecord_eq_some hrec).1.symm⟩
      obtain ⟨⟨_, record⟩, hentry, rfl⟩ := List.mem_map.mp hkey
      obtain ⟨row', hrow', hid', hkey', hrec'⟩ := hentries _ hentry
      have hsame : row' = row := hinj row' hrow' hid' row hrow hid
        (hkey'.symm.trans (scoreRecord_eq_some hrec).1)
      obtain rfl : record = record' := Option.some.inj (hrec'.symm.trans (hsame ▸ hrec))
      exact hvote ▸ hentry

/-- What the loaders read of the last run, from tables where its scores have distinct vote
accounts, are caches of this kind. -/
theorem serves_of_load {run : ScoringRunRow} (hlast : loadLastScoringRun tables = some run)
    (hload : loadScores scan tables run.scoringRunId = some scores)
    (hall : loadAllScores scan' tables = some all)
    (hdistinct : ((tables.scores.filter fun row => row.scoringRunId = run.scoringRunId).map
      ScoreRow.voteAccount).Nodup) :
    ∃ records, ScoresOfRun run records ∧
      Serves run records ⟨some run, scores⟩ ⟨some (loadScoringRuns tables), all⟩ := by
  have hrun : run ∈ tables.scoringRuns := List.argmax_mem hlast
  obtain ⟨hvotes, hrows⟩ := loadAllScores_run hall run.scoringRunId
  refine ⟨(all.get? run.scoringRunId).getD [], ⟨hvotes.nodup_iff.mpr hdistinct, ?_, ?_⟩, rfl,
    entries_perm_of_load hload hall hdistinct, ?_, List.Perm.refl _, ?_⟩
  · intro record hrecord
    obtain ⟨row, -, hid, hrec⟩ := hrows record hrecord
    exact (scoreRecord_eq_some hrec).2.trans hid
  · intro record hrecord
    obtain ⟨row, -, hid, hrec⟩ := hrows record hrecord
    obtain ⟨-, ⟨run', hfind, hcreated⟩, -⟩ := scoreRecord_eq_some_iff.mp hrec
    have hrun' := List.mem_of_find?_eq_some hfind
    have hid' : run'.scoringRunId = row.scoringRunId := by simpa using List.find?_some hfind
    rw [hcreated, List.inj_on_of_nodup_map tables.primaryKey hrun' hrun (hid'.trans hid)]
  · exact ⟨loadScoringRuns tables, rfl, (List.mem_insertionSort _).mpr hrun⟩
  · rintro ⟨id, records⟩ hentry record hrecord
    have hget := Dict.get?_of_mem hentry
    obtain ⟨row, -, hid, hrec⟩ := (loadAllScores_run hall id).2 record (by rw [hget]; exact hrecord)
    exact (scoreRecord_eq_some hrec).2.trans hid

end Loads

/-! ### Scores that agree to four decimals -/

/-- The record of an eligible validator in the run `1`. -/
def scoredRecord (voteAccount : String) (score : Rat) : ValidatorScoreRecord where
  voteAccount := voteAccount
  score := score
  rank := 1
  vemndeVotes := 0
  msolVotes := 0
  uiHints := []
  componentScores := [1, 1, 1]
  componentRanks := [1, 1, 1]
  componentValues := [none, none, none]
  eligibleStakeAlgo := true
  eligibleStakeVemnde := true
  eligibleStakeMsol := true
  targetStakeAlgo := 1000
  targetStakeVemnde := 0
  targetStakeMsol := 0
  scoringRunId := 1
  createdAt := 0

/-- Two validators with the given scores. -/
def twoRecords (score score' : Rat) : List ValidatorScoreRecord :=
  [scoredRecord "a" score, scoredRecord "b" score']

theorem scoresOfRun_twoRecords (score score' : Rat) :
    ScoresOfRun (scoringRun (singleUpload "a") 1) (twoRecords score score') where
  distinct := by
    show ["a", "b"].Nodup
    decide
  scoringRunId := by simp [twoRecords, scoredRecord, scoringRun]
  createdAt := by simp [twoRecords, scoredRecord, scoringRun, singleUpload]

/-- Scores that are told apart by four decimals. -/
theorem minScoreEligibleAlgo_iff_apart :
    LeastAgree toFixedForSort (eligibleScores (twoRecords (91 / 100) (9 / 10))) ∧
      ∀ single multi,
        Serves (scoringRun (singleUpload "a") 1) (twoRecords (91 / 100) (9 / 10)) single multi →
          TrueBars (scoringRun (singleUpload "a") 1) (twoRecords (91 / 100) (9 / 10)) single
            multi := by
  have hagree : LeastAgree toFixedForSort
      (eligibleScores (twoRecords (91 / 100) (9 / 10))) := by decide +kernel
  exact ⟨hagree, (minScoreEligibleAlgo_iff _ _ (scoresOfRun_twoRecords _ _)).mpr hagree⟩

/-- The first endpoint iterates from the first record on and reports its score, the second
one from the last record on: not the minimum, and not the same. -/
theorem minScoreEligibleAlgo_not_minimum :
    ∃ single multi,
      Serves (scoringRun (singleUpload "a") 1) (twoRecords (90004 / 100000) (90001 / 100000))
        single multi ∧
      (∃ b, validatorScoreBreakdown .sequential single "a" = .ok b ∧
        b.minScoreEligibleAlgo = some (90004 / 100000)) ∧
      (∃ bs, validatorScoreBreakdowns (fun _ => .reverse) .sequential multi ⟨none, none⟩ =
        .ok bs ∧ bs.map ScoreBreakdown.minScoreEligibleAlgo =
          [some (90001 / 100000), some (90001 / 100000)]) ∧
      ¬ TrueBars (scoringRun (singleUpload "a") 1)
        (twoRecords (90004 / 100000) (90001 / 100000)) single multi := by
  have hfirst : minScoreEligibleAlgo .sequential (singleRunScores _ (scoresOfRun_twoRecords
      (90004 / 100000) (90001 / 100000))).scores = some (90004 / 100000) := by decide +kernel
  refine ⟨_, _, serves_singleRunScores (scoresOfRun_twoRecords _ _), ⟨_, rfl, hfirst⟩,
    ⟨_, rfl, by decide +kernel⟩, fun h => ?_⟩
  have hbar : IsMinimum (eligibleScores (twoRecords (90004 / 100000) (90001 / 100000)))
      (some (90004 / 100000)) := hfirst ▸ h.scoreBreakdown .sequential "a" _ rfl
  have hle : (90004 / 100000 : Rat) ≤ 90001 / 100000 := hbar.2 _ (by decide +kernel)
  exact absurd hle (by decide +kernel)

end DelegationStrategy.Api
