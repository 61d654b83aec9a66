import DelegationStrategy.Api.ScoreBreakdowns

/-!
# The filters of the score breakdowns

The handler of `/validators/score-breakdowns` filters the records by date before it computes
the bars of the runs, and by vote account afterwards.

Nevertheless the filters only select (`breakdowns_filtered`): the records of a run have the
date of the run, so the first filter keeps all of them or none, and the bar of a run is the
same as without a filter, in any order of the maps.
-/

namespace DelegationStrategy.Api

open DelegationStrategy.Lib DelegationStrategy.Collect DelegationStrategy.Store

/-! ## The assumptions -/

/-- The records of a run, those under its id and those with its id, have the date of the
run. -/
def ShareDates (scoringRuns : List ScoringRunRow)
    (validatorScores : Dict Nat (List ValidatorScoreRecord)) : Prop :=
  ∀ run ∈ scoringRuns, ∀ e ∈ validatorScores.entries, ∀ record ∈ e.2,
    e.1 = run.scoringRunId ∨ record.scoringRunId = run.scoringRunId →
      record.createdAt = run.createdAt

/-- Distinct scores of a run that were enough for algorithmic stake stay distinct when
`to_fixed_for_sort` rounds them to four decimals. -/
def ScoresApart (validatorScores : Dict Nat (List ValidatorScoreRecord)) : Prop :=
  ∀ e ∈ validatorScores.entries, ∀ a ∈ eligibleScores e.2, ∀ b ∈ eligibleScores e.2,
    toFixedForSort a = toFixedForSort b → a = b

/-- The breakdown is asked for. -/
def ScoreBreakdownsQuery.selects (query : ScoreBreakdownsQuery) (createdAt : Timestamp)
    (voteAccount : String) : Bool :=
  (query.queryFromDate.all fun fromDate => decide (fromDate < createdAt)) &&
    query.queryVoteAccount.all fun asked => decide (voteAccount = asked)

/-! ## The records -/

section Records

variable {validatorScores : Dict Nat (List ValidatorScoreRecord)}

/-- The records of all runs. -/
def allRecords (validatorScores : Dict Nat (List ValidatorScoreRecord)) :
    List ValidatorScoreRecord :=
  validatorScores.entries.flatMap Prod.snd

theorem allRecords_filterScores (p : ValidatorScoreRecord → Bool) :
    allRecords (filterScores p validatorScores) = (allRecords validatorScores).filter p := by
  unfold allRecords filterScores Dict.filterMapVal
  dsimp only
  induction validatorScores.entries with
  | nil => rfl
  | cons e entries ih =>
    rw [List.flatMap_cons, List.filter_append, ← ih, List.filterMap_cons]
    by_cases hnil : e.2.filter p = []
    · rw [if_pos hnil, hnil]
      rfl
    · rw [if_neg hnil]
      rfl

/-- The records that the handler makes breakdowns of. -/
theorem allRecords_datedScores (query : ScoreBreakdownsQuery) :
    allRecords (match query.queryVoteAccount with
      | some voteAccount => filterScoresByVoteAccount voteAccount (datedScores query validatorScores)
      | none => datedScores query validatorScores) =
    (allRecords validatorScores).filter fun record =>
      query.selects record.createdAt record.voteAccount := by
  have hdated : allRecords (datedScores query validatorScores) =
      (allRecords validatorScores).filter fun record =>
        query.queryFromDate.all fun fromDate => decide (fromDate < record.createdAt) := by
    unfold datedScores
    cases query.queryFromDate with
    | none => simp
    | some fromDate => exact allRecords_filterScores _
  cases hvote : query.queryVoteAccount with
  | none =>
    rw [hdated]
    simp [ScoreBreakdownsQuery.selects, hvote]
  | some asked =>
    show allRecords (filterScores _ (datedScores query validatorScores)) = _
    rw [allRecords_filterScores, hdated, List.filter_filter]
    refine List.filter_congr fun record _ => ?_
    simp [ScoreBreakdownsQuery.selects, hvote, Bool.and_comm]

/-- The records of a run. -/
theorem mem_allRecords {scoringRunId : Nat} {record : ValidatorScoreRecord}
    (h : record ∈ (validatorScores.get? scoringRunId).getD []) :
    ∃ e ∈ validatorScores.entries, e.1 = scoringRunId ∧ record ∈ e.2 := by
  cases hget : validatorScores.get? scoringRunId with
  | none =>
    rw [hget] at h
    cases h
  | some records =>
    rw [hget] at h
    exact ⟨_, Dict.mem_of_get? hget, rfl, h⟩

end Records

/-! ## The bars -/

section Bars

variable {scoringRuns : List ScoringRunRow}
variable {validatorScores : Dict Nat (List ValidatorScoreRecord)}

/-- The bar of records whose scores are apart does not depend on the order. -/
theorem minScoreEligibleAlgo_order {records : List ValidatorScoreRecord}
    (hapart : ∀ a ∈ eligibleScores records, ∀ b ∈ eligibleScores records,
      toFixedForSort a = toFixedForSort b → a = b) (iteration iteration' : Scan) :
    minScoreEligibleAlgo iteration (scoringRunScores records) =
      minScoreEligibleAlgo iteration' (scoringRunScores records) := by
  let kept := (scoringRunScores records).entries.map Prod.snd
  have hkept : ∀ a ∈ eligibleScores kept, a ∈ eligibleScores records := by
    intro a ha
    obtain ⟨record, hrecord, rfl⟩ := List.mem_map.mp ha
    obtain ⟨hmem, heligible⟩ := List.mem_filter.mp hrecord
    obtain ⟨e, he, rfl⟩ := List.mem_map.mp hmem
    obtain ⟨record, hin, rfl⟩ := List.mem_map.mp (Dict.mem_of_mem_ofList he)
    exact List.mem_map.mpr ⟨record, List.mem_filter.mpr ⟨hin, heligible⟩, rfl⟩
  have hagree : LeastAgree toFixedForSort (eligibleScores kept) := fun a ha _ b hb hkey =>
    hapart b (hkept b hb) a (hkept a ha) hkey
  have hentries : (scoringRunScores records).entries =
      kept.map fun record => (record.voteAccount, record) := by
    rw [List.map_map]
    refine (List.map_id _).symm.trans (List.map_congr_left fun e he => ?_)
    obtain ⟨record, -, rfl⟩ := List.mem_map.mp (Dict.mem_of_mem_ofList he)
    rfl
  have hmin : ∀ iteration, IsMinimum (eligibleScores kept)
      (minScoreEligibleAlgo iteration (scoringRunScores records)) := fun iteration =>
    isMinimum_minScoreEligibleAlgo hagree iteration (List.Perm.of_eq hentries)
  exact (hmin iteration).unique (hmin iteration')

/-- **The filter by date** keeps all records of the run of a record that it keeps. -/
theorem get?_datedScores (hdates : ShareDates scoringRuns validatorScores)
    {query : ScoreBreakdownsQuery} {run : ScoringRunRow} (hrun : run ∈ scoringRuns)
    {record : ValidatorScoreRecord} (hrecord : record ∈ allRecords validatorScores)
    (hid : record.scoringRunId = run.scoringRunId)
    (hselects : query.selects record.createdAt record.voteAccount) :
    ((datedScores query validatorScores).get? run.scoringRunId).getD [] =
      (validatorScores.get? run.scoringRunId).getD [] := by
  unfold datedScores
  cases hdate : query.queryFromDate with
  | none => rfl
  | some fromDate =>
    have hlater : fromDate < run.createdAt := by
      obtain ⟨e, he, hmem⟩ := List.mem_flatMap.mp hrecord
      rw [← hdates run hrun e he record hmem (Or.inr hid)]
      simp only [ScoreBreakdownsQuery.selects, hdate, Option.all_some, Bool.and_eq_true,
        decide_eq_true_eq] at hselects
      exact hselects.1
    show ((filterScores _ validatorScores).get? run.scoringRunId).getD [] = _
    rw [getD_filterScores, List.filter_eq_self]
    intro other hother
    obtain ⟨e, he, hkey, hmem⟩ := mem_allRecords hother
    rw [hdates run hrun e he other hmem (Or.inl hkey)]
    exact decide_eq_true hlater

/-- The bar of the run of a record that is asked for. -/
theorem bar_datedScores (hdates : ShareDates scoringRuns validatorScores)
    (hapart : ScoresApart validatorScores) (iteration iteration' : Nat → Scan)
    {query : ScoreBreakdownsQuery} {run : ScoringRunRow} (hrun : run ∈ scoringRuns)
    {record : ValidatorScoreRecord} (hrecord : record ∈ allRecords validatorScores)
    (hid : record.scoringRunId = run.scoringRunId)
    (hselects : query.selects record.createdAt record.voteAccount) :
    (computeRunsMinEligScores iteration' scoringRuns (datedScores query validatorScores)).get?
        run.scoringRunId =
      (computeRunsMinEligScores iteration scoringRuns validatorScores).get? run.scoringRunId := by
  rw [get?_computeRunsMinEligScores hrun, get?_computeRunsMinEligScores hrun,
    get?_datedScores hdates hrun hrecord hid hselects]
  congr 1
  refine minScoreEligibleAlgo_order (fun a ha b hb => ?_) _ _
  obtain ⟨record, hrecord, -⟩ := List.mem_map.mp ha
  obtain ⟨e, he, hkey, -⟩ := mem_allRecords (List.mem_of_mem_filter hrecord)
  rw [← hkey, Dict.get?_of_mem he] at ha hb
  exact hapart e he a ha b hb

end Bars

/-! ## The breakdowns -/

section Breakdowns

variable {scoringRuns : List ScoringRunRow}
variable {validatorScores : Dict Nat (List ValidatorScoreRecord)}

/-- The breakdown of a record. -/
def breakdownOf (scoringRuns : List ScoringRunRow) (runsMinEligScores : Dict Nat (Option Rat))
    (score : ValidatorScoreRecord) : Option ScoreBreakdown :=
  (scoringRuns.find? fun s => s.scoringRunId = score.scoringRunId).map fun scoringRun =>
    scoreBreakdown ((runsMinEligScores.get? scoringRun.scoringRunId).getD none) scoringRun score

/-- Breakdowns can be filtered like their records. -/
theorem filter_breakdownOf (query : ScoreBreakdownsQuery)
    (runsMinEligScores : Dict Nat (Option Rat)) (records : List ValidatorScoreRecord) :
    (records.filterMap (breakdownOf scoringRuns runsMinEligScores)).filter
        (fun b => query.selects b.createdAt b.voteAccount) =
      (records.filter fun record => query.selects record.createdAt record.voteAccount).filterMap
        (breakdownOf scoringRuns runsMinEligScores) := by
  rw [List.filter_filterMap, List.filterMap_filter]
  refine List.filterMap_congr fun record _ => ?_
  unfold breakdownOf
  cases scoringRuns.find? fun s => s.scoringRunId = record.scoringRunId with
  | none => simp
  | some run =>
    show Option.filter _ (some _) = _
    rw [Option.filter_some]
    rfl

/-- The filters keep the breakdown of each record that is asked for. -/
theorem breakdownOf_datedScores (hdates : ShareDates scoringRuns validatorScores)
    (hapart : ScoresApart validatorScores) (iteration iteration' : Nat → Scan)
    {query : ScoreBreakdownsQuery} {record : ValidatorScoreRecord}
    (hrecord : record ∈ allRecords validatorScores)
    (hselects : query.selects record.createdAt record.voteAccount) :
    breakdownOf scoringRuns
        (computeRunsMinEligScores iteration' scoringRuns (datedScores query validatorScores))
        record =
      breakdownOf scoringRuns (computeRunsMinEligScores iteration scoringRuns validatorScores)
        record := by
  unfold breakdownOf
  cases hfind : scoringRuns.find? fun s => s.scoringRunId = record.scoringRunId with
  | none => rfl
  | some run =>
    have hid : run.scoringRunId = record.scoringRunId := by simpa using List.find?_some hfind
    rw [Option.map_some, Option.map_some, bar_datedScores hdates hapart iteration iteration'
      (List.mem_of_find?_eq_some hfind) hrecord hid.symm hselects]

/-- No `unwrap` of a bar fails, for any record. -/
def LookupsSucceed (scoringRuns : List ScoringRunRow)
    (runsMinEligScores : Dict Nat (Option Rat)) : Prop :=
  ∀ (score : ValidatorScoreRecord) (scoringRun : ScoringRunRow),
    (scoringRuns.find? fun s => s.scoringRunId = score.scoringRunId) = some scoringRun →
      (runsMinEligScores.get? scoringRun.scoringRunId).isSome

theorem lookupsSucceed (iteration : Nat → Scan) (scoringRuns : List ScoringRunRow)
    (validatorScores : Dict Nat (List ValidatorScoreRecord)) :
    LookupsSucceed scoringRuns
      (computeRunsMinEligScores iteration scoringRuns validatorScores) := by
  intro score run hfind
  rw [get?_computeRunsMinEligScores (List.mem_of_find?_eq_some hfind)]
  rfl

/-- **The filters only select**: in any orders of the maps, the breakdowns of a request are
those of a request without filters that are asked for, and no lookup of a bar fails. -/
theorem breakdowns_filtered (iteration iteration' : Nat → Scan) (values values' : Scan)
    (hdates : ShareDates scoringRuns validatorScores) (hapart : ScoresApart validatorScores)
    (query : ScoreBreakdownsQuery) :
    ∃ unfiltered filtered,
      validatorScoreBreakdowns iteration values ⟨some scoringRuns, validatorScores⟩ ⟨none, none⟩ =
        .ok unfiltered ∧
      validatorScoreBreakdowns iteration' values' ⟨some scoringRuns, validatorScores⟩ query =
        .ok filtered ∧
      filtered.Perm (unfiltered.filter fun b => query.selects b.createdAt b.voteAccount) ∧
      LookupsSucceed scoringRuns (computeRunsMinEligScores iteration' scoringRuns
        (datedScores query validatorScores)) := by
  refine ⟨_, _, rfl, rfl, ?_, lookupsSucceed _ _ _⟩
  have hunfiltered := (values.perm validatorScores.entries).flatMap_right Prod.snd
  have hfiltered := (values'.perm (match query.queryVoteAccount with
    | some voteAccount => filterScoresByVoteAccount voteAccount (datedScores query validatorScores)
    | none => datedScores query validatorScores).entries).flatMap_right Prod.snd
  have hselected := @allRecords_datedScores validatorScores query
  have hsame : ((allRecords validatorScores).filter fun record =>
        query.selects record.createdAt record.voteAccount).filterMap (breakdownOf scoringRuns
          (computeRunsMinEligScores iteration' scoringRuns (datedScores query validatorScores))) =
      ((allRecords validatorScores).filter fun record =>
        query.selects record.createdAt record.voteAccount).filterMap (breakdownOf scoringRuns
          (computeRunsMinEligScores iteration scoringRuns validatorScores)) := by
    refine List.filterMap_congr fun record hrecord => ?_
    obtain ⟨hmem, hselects⟩ := List.mem_filter.mp hrecord
    exact breakdownOf_datedScores hdates hapart iteration iteration' hmem hselects
  have hleft := hfiltered.filterMap (breakdownOf scoringRuns
    (computeRunsMinEligScores iteration' scoringRuns (datedScores query validatorScores)))
  have hright := (hunfiltered.filterMap (breakdownOf scoringRuns
    (computeRunsMinEligScores iteration scoringRuns validatorScores))).filter
      fun b => query.selects b.createdAt b.voteAccount
  refine hleft.trans (List.Perm.trans (List.Perm.of_eq ?_) hright.symm)
  rw [filter_breakdownOf, ← allRecords, ← allRecords, hselected, hsame]

end Breakdowns

/-! ### Loaded scores -/

/-- The records that are loaded have the dates of their runs. -/
theorem shareDates_of_load {scan : Scan} {tables : ScoringTables}
    {all : Dict Nat (List ValidatorScoreRecord)} (hall : loadAllScores scan tables = some all) :
    ShareDates (loadScoringRuns tables) all := by
  rintro run hrun ⟨id, records⟩ hentry record hrecord hof
  have hget := Dict.get?_of_mem hentry
  obtain ⟨row, -, hid, hrec⟩ := (loadAllScores_run hall id).2 record (by rw [hget]; exact hrecord)
  have hrecordId : record.scoringRunId = id := (scoreRecord_eq_some hrec).2.trans hid
  have hrunId : run.scoringRunId = row.scoringRunId := by
    rcases hof with hkey | hown
    · exact hkey.symm.trans hid.symm
    · exact hown.symm.trans (hrecordId.trans hid.symm)
  obtain ⟨-, ⟨run', hfind, hcreated⟩, -⟩ := scoreRecord_eq_some_iff.mp hrec
  have hrun' := List.mem_of_find?_eq_some hfind
  have hrunId' : run'.scoringRunId = row.scoringRunId := by simpa using List.find?_some hfind
  rw [hcreated, List.inj_on_of_nodup_map tables.primaryKey hrun'
    ((List.mem_insertionSort _).mp hrun) (hrunId'.trans hrunId.symm)]

/-- Two runs at the dates 0 and 10. -/
def datedRuns : List ScoringRunRow :=
  [{ scoringRun (singleUpload "a") 2 with createdAt := 10 },
    { scoringRun (singleUpload "a") 1 with createdAt := 0 }]

/-- The scores of two validators in both runs. -/
def datedRunScores : Dict Nat (List ValidatorScoreRecord) :=
  ⟨[(1, twoRecords (91 / 100) (9 / 10)),
    (2, (twoRecords (8 / 10) (7 / 10)).map fun record =>
      { record with scoringRunId := 2, createdAt := 10 })], by decide⟩

/-- The scores of "a" after the date 5, in maps of opposite orders. -/
theorem breakdowns_filtered_dated : ∃ unfiltered filtered,
    validatorScoreBreakdowns (fun _ => .sequential) .sequential ⟨some datedRuns, datedRunScores⟩
      ⟨none, none⟩ = .ok unfiltered ∧
    validatorScoreBreakdowns (fun _ => .reverse) .reverse ⟨some datedRuns, datedRunScores⟩
      ⟨some 5, some "a"⟩ = .ok filtered ∧
    filtered.Perm (unfiltered.filter fun b =>
      (ScoreBreakdownsQuery.mk (some 5) (some "a")).selects b.createdAt b.voteAccount) ∧
    LookupsSucceed datedRuns (computeRunsMinEligScores (fun _ => .reverse) datedRuns
      (datedScores ⟨some 5, some "a"⟩ datedRunScores)) := by
  have hdates : ShareDates datedRuns datedRunScores := by
    unfold ShareDates
    decide
  have hapart : ScoresApart datedRunScores := by
    unfold ScoresApart
    decide +kernel
  exact breakdowns_filtered _ _ _ _ hdates hapart _

end DelegationStrategy.Api
