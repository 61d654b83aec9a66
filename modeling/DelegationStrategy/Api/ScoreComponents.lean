import DelegationStrategy.Api.ScoreBreakdowns

/-!
# The components of a score

A score is shown with the names of its components, which the upload gives
(`api/src/handlers/admin_score_upload.rs`), and with three arrays: the score of each
component, its rank and its value. `store_scoring` (`store/src/utils.rs`) lays the values out
as the upload names them, the scores and ranks always in the order `componentNames`. The
arrays belong to the names exactly if the upload gives the names in that order, whatever
unknown names it adds behind them (`aligned_iff`).
-/

namespace DelegationStrategy.Api

open DelegationStrategy.Lib DelegationStrategy.Collect DelegationStrategy.Store

/-- The names of the components, in the order in which scores and ranks are stored. -/
def componentNames : List String :=
  ["COMMISSION_ADJUSTED_CREDITS", "GRACE_SKIP_RATE", "DC_CONCENTRATION"]

/-- What belongs to a component, nothing for an unknown name. -/
def ofComponent {α : Type} (adjustedCredits graceSkipRate dcConcentration : α)
    (component : String) : Option α :=
  if component = "COMMISSION_ADJUSTED_CREDITS" then some adjustedCredits
  else if component = "GRACE_SKIP_RATE" then some graceSkipRate
  else if component = "DC_CONCENTRATION" then some dcConcentration
  else none

def componentScore (row : ValidatorScoringCsvRow) : String → Option Rat :=
  ofComponent row.normalizedAdjustedCredits row.normalizedGraceSkipRate
    row.normalizedDcConcentration

def componentRank (row : ValidatorScoringCsvRow) : String → Option Int :=
  ofComponent row.rankAdjustedCredits row.rankGraceSkipRate row.rankDcConcentration

def componentValue (f64ToString : Rat → String) (row : ValidatorScoringCsvRow) :
    String → Option String :=
  ofComponent (f64ToString row.avgAdjustedCredits) (f64ToString row.avgGraceSkipRate)
    (f64ToString row.avgDcConcentration)

/-- Under every name stand the score, the rank and the value of its component. -/
structure Aligned (f64ToString : Rat → String) (components : List String)
    (row : ValidatorScoringCsvRow) (componentScores : List Rat) (componentRanks : List Int)
    (componentValues : List (Option String)) : Prop where
  scores : ∀ (i : Nat) component, components[i]? = some component →
    componentScores[i]? = componentScore row component
  ranks : ∀ (i : Nat) component, components[i]? = some component →
    componentRanks[i]? = componentRank row component
  values : ∀ (i : Nat) component, components[i]? = some component →
    componentValues[i]? = some (componentValue f64ToString row component)

/-- Every name stands where the scores and ranks of its component do, an unknown name behind
all of them. -/
def InPlace (components : List String) : Prop :=
  ∀ (i : Nat) component, components[i]? = some component →
    componentNames[i]? = if component ∈ componentNames then some component else none

/-- The scores of an upload, stored and served: the rows of the new run, and the breakdowns
that either handler makes of them, are aligned with the names of the run. -/
structure StoredAligned (f64ToString : Rat → String) (upload : ScoringUpload)
    (scoringRunId : Nat) (tables : ScoringTables) : Prop where
  rows : ∀ row ∈ tables.scores, row.scoringRunId = scoringRunId →
    ∃ csv ∈ upload.scores, csv.voteAccount = row.voteAccount ∧
      Aligned f64ToString upload.components csv row.componentScores row.componentRanks
        row.componentValues
  scoreBreakdown : ∀ scan scores, loadScores scan tables scoringRunId = some scores →
    ∀ iteration voteAccount b, validatorScoreBreakdown iteration
        ⟨some (scoringRun upload scoringRunId), scores⟩ voteAccount = .ok b →
      ∃ csv ∈ upload.scores, csv.voteAccount = b.voteAccount ∧
        Aligned f64ToString b.components csv b.componentScores b.componentRanks
          b.componentValues
  scoreBreakdowns : ∀ scan all, loadAllScores scan tables = some all →
    ∀ iteration values query bs, validatorScoreBreakdowns iteration values
        ⟨some (loadScoringRuns tables), all⟩ query = .ok bs →
      ∀ b ∈ bs, b.scoringRunId = scoringRunId →
        ∃ csv ∈ upload.scores, csv.voteAccount = b.voteAccount ∧
          Aligned f64ToString b.components csv b.componentScores b.componentRanks
            b.componentValues

/-! ## Names in place -/

section InPlace

variable {f64ToString : Rat → String} {components : List String}

/-- The fixed order, in terms of its names. -/
theorem getElem?_eq_bind {α : Type} (a b c : α) (i : Nat) :
    [a, b, c][i]? = componentNames[i]?.bind (ofComponent a b c) := by
  match i with
  | 0 | 1 | 2 => rfl
  | i + 3 => rfl

theorem ofComponent_eq_none_iff {α : Type} {a b c : α} {component : String} :
    ofComponent a b c component = none ↔ component ∉ componentNames := by
  unfold ofComponent
  simp only [componentNames, List.mem_cons, List.not_mem_nil, or_false, not_or]
  split <;> [skip; split <;> [skip; split]] <;> simp_all

/-- Where the names are in place, the fixed order has at each place what belongs to the name. -/
theorem InPlace.getElem?_eq {α : Type} (h : InPlace components) (a b c : α) {i : Nat}
    {component : String} (hi : components[i]? = some component) :
    [a, b, c][i]? = ofComponent a b c component := by
  rw [getElem?_eq_bind, h i component hi]
  by_cases hknown : component ∈ componentNames
  · rw [if_pos hknown]
    rfl
  · rw [if_neg hknown]
    exact (ofComponent_eq_none_iff.mpr hknown).symm

theorem InPlace.aligned (h : InPlace components) (row : ValidatorScoringCsvRow) :
    Aligned f64ToString components row
      [row.normalizedAdjustedCredits, row.normalizedGraceSkipRate, row.normalizedDcConcentration]
      [row.rankAdjustedCredits, row.rankGraceSkipRate, row.rankDcConcentration]
      (mapToOrderedComponentValues f64ToString components row) where
  scores _ _ hi := h.getElem?_eq _ _ _ hi
  ranks _ _ hi := h.getElem?_eq _ _ _ hi
  values i component hi := by
    show (components.map (componentValue f64ToString row))[i]? = _
    rw [List.getElem?_map, hi]
    rfl

/-- Distinct scores tell the components apart. -/
theorem eq_of_ofComponent_eq {component component' : String} (hknown : component ∈ componentNames)
    (h : ofComponent (1 : Rat) 2 3 component = ofComponent 1 2 3 component') :
    component = component' := by
  have hknown' : component' ∈ componentNames := by
    by_contra hunknown
    rw [ofComponent_eq_none_iff.mpr hunknown, ofComponent_eq_none_iff] at h
    exact h hknown
  simp only [componentNames, List.mem_cons, List.not_mem_nil, or_false] at hknown hknown'
  rcases hknown with rfl | rfl | rfl <;> rcases hknown' with rfl | rfl | rfl <;>
    first | rfl | exact absurd h (by decide)

/-- Scores that tell the components apart are under the right names only if the names are in
place. -/
theorem inPlace_of_scores
    (h : ∀ (i : Nat) component, components[i]? = some component →
      [1, 2, 3][i]? = ofComponent (1 : Rat) 2 3 component) : InPlace components := by
  intro i component hi
  have hscore := h i component hi
  rw [getElem?_eq_bind] at hscore
  cases hname : componentNames[i]? with
  | none =>
    rw [hname] at hscore
    rw [if_neg (ofComponent_eq_none_iff.mp hscore.symm)]
  | some name =>
    rw [hname] at hscore
    have hknown : name ∈ componentNames := List.mem_of_getElem? hname
    obtain rfl := eq_of_ofComponent_eq hknown hscore
    rw [if_pos hknown]

end InPlace

/-! ## What is stored and served -/

section Stored

variable {f64ToString : Rat → String} {upload : ScoringUpload} {tables : ScoringTables}

/-- A stored row of the new run is that of an uploaded one. -/
theorem exists_scoreRow (fault : Nat → Option DbError) {row : ScoreRow}
    (hrow : row ∈ (storeScoring f64ToString fault upload tables).1.scores)
    (hrun : row.scoringRunId = tables.nextScoringRunId) :
    (storeScoring f64ToString fault upload tables).1.scoringRuns =
        tables.scoringRuns ++ [scoringRun upload tables.nextScoringRunId] ∧
      ∃ csv ∈ upload.scores, ∃ scoreId,
        row = scoreRow f64ToString upload tables.nextScoringRunId scoreId csv := by
  rcases storeScoring_cases f64ToString fault upload tables with
    ⟨-, hsame⟩ | ⟨-, count, hruns, hscores⟩
  · rw [hsame] at hrow
    exact absurd hrun (tables.scoringRunId_lt hrow).ne
  · obtain ⟨⟨csv, scoreId⟩, hcsv, rfl⟩ :=
      List.mem_map.mp ((mem_scores_of_next hscores).mp ⟨hrow, hrun⟩)
    exact ⟨hruns, csv, List.mem_of_mem_take (List.fst_mem_of_mem_zipIdx hcsv), scoreId, rfl⟩

theorem scoreRow_aligned {scoringRunId scoreId : Nat} {csv : ValidatorScoringCsvRow}
    (hplace : InPlace upload.components)
    (hdistinct : (upload.scores.map ValidatorScoringCsvRow.voteAccount).Nodup)
    (hcsv : csv ∈ upload.scores) {row : ScoreRow}
    (hrow : row = scoreRow f64ToString upload scoringRunId scoreId csv) :
    Aligned f64ToString upload.components csv row.componentScores row.componentRanks
      row.componentValues := by
  have haligned : Aligned f64ToString upload.components csv _ _ _ := hplace.aligned csv
  subst hrow
  unfold scoreRow
  dsimp only
  rw [lookup_of_mem _ hdistinct hcsv, lookup_of_mem _ hdistinct hcsv,
    lookup_of_mem _ hdistinct hcsv]
  exact haligned

/-- **With the names in place everything stays aligned**, on the way into the tables and out
of the endpoints. -/
theorem storedAligned (hplace : InPlace upload.components)
    (hdistinct : (upload.scores.map ValidatorScoringCsvRow.voteAccount).Nodup)
    (fault : Nat → Option DbError) :
    StoredAligned f64ToString upload tables.nextScoringRunId
      (storeScoring f64ToString fault upload tables).1 := by
  have hrows : ∀ row ∈ (storeScoring f64ToString fault upload tables).1.scores,
      row.scoringRunId = tables.nextScoringRunId →
        ∃ csv ∈ upload.scores, csv.voteAccount = row.voteAccount ∧
          Aligned f64ToString upload.components csv row.componentScores row.componentRanks
            row.componentValues := by
    intro row hrow hrun
    obtain ⟨-, csv, hcsv, scoreId, heq⟩ := exists_scoreRow fault hrow hrun
    exact ⟨csv, hcsv, by rw [heq]; rfl, scoreRow_aligned hplace hdistinct hcsv heq⟩
  -- a record has the arrays of its row
  have hrecords : ∀ row ∈ (storeScoring f64ToString fault upload tables).1.scores,
      row.scoringRunId = tables.nextScoringRunId → ∀ record,
        scoreRecord (storeScoring f64ToString fault upload tables).1 row = some record →
        ∃ csv ∈ upload.scores, csv.voteAccount = record.voteAccount ∧
          Aligned f64ToString upload.components csv record.componentScores
            record.componentRanks record.componentValues := by
    intro row hrow hrun record hrec
    obtain ⟨csv, hcsv, hvote, haligned⟩ := hrows row hrow hrun
    obtain ⟨-, -, hvote', -, -, -, hscores, hranks, hvalues, -⟩ := scoreRecord_eq_some_iff.mp hrec
    rw [hscores, hranks, hvalues, hvote']
    exact ⟨csv, hcsv, hvote, haligned⟩
  refine ⟨hrows, ?_, ?_⟩
  · intro scan scores hload iteration voteAccount b hb
    obtain ⟨run, record, hrun, hrecord, rfl⟩ := validatorScoreBreakdown_eq_ok.mp hb
    obtain rfl := Option.some.inj hrun
    obtain ⟨row, hrow, hid, -, hrec⟩ :=
      (loadScores_eq_some hload).2 _ (Dict.mem_of_get? hrecord)
    exact hrecords row hrow hid record hrec
  · intro scan all hall iteration values query bs hbs b hb hid
    obtain ⟨runs, run, record, id, records, hruns, hrun, hrunId, hentry, hrecord, rfl⟩ :=
      mem_validatorScoreBreakdowns hbs hb
    obtain ⟨loaded, hloaded, hsub⟩ := mem_datedScores hentry
    have hget := Dict.get?_of_mem hloaded
    obtain ⟨row, hrow, hrowId, hrec⟩ := (loadAllScores_run hall id).2 record (by
      rw [hget]
      exact hsub record hrecord)
    have hnew : row.scoringRunId = tables.nextScoringRunId :=
      (scoreRecord_eq_some hrec).2.symm.trans hid
    -- the run of the breakdown is the new one
    obtain ⟨hscoringRuns, -⟩ := exists_scoreRow fault hrow hnew
    obtain rfl := Option.some.inj hruns
    have hmem := (List.mem_insertionSort _).mp hrun
    have hlast : scoringRun upload tables.nextScoringRunId ∈
        (storeScoring f64ToString fault upload tables).1.scoringRuns := by
      rw [hscoringRuns]
      exact List.mem_append_right _ (List.mem_singleton_self _)
    obtain rfl := List.inj_on_of_nodup_map
      (storeScoring f64ToString fault upload tables).1.primaryKey hmem hlast
      (hrunId.trans hid)
    exact hrecords row hrow hnew record hrec

end Stored

/-- An upload of one row whose scores and ranks are told apart. -/
def probeUpload (components : List String) : ScoringUpload :=
  { singleUpload "vote" with
    components := components
    scores := (singleUpload "vote").scores.map fun row =>
      { row with
        normalizedAdjustedCredits := 1
        normalizedGraceSkipRate := 2
        normalizedDcConcentration := 3
        rankAdjustedCredits := 1
        rankGraceSkipRate := 2
        rankDcConcentration := 3 } }

theorem distinct_probeUpload (components : List String) :
    ((probeUpload components).scores.map ValidatorScoringCsvRow.voteAccount).Nodup :=
  List.nodup_singleton _

/-- The row that is stored for it. -/
theorem scores_probeUpload (f64ToString : Rat → String) (components : List String) :
    ∃ row ∈ (storeScoring f64ToString (fun _ => none) (probeUpload components) .empty).1.scores,
      row.scoringRunId = ScoringTables.empty.nextScoringRunId ∧
      row.componentScores = [1, 2, 3] :=
  ⟨_, List.mem_singleton_self _, rfl, rfl⟩

/-- **Which lists of names keep the components aligned**: whatever is uploaded under the
names, all of it is aligned exactly if the names are in place, and no score or rank is
without a name exactly if there are at least three names. -/
theorem aligned_iff (f64ToString : Rat → String) (components : List String) :
    ((∀ (upload : ScoringUpload) (tables : ScoringTables) (fault : Nat → Option DbError),
        upload.components = components →
        (upload.scores.map ValidatorScoringCsvRow.voteAccount).Nodup →
        StoredAligned f64ToString upload tables.nextScoringRunId
          (storeScoring f64ToString fault upload tables).1) ↔ InPlace components) ∧
    ((∀ (upload : ScoringUpload) (tables : ScoringTables) (fault : Nat → Option DbError),
        upload.components = components →
        (upload.scores.map ValidatorScoringCsvRow.voteAccount).Nodup →
        ∀ row ∈ (storeScoring f64ToString fault upload tables).1.scores,
          row.scoringRunId = tables.nextScoringRunId →
            row.componentScores.length ≤ components.length ∧
              row.componentRanks.length ≤ components.length) ↔ 3 ≤ components.length) := by
  obtain ⟨row, hrow, hid, hscores⟩ := scores_probeUpload f64ToString components
  refine ⟨⟨fun h => ?_, fun hplace upload tables fault heq hdistinct => ?_⟩,
    ⟨fun h => ?_, fun hlen upload tables fault heq hdistinct row hrow hid => ?_⟩⟩
  · have hstored := h (probeUpload components) .empty (fun _ => none) rfl
      (distinct_probeUpload components)
    obtain ⟨csv, hcsv, -, haligned⟩ := hstored.rows row hrow hid
    obtain rfl := List.mem_singleton.mp hcsv
    refine inPlace_of_scores fun i component hi => ?_
    rw [← hscores]
    exact haligned.scores i component hi
  · exact storedAligned (heq ▸ hplace) hdistinct fault
  · have hlen := (h (probeUpload components) .empty (fun _ => none) rfl
      (distinct_probeUpload components) row hrow hid).1
    rwa [hscores] at hlen
  · obtain ⟨-, csv, hcsv, scoreId, rfl⟩ := exists_scoreRow fault hrow hid
    unfold scoreRow
    dsimp only
    rw [lookup_of_mem _ hdistinct hcsv, lookup_of_mem _ hdistinct hcsv]
    exact ⟨hlen, hlen⟩

/-- The score of the commission adjusted credits stands under the name of the skip rate. -/
theorem components_not_aligned :
    ∃ (upload : ScoringUpload) (row : ScoreRow),
      upload.components = ["GRACE_SKIP_RATE", "COMMISSION_ADJUSTED_CREDITS", "DC_CONCENTRATION"] ∧
      (upload.scores.map ValidatorScoringCsvRow.voteAccount).Nodup ∧
      row ∈ (storeScoring (fun _ => "0") (fun _ => none) upload .empty).1.scores ∧
      row.scoringRunId = ScoringTables.empty.nextScoringRunId ∧
      ∀ csv ∈ upload.scores, ¬ Aligned (fun _ => "0") upload.components csv row.componentScores
        row.componentRanks row.componentValues := by
  obtain ⟨row, hrow, hid, hscores⟩ := scores_probeUpload (fun _ => "0")
    ["GRACE_SKIP_RATE", "COMMISSION_ADJUSTED_CREDITS", "DC_CONCENTRATION"]
  refine ⟨probeUpload _, row, rfl, distinct_probeUpload _, hrow, hid, fun csv hcsv haligned => ?_⟩
  obtain rfl := List.mem_singleton.mp hcsv
  have hfirst := haligned.scores 0 "GRACE_SKIP_RATE" rfl
  rw [hscores] at hfirst
  exact absurd hfirst (by decide)

end DelegationStrategy.Api
