import DelegationStrategy.Store.Scoring
import Mathlib.Algebra.Order.Floor.Ring
import Mathlib.Data.Rat.Floor

/-!
# Scores, uploaded and loaded

An uploaded row has five decimals: the two kinds of votes and the three target stakes.
The columns are `NUMERIC` and keep any of them, but the records of both readers have
`u64`. So a fraction is lost on the way back, and for a decimal that is no `u64` at all
`load_scores` panics and `load_all_scores` returns an error, for the rows of whatever
upload it is.

The rest of a row survives: the maps by vote account of `store_scoring`, the order of
the rows and the maps of the readers (`agrees_of_scoreRecord`).
-/

namespace DelegationStrategy.Store

open DelegationStrategy.Lib

/-! ## Decimals -/

/-- The columns of a row that are `Decimal` in the CSV and `u64` in the record. -/
def ValidatorScoringCsvRow.decimals (row : ValidatorScoringCsvRow) : List Rat :=
  [row.vemndeVotes, row.msolVotes, row.targetStakeAlgo, row.targetStakeVemnde,
    row.targetStakeMsol]

def ScoreRow.decimals (row : ScoreRow) : List Rat :=
  [row.vemndeVotes, row.msolVotes, row.targetStakeAlgo, row.targetStakeVemnde,
    row.targetStakeMsol]

def ValidatorScoreRecord.decimals (record : ValidatorScoreRecord) : List Nat :=
  [record.vemndeVotes, record.msolVotes, record.targetStakeAlgo, record.targetStakeVemnde,
    record.targetStakeMsol]

/-- The decimal is a `u64`. -/
def IsU64 (a : Rat) : Prop := ∃ n : Nat, n < 2 ^ 64 ∧ a = n

/-- The decimal is one up to a fraction. -/
def FitsU64 (a : Rat) : Prop := 0 ≤ a ∧ a < 2 ^ 64

theorem IsU64.fits {a : Rat} (h : IsU64 a) : FitsU64 a := by
  obtain ⟨n, hn, rfl⟩ := h
  exact ⟨Nat.cast_nonneg n, by exact_mod_cast hn⟩

theorem isSome_decimalToU64 {a : Rat} : (decimalToU64 a).isSome ↔ FitsU64 a := by
  have hfloor : 0 ≤ a → (a.floor.toNat < 2 ^ 64 ↔ a < 2 ^ 64) := by
    intro hnonneg
    have hpos : 0 ≤ a.floor := Rat.le_floor_iff.mpr (by exact_mod_cast hnonneg)
    have hlt : a.floor < 2 ^ 64 ↔ a < ((2 ^ 64 : Int) : Rat) := Rat.floor_lt_iff
    rw [show ((2 ^ 64 : Int) : Rat) = 2 ^ 64 by norm_num] at hlt
    rw [← hlt]
    omega
  unfold decimalToU64 FitsU64
  constructor
  · intro h
    by_cases hfits : 0 ≤ a ∧ a.floor.toNat < 2 ^ 64
    · exact ⟨hfits.1, (hfloor hfits.1).mp hfits.2⟩
    · rw [if_neg hfits] at h
      cases h
  · rintro ⟨hnonneg, hlt⟩
    rw [if_pos ⟨hnonneg, (hfloor hnonneg).mpr hlt⟩]
    rfl

/-- What a conversion returns is a `u64`. -/
theorem lt_of_decimalToU64 {a : Rat} {n : Nat} (h : decimalToU64 a = some n) : n < 2 ^ 64 := by
  unfold decimalToU64 at h
  by_cases hfits : 0 ≤ a ∧ a.floor.toNat < 2 ^ 64
  · rw [if_pos hfits] at h
    exact Option.some.inj h ▸ hfits.2
  · rw [if_neg hfits] at h
    cases h

/-! ## One record -/

section Record

variable {tables : ScoringTables} {row : ScoreRow} {record : ValidatorScoreRecord}

/-- A record has the columns of its row, the decimals as far as they are a `u64`. -/
theorem scoreRecord_eq_some_iff :
    scoreRecord tables row = some record ↔
      row.decimals.map decimalToU64 = record.decimals.map some ∧
      (∃ run, tables.scoringRuns.find? (fun run => run.scoringRunId = row.scoringRunId) =
        some run ∧ record.createdAt = run.createdAt) ∧
      record.voteAccount = row.voteAccount ∧ record.score = row.score ∧
      record.rank = row.rank ∧ record.uiHints = row.uiHints ∧
      record.componentScores = row.componentScores ∧
      record.componentRanks = row.componentRanks ∧
      record.componentValues = row.componentValues ∧
      record.eligibleStakeAlgo = row.eligibleStakeAlgo ∧
      record.eligibleStakeVemnde = row.eligibleStakeVemnde ∧
      record.eligibleStakeMsol = row.eligibleStakeMsol ∧
      record.scoringRunId = row.scoringRunId := by
  unfold scoreRecord
  simp only [Option.bind_eq_bind, Option.bind_eq_some_iff]
  constructor
  · rintro ⟨a, ha, b, hb, c, hc, d, hd, e, he, run, hrun, h⟩
    obtain rfl := Option.some.inj h
    exact ⟨by simp [ScoreRow.decimals, ValidatorScoreRecord.decimals, ha, hb, hc, hd, he],
      ⟨run, hrun, rfl⟩, rfl, rfl, rfl, rfl, rfl, rfl, rfl, rfl, rfl, rfl, rfl⟩
  · rintro ⟨hdecimals, ⟨run, hrun, hcreated⟩, h⟩
    simp only [ScoreRow.decimals, ValidatorScoreRecord.decimals, List.map_cons, List.map_nil,
      List.cons.injEq, and_true] at hdecimals
    obtain ⟨ha, hb, hc, hd, he⟩ := hdecimals
    refine ⟨_, ha, _, hb, _, hc, _, hd, _, he, run, hrun, ?_⟩
    cases record
    simp_all

/-- A row of the tables can be read exactly if its decimals fit. -/
theorem isSome_scoreRecord (hrow : row ∈ tables.scores) :
    (scoreRecord tables row).isSome ↔ ∀ a ∈ row.decimals, FitsU64 a := by
  constructor
  · intro h a ha
    obtain ⟨record, hrecord⟩ := Option.isSome_iff_exists.mp h
    have hmap := (scoreRecord_eq_some_iff.mp hrecord).1
    have hmem : decimalToU64 a ∈ record.decimals.map some := by
      rw [← hmap]
      exact List.mem_map_of_mem ha
    obtain ⟨n, -, hn⟩ := List.mem_map.mp hmem
    rw [← isSome_decimalToU64, ← hn]
    rfl
  · intro h
    -- the foreign key finds the run
    obtain ⟨run, hrun, hid⟩ := List.mem_map.mp (tables.foreignKey row hrow)
    have hfind : (tables.scoringRuns.find? fun run =>
        run.scoringRunId = row.scoringRunId).isSome :=
      List.find?_isSome.mpr ⟨run, hrun, by simpa using hid⟩
    obtain ⟨run, hfind⟩ := Option.isSome_iff_exists.mp hfind
    have hfits : ∀ a ∈ row.decimals, ∃ n, decimalToU64 a = some n := fun a ha =>
      Option.isSome_iff_exists.mp (isSome_decimalToU64.mpr (h a ha))
    simp only [ScoreRow.decimals, List.mem_cons, List.not_mem_nil, or_false, forall_eq_or_imp,
      forall_eq] at hfits
    obtain ⟨⟨a, ha⟩, ⟨b, hb⟩, ⟨c, hc⟩, ⟨d, hd⟩, ⟨e, he⟩⟩ := hfits
    unfold scoreRecord
    simp [ha, hb, hc, hd, he, hfind]

end Record

/-- The record says what the uploaded row says. -/
structure Agrees (row : ValidatorScoringCsvRow) (record : ValidatorScoreRecord) : Prop where
  voteAccount : record.voteAccount = row.voteAccount
  score : record.score = row.score
  rank : record.rank = row.rank
  decimals : record.decimals.map Nat.cast = row.decimals
  uiHints : record.uiHints = parseUiHints row.uiHints
  eligibleStakeAlgo : record.eligibleStakeAlgo = row.eligibleStakeAlgo
  eligibleStakeVemnde : record.eligibleStakeVemnde = row.eligibleStakeVemnde
  eligibleStakeMsol : record.eligibleStakeMsol = row.eligibleStakeMsol

section Upload

variable {f64ToString : Rat → String} {upload : ScoringUpload} {tables : ScoringTables}
  {row : ValidatorScoringCsvRow} {record : ValidatorScoreRecord}

/-- With distinct vote accounts the maps give every row its own value. -/
theorem lookup_of_mem {α : Type} (f : ValidatorScoringCsvRow → α)
    (hdistinct : (upload.scores.map ValidatorScoringCsvRow.voteAccount).Nodup)
    (hrow : row ∈ upload.scores) : lookup f upload.scores row = f row := by
  have hget : (byVoteAccount f upload.scores).get? row.voteAccount = some (f row) := by
    refine Dict.get?_ofList (List.mem_map.mpr ⟨row, hrow, rfl⟩) fun a ha => ?_
    obtain ⟨row', hrow', heq⟩ := List.mem_map.mp ha
    obtain ⟨hkey, rfl⟩ := Prod.mk.inj heq
    rw [List.inj_on_of_nodup_map hdistinct hrow' hrow hkey]
  unfold lookup
  rw [hget]
  rfl

/-- The record of an uploaded row whose decimals are `u64`s. -/
theorem agrees_of_scoreRecord {scoringRunId scoreId : Nat}
    (hdistinct : (upload.scores.map ValidatorScoringCsvRow.voteAccount).Nodup)
    (hrow : row ∈ upload.scores) (hu64 : ∀ a ∈ row.decimals, IsU64 a)
    (h : scoreRecord tables (scoreRow f64ToString upload scoringRunId scoreId row) =
      some record) : Agrees row record := by
  obtain ⟨hdecimals, -, hvote, hscore, hrank, hhints, -, -, -, halgo, hvemnde, hmsol, -⟩ :=
    scoreRecord_eq_some_iff.mp h
  refine ⟨hvote, hscore, hrank, ?_, hhints.trans (lookup_of_mem _ hdistinct hrow), halgo,
    hvemnde, hmsol⟩
  -- converted to a natural number and back
  have hback : ∀ l : List Rat, (∀ a ∈ l, IsU64 a) → ∀ ns : List Nat,
      l.map decimalToU64 = ns.map some → ns.map Nat.cast = l := by
    intro l
    induction l with
    | nil =>
      intro _ ns hns
      rw [List.map_eq_nil_iff.mp hns.symm]
      rfl
    | cons a l ih =>
      intro hl ns hns
      cases ns with
      | nil => cases hns
      | cons n ns =>
        rw [List.map_cons, List.map_cons, List.cons.injEq] at hns
        obtain ⟨m, hm, rfl⟩ := hl a List.mem_cons_self
        rw [decimalToU64_natCast hm] at hns
        rw [List.map_cons, ← Option.some.inj hns.1,
          ih (fun b hb => hl b (List.mem_cons_of_mem _ hb)) ns hns.2]
  exact hback _ hu64 _ hdecimals

/-- A call that succeeds adds a run and all of its scores. -/
theorem storeScoring_ok {fault : Nat → Option DbError} {tables' : ScoringTables}
    (h : storeScoring f64ToString fault upload tables = (tables', .ok ())) :
    tables'.scores = tables.scores ++
      scoreRows f64ToString upload tables.nextScoringRunId tables.nextScoreId upload.scores := by
  obtain ⟨k, hk, -, ⟨-, hlen⟩ | ⟨e, -, herror, -⟩⟩ := autocommit_spec fault
    (scoringStatements f64ToString upload tables.nextScoringRunId) tables
  · rw [show autocommit fault _ tables = (tables', .ok ()) from h, hlen] at hk
    obtain ⟨-, hscores⟩ := commitAll_scoringStatements hk
    rw [hscores]
    congr 2
    rw [List.length_map, take_length_chunks (by decide)]
  · rw [show autocommit fault _ tables = (tables', .ok ()) from h] at herror
    cases herror

end Upload

/-! ## The readers -/

section Readers

variable {scan : Scan} {tables : ScoringTables}

theorem isSome_loadScores (scan : Scan) {scoringRunId : Nat}
    (h : ∀ row ∈ tables.scores, row.scoringRunId = scoringRunId →
      (scoreRecord tables row).isSome) :
    (loadScores scan tables scoringRunId).isSome := by
  refine isSome_foldlM (fun row hrow records => ?_) _
  obtain ⟨hmem, hrun⟩ := mem_scoresOfRun.mp hrow
  unfold addScoreRecord
  by_cases hkey : row.voteAccount ∈ records.keys
  · rw [if_pos hkey]
    rfl
  · rw [if_neg hkey, Option.isSome_map]
    exact h row hmem hrun

theorem isSome_loadAllScores :
    (loadAllScores scan tables).isSome ↔
      ∀ row ∈ tables.scores, (scoreRecord tables row).isSome := by
  have hmem : ∀ row, row ∈ (scan.order tables.scores).insertionSort
      (fun row row' => row.rank ≤ row'.rank) ↔ row ∈ tables.scores := by
    intro row
    rw [List.mem_insertionSort, Scan.mem_order]
  constructor
  · intro h row hrow
    obtain ⟨all, hall⟩ := Option.isSome_iff_exists.mp h
    exact (foldlM_push hall).1 row ((hmem row).mpr hrow)
  · intro h
    refine isSome_foldlM (fun row hrow records => ?_) _
    rw [Option.isSome_map]
    exact h row ((hmem row).mp hrow)

/-- The records of a run, and the rows they come from. -/
theorem loadAllScores_run {all : Dict Nat (List ValidatorScoreRecord)}
    (h : loadAllScores scan tables = some all) (scoringRunId : Nat) :
    (((all.get? scoringRunId).getD []).map ValidatorScoreRecord.voteAccount).Perm
        ((tables.scores.filter fun row => row.scoringRunId = scoringRunId).map
          ScoreRow.voteAccount) ∧
      ∀ record ∈ (all.get? scoringRunId).getD [], ∃ row ∈ tables.scores,
        row.scoringRunId = scoringRunId ∧ scoreRecord tables row = some record := by
  obtain ⟨hsome, hgroups⟩ := foldlM_push h
  have hperm : ((scan.order tables.scores).insertionSort fun row row' =>
      row.rank ≤ row'.rank).Perm tables.scores :=
    (List.perm_insertionSort _ _).trans (scan.perm _)
  have hgroup : (all.get? scoringRunId).getD [] = (((scan.order tables.scores).insertionSort
      fun row row' => row.rank ≤ row'.rank).filter fun row =>
        row.scoringRunId = scoringRunId).filterMap (scoreRecord tables) :=
    hgroups scoringRunId
  generalize (scan.order tables.scores).insertionSort
    (fun row row' => row.rank ≤ row'.rank) = sorted at hperm hgroup hsome
  rw [hgroup]
  constructor
  · refine List.Perm.trans (List.Perm.of_eq ?_) ((hperm.filter _).map _)
    rw [List.map_filterMap, ← List.filterMap_eq_map]
    refine List.filterMap_congr fun row hrow => ?_
    obtain ⟨record, hrecord⟩ :=
      Option.isSome_iff_exists.mp (hsome row (List.mem_of_mem_filter hrow))
    rw [hrecord]
    exact congrArg some (scoreRecord_eq_some hrecord).1
  · intro record hrecord
    obtain ⟨row, hrow, hrec⟩ := List.mem_filterMap.mp hrecord
    obtain ⟨hmem, hrun⟩ := List.mem_filter.mp hrow
    exact ⟨row, hperm.mem_iff.mp hmem, by simpa using hrun, hrec⟩

end Readers

/-! ## The round trip -/

/-- Both readers return exactly the uploaded rows for the run. -/
structure RoundTrip (scan : Scan) (upload : ScoringUpload) (tables : ScoringTables)
    (scoringRunId : Nat) : Prop where
  loadScores : ∃ records, loadScores scan tables scoringRunId = some records ∧
    (∀ voteAccount, voteAccount ∈ records.keys ↔
      voteAccount ∈ upload.scores.map ValidatorScoringCsvRow.voteAccount) ∧
    ∀ row ∈ upload.scores, ∃ record,
      records.get? row.voteAccount = some record ∧ Agrees row record
  loadAllScores : ∃ all, loadAllScores scan tables = some all ∧
    (((all.get? scoringRunId).getD []).map ValidatorScoreRecord.voteAccount).Perm
      (upload.scores.map ValidatorScoringCsvRow.voteAccount) ∧
    ∀ record ∈ (all.get? scoringRunId).getD [], ∃ row ∈ upload.scores, Agrees row record

section RoundTrip

variable {f64ToString : Rat → String} {scan : Scan} {upload : ScoringUpload}
  {tables tables' : ScoringTables}

/-- The rows of the new run come from the upload. -/
theorem exists_uploaded
    (hscores : tables'.scores = tables.scores ++
      scoreRows f64ToString upload tables.nextScoringRunId tables.nextScoreId upload.scores)
    {row : ScoreRow} (hrow : row ∈ tables'.scores)
    (hrun : row.scoringRunId = tables.nextScoringRunId) :
    ∃ row' ∈ upload.scores, ∃ scoreId,
      row = scoreRow f64ToString upload tables.nextScoringRunId scoreId row' := by
  have hnew := (mem_scores_of_next hscores).mp ⟨hrow, hrun⟩
  obtain ⟨⟨row', scoreId⟩, hmem, rfl⟩ := List.mem_map.mp hnew
  exact ⟨row', List.fst_mem_of_mem_zipIdx hmem, scoreId, rfl⟩

/-- All rows can be read when the old ones could and the new ones are exact. -/
theorem isSome_scoreRecord_all
    (hscores : tables'.scores = tables.scores ++
      scoreRows f64ToString upload tables.nextScoringRunId tables.nextScoreId upload.scores)
    (hnew : ∀ row ∈ upload.scores, ∀ a ∈ row.decimals, IsU64 a)
    (hold : ∀ row ∈ tables.scores, ∀ a ∈ row.decimals, FitsU64 a) :
    ∀ row ∈ tables'.scores, (scoreRecord tables' row).isSome := by
  intro row hrow
  rw [isSome_scoreRecord hrow]
  rw [hscores] at hrow
  rcases List.mem_append.mp hrow with hrow | hrow
  · exact hold row hrow
  · obtain ⟨⟨row', scoreId⟩, hmem, rfl⟩ := List.mem_map.mp hrow
    exact fun a ha => (hnew row' (List.fst_mem_of_mem_zipIdx hmem) a ha).fits

theorem roundTrip_of_u64
    (hdistinct : (upload.scores.map ValidatorScoringCsvRow.voteAccount).Nodup)
    (hscores : tables'.scores = tables.scores ++
      scoreRows f64ToString upload tables.nextScoringRunId tables.nextScoreId upload.scores)
    (hnew : ∀ row ∈ upload.scores, ∀ a ∈ row.decimals, IsU64 a)
    (hold : ∀ row ∈ tables.scores, ∀ a ∈ row.decimals, FitsU64 a) :
    RoundTrip scan upload tables' tables.nextScoringRunId := by
  have hall := isSome_scoreRecord_all hscores hnew hold
  constructor
  · obtain ⟨records, hload⟩ := Option.isSome_iff_exists.mp
      (isSome_loadScores scan fun row hrow _ => hall row hrow)
    obtain ⟨hkeys, hentries⟩ := loadScores_of_next hscores hload
    refine ⟨records, hload, hkeys, fun row hrow => ?_⟩
    obtain ⟨⟨_, record⟩, hmem, rfl⟩ :=
      List.mem_map.mp ((hkeys row.voteAccount).mpr (List.mem_map_of_mem hrow))
    refine ⟨record, Dict.get?_of_mem hmem, ?_⟩
    -- the record was made of the one row with this vote account
    obtain ⟨scored, hscored, hkey, hrecord⟩ := hentries _ hmem
    obtain ⟨⟨row', scoreId⟩, hmem', rfl⟩ := List.mem_map.mp hscored
    have hrow' := List.fst_mem_of_mem_zipIdx hmem'
    obtain rfl := List.inj_on_of_nodup_map hdistinct hrow hrow' hkey
    exact agrees_of_scoreRecord hdistinct hrow (hnew row hrow) hrecord
  · obtain ⟨all, hload⟩ := Option.isSome_iff_exists.mp (isSome_loadAllScores.mpr hall)
    obtain ⟨hperm, hrecords⟩ := loadAllScores_run hload tables.nextScoringRunId
    refine ⟨all, hload, hperm.trans ?_, fun record hrecord => ?_⟩
    · have hrun : (tables'.scores.filter fun row =>
          row.scoringRunId = tables.nextScoringRunId) =
            scoreRows f64ToString upload tables.nextScoringRunId tables.nextScoreId
              upload.scores := by
        rw [hscores, List.filter_append, List.filter_eq_nil_iff.mpr fun row hrow => ?_,
          List.filter_eq_self.mpr fun row hrow => ?_, List.nil_append]
        · obtain ⟨_, -, rfl⟩ := List.mem_map.mp hrow
          exact decide_eq_true rfl
        · simpa using (tables.scoringRunId_lt hrow).ne
      rw [hrun, scoreRows_voteAccount]
    · obtain ⟨row, hrow, hrun, hrec⟩ := hrecords record hrecord
      obtain ⟨row', hrow', scoreId, rfl⟩ := exists_uploaded hscores hrow hrun
      exact ⟨row', hrow', agrees_of_scoreRecord hdistinct hrow' (hnew row' hrow') hrec⟩

/-- Only `u64`s come back as they were. -/
theorem u64_of_roundTrip (h : RoundTrip scan upload tables' tables.nextScoringRunId) :
    ∀ row ∈ upload.scores, ∀ a ∈ row.decimals, IsU64 a := by
  intro row hrow a ha
  obtain ⟨records, hload, -, hrows⟩ := h.loadScores
  obtain ⟨record, hget, hagrees⟩ := hrows row hrow
  obtain ⟨scored, -, -, -, hrecord⟩ := (loadScores_eq_some hload).2 _ (Dict.mem_of_get? hget)
  rw [← hagrees.decimals] at ha
  obtain ⟨n, hn, rfl⟩ := List.mem_map.mp ha
  -- the field of the record is the result of a conversion
  have hconverted : some n ∈ scored.decimals.map decimalToU64 := by
    rw [(scoreRecord_eq_some_iff.mp hrecord).1]
    exact List.mem_map_of_mem hn
  obtain ⟨b, -, hb⟩ := List.mem_map.mp hconverted
  exact ⟨n, lt_of_decimalToU64 hb, rfl⟩

theorem fits_of_roundTrip
    (hscores : tables'.scores = tables.scores ++
      scoreRows f64ToString upload tables.nextScoringRunId tables.nextScoreId upload.scores)
    (h : RoundTrip scan upload tables' tables.nextScoringRunId) :
    ∀ row ∈ tables.scores, ∀ a ∈ row.decimals, FitsU64 a := by
  intro row hrow
  obtain ⟨all, hload, -⟩ := h.loadAllScores
  have hmem : row ∈ tables'.scores := by
    rw [hscores]
    exact List.mem_append_left _ hrow
  have hall := isSome_loadAllScores.mp (Option.isSome_iff_exists.mpr ⟨all, hload⟩)
  exact (isSome_scoreRecord hmem).mp (hall row hmem)

end RoundTrip

/-- **Upload and loading are inverse**, in whatever order the queries return their rows,
exactly if every decimal of the upload is a `u64` and every decimal stored before is one
up to a fraction. -/
theorem scores_roundTrip_iff (f64ToString : Rat → String) (fault : Nat → Option DbError)
    (upload : ScoringUpload) (tables tables' : ScoringTables)
    (hdistinct : (upload.scores.map ValidatorScoringCsvRow.voteAccount).Nodup)
    (h : storeScoring f64ToString fault upload tables = (tables', .ok ())) :
    (∀ scan, RoundTrip scan upload tables' tables.nextScoringRunId) ↔
      (∀ row ∈ upload.scores, ∀ a ∈ row.decimals, IsU64 a) ∧
        ∀ row ∈ tables.scores, ∀ a ∈ row.decimals, FitsU64 a := by
  have hscores := storeScoring_ok h
  constructor
  · intro hround
    exact ⟨u64_of_roundTrip (hround .sequential),
      fits_of_roundTrip hscores (hround .sequential)⟩
  · rintro ⟨hnew, hold⟩ scan
    exact roundTrip_of_u64 hdistinct hscores hnew hold

/-- An upload of one validator with these votes. -/
def votedUpload (vemndeVotes : Rat) : ScoringUpload :=
  { singleUpload "vote" with
    scores := (singleUpload "vote").scores.map fun row => { row with vemndeVotes := vemndeVotes } }

/-- The tables after such an upload. -/
def votedTables (vemndeVotes : Rat) : ScoringTables :=
  (storeScoring (fun _ => "0") (fun _ => none) (votedUpload vemndeVotes) .empty).1

/-- Seven votes come back as seven votes. -/
theorem scores_roundTrip_seven :
    RoundTrip .sequential (votedUpload 7) (votedTables 7) 1 := by
  refine (scores_roundTrip_iff (fun _ => "0") (fun _ => none) (votedUpload 7) .empty
    (votedTables 7) (by decide) rfl).mpr ⟨?_, fun row hrow => nomatch hrow⟩ .sequential
  intro row hrow a ha
  obtain rfl := List.mem_singleton.mp hrow
  have hvalues : a = ((7 : Nat) : Rat) ∨ a = ((0 : Nat) : Rat) := by
    simpa [ValidatorScoringCsvRow.decimals] using ha
  rcases hvalues with rfl | rfl
  · exact ⟨7, by decide, rfl⟩
  · exact ⟨0, by decide, rfl⟩

/-- One and a half votes are stored, and come back as one; a negative number of votes is
stored as well, and then neither reader returns. -/
theorem scores_roundTrip_lossy :
    (storeScoring (fun _ => "0") (fun _ => none) (votedUpload (3 / 2)) .empty).2 = .ok () ∧
      ¬ RoundTrip .sequential (votedUpload (3 / 2)) (votedTables (3 / 2)) 1 ∧
      (storeScoring (fun _ => "0") (fun _ => none) (votedUpload (-1)) .empty).2 = .ok () ∧
      (loadScores .sequential (votedTables (-1)) 1).isNone ∧
      (loadAllScores .sequential (votedTables (-1))).isNone := by
  refine ⟨rfl, fun h => ?_, rfl, by decide, by decide⟩
  obtain ⟨records, hload, -, hrows⟩ := h.loadScores
  obtain ⟨record, hget, hagrees⟩ := hrows _ (List.mem_singleton_self _)
  have hvotes : (loadScores .sequential (votedTables (3 / 2)) 1).map (fun records =>
      (records.get? "vote").map ValidatorScoreRecord.vemndeVotes) = some (some 1) := by
    decide +kernel
  have hget' : records.get? "vote" = some record := hget
  rw [hload, Option.map_some, hget'] at hvotes
  have hone : record.vemndeVotes = 1 := Option.some.inj (Option.some.inj hvotes)
  have hhead := (List.cons.inj hagrees.decimals).1
  rw [hone] at hhead
  exact absurd hhead (by decide +kernel)

end DelegationStrategy.Store
