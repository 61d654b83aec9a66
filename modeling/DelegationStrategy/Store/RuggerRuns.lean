import DelegationStrategy.Lib.Growth
import DelegationStrategy.Store.LoadValidators

/-!
# Rugs are not forgotten

`load_ruggers` (`store/src/utils.rs`) looks for rugs in the whole table each time, by the
commissions of an epoch and of its neighbours, and `load_validators` publishes them with the
validator. The commissions of an epoch are written once, when it is closed: `close_epoch` starts
with the record of the epoch, and a second run does not get past it.

- `grows_executeAll`: over any runs of the commands, with any faults, a commission that is known
  stays, and new rows join the table, after the older ones of their vote accounts if the snapshots
  are stored onward (`StoresOnward`).
- `rugs_stayPublished`: so a rug that `load_validators` has published is published by every later
  answer that has the validator.
-/

namespace DelegationStrategy.Store

open DelegationStrategy.Lib DelegationStrategy.Collect

/-! ## What the table learns -/

/-- The row is the same one, and what was known of its commissions is. -/
structure Learns (row row' : ValidatorsRow) : Prop where
  voteAccount : row'.voteAccount = row.voteAccount
  epoch : row'.epoch = row.epoch
  effective : Fills row.commissionEffective row'.commissionEffective
  minObserved : Fills row.commissionMinObserved row'.commissionMinObserved

/-- A row of the same vote account is of a later epoch. -/
def Later (row row' : ValidatorsRow) : Prop :=
  row.voteAccount = row'.voteAccount → row.epoch < row'.epoch

theorem Learns.refl (row : ValidatorsRow) : Learns row row :=
  ⟨rfl, rfl, Fills.refl _, Fills.refl _⟩

section Learning

variable {row row' row'' : ValidatorsRow}

theorem Learns.trans (h : Learns row row') (h' : Learns row' row'') : Learns row row'' where
  voteAccount := h'.voteAccount.trans h.voteAccount
  epoch := h'.epoch.trans h.epoch
  effective := h.effective.trans h'.effective
  minObserved := h.minObserved.trans h'.minObserved

theorem Later.learns (h : Later row row') (h' : Learns row' row'') : Later row row'' := by
  intro hvote
  rw [h'.epoch]
  exact h (hvote.trans h'.voteAccount)

theorem Learns.later (h : Learns row row') (h' : Later row' row'') : Later row row'' := by
  intro hvote
  rw [← h.epoch]
  exact h' (h.voteAccount.trans hvote)

end Learning

/-! ## What was selected is selected again -/

section Selected

variable {a a' b b' prev prev' next next' : Option Int} {row row' : ValidatorsRow}

theorem isGreater_of_fills (ha : Fills a a') (hb : Fills b b') (h : isGreater a b = true) :
    isGreater a' b' = true := by
  cases a with
  | none => cases h
  | some x =>
    cases b with
    | none => cases h
    | some y =>
      rw [ha x rfl, hb y rfl]
      exact h

theorem isAtMost_of_fills (ha : Fills a a') (hb : Fills b b') (h : isAtMost a b = true) :
    isAtMost a' b' = true := by
  cases a with
  | none => cases h
  | some x =>
    cases b with
    | none => cases h
    | some y =>
      rw [ha x rfl, hb y rfl]
      exact h

/-- A comparison that is true stays true: a `NULL` makes it neither true nor false. -/
theorem selectsRugger_of_learns (hprev : Fills prev prev') (hnext : Fills next next')
    (hrow : Learns row row') (h : selectsRugger prev next row = true) :
    selectsRugger prev' next' row' = true := by
  have hten : Fills (some (10 : Int)) (some 10) := Fills.refl _
  simp only [selectsRugger, Bool.or_eq_true, Bool.and_eq_true] at h ⊢
  rcases h with (⟨⟨h₁, h₂⟩, h₃⟩ | ⟨⟨h₁, h₂⟩, h₃⟩) | ⟨⟨h₁, h₂⟩, h₃⟩
  · exact Or.inl (Or.inl ⟨⟨isGreater_of_fills hrow.effective hrow.minObserved h₁,
      isGreater_of_fills hrow.effective hten h₂⟩, isAtMost_of_fills hrow.minObserved hten h₃⟩)
  · exact Or.inl (Or.inr ⟨⟨isGreater_of_fills hprev hten h₁,
      isAtMost_of_fills hrow.effective hten h₂⟩, isGreater_of_fills hnext hten h₃⟩)
  · exact Or.inr ⟨⟨isAtMost_of_fills hprev hten h₁,
      isGreater_of_fills hrow.effective hten h₂⟩, isAtMost_of_fills hnext hten h₃⟩

/-- The query is one with `LAG` and `LEAD`. -/
theorem commissionChanges_eq (prev : Option Int) (rows : List ValidatorsRow) :
    commissionChanges prev rows = neighbours ValidatorsRow.commissionEffective prev rows := by
  induction rows generalizing prev with
  | nil => rfl
  | cons row rows ih =>
    rw [commissionChanges, neighbours, ih]

theorem filteredCommissions_eq (table : List ValidatorsRow) (voteAccount : String) :
    filteredCommissions table voteAccount =
      selected ValidatorsRow.commissionEffective selectsRugger none
        ((table.filter fun row => row.voteAccount = voteAccount).insertionSort
          fun row row' => row.epoch ≤ row'.epoch) := by
  unfold filteredCommissions
  dsimp only
  rw [commissionChanges_eq]
  rfl

/-- The rows of a vote account in the order of their epochs, as the table grows. -/
theorem grows_partition {table table' : List ValidatorsRow} (h : Grows Learns Later table table')
    (voteAccount : String) :
    Grows Learns (fun row row' => row.epoch ≤ row'.epoch)
      ((table.filter fun row => row.voteAccount = voteAccount).insertionSort
        fun row row' => row.epoch ≤ row'.epoch)
      ((table'.filter fun row => row.voteAccount = voteAccount).insertionSort
        fun row row' => row.epoch ≤ row'.epoch) := by
  have hfilter : Grows Learns (fun row row' : ValidatorsRow => row.epoch ≤ row'.epoch)
      (table.filter fun row => row.voteAccount = voteAccount)
      (table'.filter fun row => row.voteAccount = voteAccount) := by
    refine h.filter (fun row row' hrow => ?_) fun row row' hrow hrow' hlater => ?_
    · rw [hrow.voteAccount]
    · exact le_of_lt (hlater ((of_decide_eq_true hrow).trans (of_decide_eq_true hrow').symm))
  refine hfilter.insertionSort (fun a a' b b' ha hb => ?_) fun a b c hab hac => ?_
  · rw [ha.epoch, hb.epoch]
  · rw [hab.epoch]
    exact hac

/-- **The rows of the rugs** of a vote account are among those of the table that has grown. -/
theorem sublist_filteredCommissions {table table' : List ValidatorsRow}
    (h : Grows Learns Later table table') (voteAccount : String) :
    ∃ f, (∀ row ∈ filteredCommissions table voteAccount, Learns row (f row)) ∧
      ((filteredCommissions table voteAccount).map f).Sublist
        (filteredCommissions table' voteAccount) := by
  obtain ⟨f, new, hpartition, hlearns, -⟩ := grows_partition h voteAccount
  refine ⟨f, fun row hrow => hlearns row ?_, ?_⟩
  · obtain ⟨hmem, hvote, -⟩ := mem_filteredCommissions hrow
    exact (List.mem_insertionSort _).mpr (List.mem_filter.mpr ⟨hmem, decide_eq_true hvote⟩)
  · rw [filteredCommissions_eq, filteredCommissions_eq, hpartition]
    exact sublist_selected new (Fills.refl _) (fun row hrow => (hlearns row hrow).effective)
      fun row hrow _ _ _ _ hprev hnext hselects =>
        selectsRugger_of_learns hprev hnext (hlearns row hrow) hselects

end Selected

/-! ## Statements -/

/-- The rows of an epoch without a record have no commissions yet. -/
def AwaitsClose (db : Database) : Prop :=
  ∀ row ∈ db.validators, ¬ db.Recorded row.epoch →
    row.commissionEffective = none ∧ row.commissionMinObserved = none

/-- A run of `store_validators` adds no row of a vote account before one that is there. -/
def StoresOnward (db : Database) (run : Run) : Prop :=
  ∀ scan snapshot, run.command = .storeValidators scan snapshot →
    ∀ v ∈ snapshot.validators, rowsAt db.validators v.voteAccount snapshot.epoch = [] →
      ∀ row ∈ db.validators, row.voteAccount = v.voteAccount → row.epoch < snapshot.epoch

/-- The row is the same one, and has its commissions unless it is of an exempt epoch. -/
structure Keeps (exempt : Nat → Prop) (row row' : ValidatorsRow) : Prop where
  voteAccount : row'.voteAccount = row.voteAccount
  epoch : row'.epoch = row.epoch
  commissions : ¬ exempt row.epoch → row'.commissionEffective = row.commissionEffective ∧
    row'.commissionMinObserved = row.commissionMinObserved

theorem Keeps.refl (exempt : Nat → Prop) (row : ValidatorsRow) : Keeps exempt row row :=
  ⟨rfl, rfl, fun _ => ⟨rfl, rfl⟩⟩

theorem Keeps.trans {exempt : Nat → Prop} {row row' row'' : ValidatorsRow}
    (h : Keeps exempt row row') (h' : Keeps exempt row' row'') : Keeps exempt row row'' := by
  refine ⟨h'.voteAccount.trans h.voteAccount, h'.epoch.trans h.epoch, fun hexempt => ?_⟩
  obtain ⟨heffective, hminimal⟩ := h.commissions hexempt
  obtain ⟨heffective', hminimal'⟩ := h'.commissions (h.epoch ▸ hexempt)
  exact ⟨heffective'.trans heffective, hminimal'.trans hminimal⟩

/-- During a run that started in `start`, all rows are kept but for the commissions of exempt
epochs, which have a record. -/
structure GrownFrom (exempt : Nat → Prop) (start db : Database) : Prop where
  key : PrimaryKey db.validators
  recorded : ∀ epoch, start.Recorded epoch → db.Recorded epoch
  closed : ∀ epoch, exempt epoch → db.Recorded epoch
  grows : Grows (Keeps exempt) Later start.validators db.validators
  awaits : AwaitsClose db

section Statements

variable {exempt : Nat → Prop} {start db db' : Database} {step : Step} {scan : Scan}

/-- A statement that rewrites the rows in place, or adds the record of an epoch. -/
theorem GrownFrom.of_map {g : ValidatorsRow → ValidatorsRow} (h : GrownFrom exempt start db)
    (hdb' : db'.validators = db.validators.map g)
    (hkey : PrimaryKey db'.validators) (hrecorded : ∀ epoch, db.Recorded epoch → db'.Recorded epoch)
    (hg : ∀ row, Keeps exempt row (g row)) : GrownFrom exempt start db' where
  key := hkey
  recorded epoch hepoch := hrecorded epoch (h.recorded epoch hepoch)
  closed epoch hepoch := hrecorded epoch (h.closed epoch hepoch)
  grows := by
    rw [hdb']
    refine h.grows.map (fun _ _ _ => Keeps.trans) (fun a b c hlater hkeeps hvote => ?_)
      fun row _ => hg row
    rw [hkeeps.epoch]
    exact hlater (hvote.trans hkeeps.voteAccount)
  awaits row' hrow' hopen := by
    rw [hdb'] at hrow'
    obtain ⟨row, hrow, rfl⟩ := List.mem_map.mp hrow'
    have hkeeps := hg row
    rw [hkeeps.epoch] at hopen
    obtain ⟨heffective, hminimal⟩ := hkeeps.commissions fun hexempt =>
      hopen (hrecorded _ (h.closed _ hexempt))
    rw [heffective, hminimal]
    exact h.awaits row hrow fun hrow => hopen (hrecorded _ hrow)

/-- **A statement of `close_epoch`** after the first writes commissions of its epoch only. -/
theorem GrownFrom.close {snapshot : ValidatorsPerformanceSnapshot}
    (h : GrownFrom (fun epoch => epoch = snapshot.epoch) start db)
    (hmem : step ∈ closeEpochSteps scan snapshot) (hstep : step.statement db = .ok db') :
    GrownFrom (fun epoch => epoch = snapshot.epoch) start db' := by
  have hkey := (closeEpochSteps_effect hmem h.key hstep).key
  rcases mem_closeEpochSteps hmem with
    ⟨clusterInflation, rfl⟩ | ⟨rewards, chunk, hchunk, rfl⟩ | rfl | rfl
  · -- the epoch is recorded already
    obtain ⟨-, -, hopen, -⟩ := createEpochRecord_eq_ok.mp hstep
    exact absurd (h.closed snapshot.epoch rfl) hopen
  · obtain ⟨validators, hrun, rfl⟩ := onValidators_eq_ok.mp hstep
    obtain rfl := Except.ok.inj ((closeChunk_eq_ok h.key hchunk).symm.trans hrun)
    refine h.of_map rfl hkey (fun _ hepoch => hepoch) fun row => ?_
    obtain ⟨hvote, hepoch⟩ := (edits_close snapshot rewards).editRow_key
      (chunk.map ValidatorUpdateRecord.voteAccount) row
    refine ⟨hvote, hepoch, fun hother => ?_⟩
    rcases editRow_cases (chunk.map ValidatorUpdateRecord.voteAccount) row with
      hrow | ⟨_, -, -, hclosed, -⟩
    · rw [hrow]
      exact ⟨rfl, rfl⟩
    · exact absurd hclosed hother
  · rcases updateUptimes_eq_ok hstep with rfl | ⟨vars, -, rfl⟩
    · exact h
    · refine h.of_map rfl hkey (fun _ hepoch => hepoch) fun row => ?_
      obtain ⟨pct, uptime, downtime, hrow⟩ := timedRow_eq vars db.uptimes row
      rw [hrow]
      exact ⟨rfl, rfl, fun _ => ⟨rfl, rfl⟩⟩
  · obtain rfl := Except.ok.inj hstep
    refine h.of_map rfl hkey (fun _ hepoch => hepoch) fun row => ?_
    unfold observedRow
    split
    · rename_i hclosed
      exact ⟨rfl, rfl, fun hother => absurd hclosed hother⟩
    · exact Keeps.refl _ row

/-- **A statement of `store_validators`** writes no commissions, and adds rows behind those that
were there when the run started. -/
theorem GrownFrom.store {snapshot : Snapshot}
    (h : GrownFrom (fun _ => False) start db)
    (honward : ∀ v ∈ snapshot.validators,
      rowsAt start.validators v.voteAccount snapshot.epoch = [] →
        ∀ row ∈ start.validators, row.voteAccount = v.voteAccount → row.epoch < snapshot.epoch)
    (hmem : step ∈ validatorsSteps scan snapshot start.validators)
    (hstep : step.statement db = .ok db') : GrownFrom (fun _ => False) start db' := by
  rcases mem_validatorsSteps hmem with ⟨chunk, hchunk, rfl⟩ | ⟨chunk, hchunk, rfl⟩
  · have hkey := (validatorsSteps_effect hmem h.key hstep).key
    obtain ⟨validators, hrun, rfl⟩ := onValidators_eq_ok.mp hstep
    have hsize : chunk.length * validatorsUpdate.valueTypes.length ≤ maxParams :=
      (Nat.mul_le_mul_right _ (length_of_mem_chunks hchunk)).trans (by decide)
    obtain rfl := Except.ok.inj
      (((edits_update snapshot).executeUpdate_eq_ok h.key hsize).symm.trans hrun)
    refine h.of_map rfl hkey (fun _ hepoch => hepoch) fun row => ?_
    obtain ⟨hvote, hepoch⟩ := (edits_update snapshot).editRow_key chunk row
    refine ⟨hvote, hepoch, fun _ => ?_⟩
    rcases editRow_cases chunk row with hrow | ⟨_, -, -, -, hrow⟩
    · rw [hrow]
      exact ⟨rfl, rfl⟩
    · rw [hrow]
      exact ⟨rfl, rfl⟩
  · obtain ⟨validators, hrun, rfl⟩ := onValidators_eq_ok.mp hstep
    obtain ⟨rfl, hkey⟩ := insertChunk_append (length_of_mem_chunks hchunk) h.key hrun
    refine ⟨hkey, h.recorded, h.closed, h.grows.append fun old hold row hrow hvote => ?_,
      fun row hrow hopen => ?_⟩
    · obtain ⟨e, he, rfl⟩ := List.mem_map.mp hrow
      have hinserted := mem_of_mem_chunks (by decide) hchunk (List.mem_filter.mp he).1
      obtain ⟨hentry, hnew⟩ := mem_insertedValidators.mp hinserted
      obtain ⟨v, hv, rfl⟩ := mem_snapshotValidators hentry
      refine honward v hv (List.filter_eq_nil_iff.mpr fun other hother hkey => ?_) old hold hvote
      obtain ⟨hsame, hepoch⟩ := of_decide_eq_true hkey
      exact hnew (mem_selectedVoteAccounts.mpr ⟨other, hother, hepoch, hsame⟩)
    · rcases List.mem_append.mp hrow with hold | hnew
      · exact h.awaits row hold hopen
      · obtain ⟨e, he, rfl⟩ := List.mem_map.mp hnew
        have hinserted := mem_of_mem_chunks (by decide) hchunk (List.mem_filter.mp he).1
        obtain ⟨v, -, rfl⟩ := mem_snapshotValidators (mem_insertedValidators.mp hinserted).1
        exact ⟨rfl, rfl⟩

end Statements

/-! ## Runs -/

section Runs

variable {db : Database}

theorem GrownFrom.refl {exempt : Nat → Prop} (hkey : PrimaryKey db.validators)
    (hawaits : AwaitsClose db) (hclosed : ∀ epoch, exempt epoch → db.Recorded epoch) :
    GrownFrom exempt db db :=
  ⟨hkey, fun _ h => h, hclosed, Grows.refl (Keeps.refl exempt) _, hawaits⟩

/-- The first statement of `close_epoch`. -/
theorem closeEpochSteps_first (scan : Scan) (snapshot : ValidatorsPerformanceSnapshot) :
    closeEpochSteps scan snapshot = [] ∨ ∃ clusterInflation rest, closeEpochSteps scan snapshot =
      ⟨[], createEpochRecord snapshot.epoch clusterInflation⟩ :: rest := by
  unfold closeEpochSteps
  split
  · exact Or.inr ⟨_, _, rfl⟩
  · exact Or.inl rfl

/-- **A run of `close_epoch`** stops at its first statement, or closes an epoch that had no record
when it started. -/
theorem GrownFrom.closeRun {scan : Scan} {snapshot : ValidatorsPerformanceSnapshot} {k : Nat}
    {db' : Database} (hkey : PrimaryKey db.validators) (hawaits : AwaitsClose db)
    (hrun : commitAll (((closeEpochSteps scan snapshot).take k).map Step.statement) db = .ok db') :
    db' = db ∨ ¬ db.Recorded snapshot.epoch ∧
      GrownFrom (fun epoch => epoch = snapshot.epoch) db db' := by
  have hmem : ∀ step ∈ (closeEpochSteps scan snapshot).take k,
      step ∈ closeEpochSteps scan snapshot := fun _ => List.mem_of_mem_take
  rcases closeEpochSteps_first scan snapshot with hnil | ⟨clusterInflation, rest, hfirst⟩
  · rw [hnil, List.take_nil] at hrun
    exact Or.inl (Except.ok.inj hrun).symm
  · rw [hfirst] at hrun hmem
    cases k with
    | zero => exact Or.inl (Except.ok.inj hrun).symm
    | succ k =>
      rw [List.take_succ_cons, List.map_cons] at hrun
      obtain ⟨db₁, hcreate, hrest⟩ := commitAll_cons.mp hrun
      obtain ⟨record, hrecord, hopen, rfl⟩ := createEpochRecord_eq_ok.mp hcreate
      have hmono : ∀ epoch, db.Recorded epoch →
          Database.Recorded { db with epochs := db.epochs ++ [record] } epoch := by
        intro epoch hepoch
        unfold Database.Recorded
        rw [List.map_append]
        exact List.mem_append_left _ hepoch
      have hstart : GrownFrom (fun epoch => epoch = snapshot.epoch) db
          { db with epochs := db.epochs ++ [record] } := by
        refine ⟨hkey, hmono, fun epoch hepoch => ?_, Grows.refl (Keeps.refl _) _,
          fun row hrow hrow' => hawaits row hrow fun h => hrow' (hmono _ h)⟩
        unfold Database.Recorded
        rw [List.map_append, hepoch, ← epochRecord_epoch hrecord]
        exact List.mem_append_right _ (List.mem_singleton_self _)
      refine Or.inr ⟨hopen, commitAll_inv (fun statement hstatement s s' hs hstep => ?_) hstart
        hrest⟩
      obtain ⟨step, hstep', rfl⟩ := List.mem_map.mp hstatement
      have hclosing : step ∈ closeEpochSteps scan snapshot := by
        rw [hfirst]
        exact List.mem_cons_of_mem _ (List.mem_of_mem_take hstep')
      exact hs.close hclosing hstep

/-- The table learns in a run that writes the commissions of at most one epoch, which was open. -/
theorem GrownFrom.learns {exempt : Nat → Prop} {db' : Database} (h : GrownFrom exempt db db')
    (hawaits : AwaitsClose db) (hexempt : ∀ epoch, exempt epoch → ¬ db.Recorded epoch) :
    Grows Learns Later db.validators db'.validators := by
  refine h.grows.imp (fun row hrow row' hkeeps => ⟨hkeeps.voteAccount, hkeeps.epoch, ?_, ?_⟩)
    fun _ _ hlater => hlater
  all_goals
    by_cases hclosing : exempt row.epoch
    · obtain ⟨heffective, hminimal⟩ := hawaits row hrow (hexempt _ hclosing)
      simp only [heffective, hminimal]
      exact Fills.none _
    · obtain ⟨heffective, hminimal⟩ := hkeeps.commissions hclosing
      first
      | exact Fills.of_eq heffective
      | exact Fills.of_eq hminimal

/-- **A run** of any command. -/
theorem Run.grows (run : Run) (hkey : PrimaryKey db.validators) (hawaits : AwaitsClose db)
    (honward : StoresOnward db run) :
    Grows Learns Later db.validators (run.execute db).1.validators ∧
      AwaitsClose (run.execute db).1 := by
  have hcommitted := run.commitAll_committed db
  obtain ⟨command, fault⟩ := run
  have hrefl : GrownFrom (fun _ => False) db db := GrownFrom.refl hkey hawaits fun _ h => h.elim
  cases command with
  | storeValidators scan snapshot =>
    have h : GrownFrom (fun _ => False) db
        (Run.execute ⟨.storeValidators scan snapshot, fault⟩ db).1 :=
      Run.execute_inv _ (fun step hmem s s' hs hstep =>
        hs.store (honward scan snapshot rfl) hmem hstep) hrefl
    exact ⟨h.learns hawaits fun _ h => h.elim, h.awaits⟩
  | storeCommissions scan snapshot =>
    have h : GrownFrom (fun _ => False) db
        (Run.execute ⟨.storeCommissions scan snapshot, fault⟩ db).1 := by
      refine Run.execute_inv _ (fun step hmem s s' hs hstep => ?_) hrefl
      obtain rfl := List.mem_singleton.mp hmem
      obtain ⟨commissions, -, rfl⟩ := map_eq_ok.mp hstep
      exact ⟨hs.key, hs.recorded, hs.closed, hs.grows, hs.awaits⟩
    exact ⟨h.learns hawaits fun _ h => h.elim, h.awaits⟩
  | closeEpoch scan snapshot =>
    rcases GrownFrom.closeRun hkey hawaits hcommitted with heq | ⟨hopen, h⟩
    · rw [heq]
      exact ⟨Grows.refl Learns.refl _, hawaits⟩
    · refine ⟨h.learns hawaits fun epoch hepoch => ?_, h.awaits⟩
      rw [hepoch]
      exact hopen
  | replaceOthers uptimes clusterInfo =>
    have h : GrownFrom (fun _ => False) db
        (Run.execute ⟨.replaceOthers uptimes clusterInfo, fault⟩ db).1 := by
      refine Run.execute_inv _ (fun step hmem s s' hs hstep => ?_) hrefl
      obtain rfl := List.mem_singleton.mp hmem
      obtain rfl := Except.ok.inj hstep
      exact ⟨hs.key, hs.recorded, hs.closed, hs.grows, hs.awaits⟩
    exact ⟨h.learns hawaits fun _ h => h.elim, h.awaits⟩

/-- What holds between the start of a schedule and its end. -/
structure Grown (db db' : Database) : Prop where
  key : PrimaryKey db'.validators
  awaits : AwaitsClose db'
  grows : Grows Learns Later db.validators db'.validators

/-- **Any runs** that store onward. -/
theorem grows_executeAll {runs : List Run} (hkey : PrimaryKey db.validators)
    (hawaits : AwaitsClose db) (honward : StepsAll nextDatabase StoresOnward db runs) :
    Grown db (executeAll runs db) := by
  induction runs generalizing db with
  | nil => exact ⟨hkey, hawaits, Grows.refl Learns.refl _⟩
  | cons run runs ih =>
    obtain ⟨hfirst, hrest⟩ := honward _ rfl
    obtain ⟨hgrows, hawaits'⟩ := run.grows hkey hawaits hfirst
    obtain ⟨hkey', hawaits', hgrows'⟩ := ih (run.execute_key hkey) hawaits' hrest
    exact ⟨hkey', hawaits', hgrows.trans hgrows' (fun _ _ _ => Learns.trans)
      (fun _ _ _ => Later.learns) fun _ _ _ => Learns.later⟩

end Runs

/-! ## The ruggers of a table -/

section Ruggers

variable {scan : Scan} {now : Timestamp} {table : List ValidatorsRow}
variable {ruggers : Dict String RuggerRecord} {rugger : RuggerRecord} {voteAccount : String}

theorem keys_ruggerRecords {groups : List (String × List ValidatorsRow)}
    {records : List (String × RuggerRecord)} (h : ruggerRecords now groups = some records) :
    records.map Prod.fst = groups.map Prod.fst := by
  induction groups generalizing records with
  | nil =>
    obtain rfl := Option.some.inj h
    rfl
  | cons g groups ih =>
    obtain ⟨record, -, h⟩ := Option.bind_eq_some_iff.mp h
    obtain ⟨rest, hrest, h⟩ := Option.bind_eq_some_iff.mp h
    obtain rfl := Option.some.inj h
    rw [List.map_cons, List.map_cons, ih hrest]

/-- The record of a rugger has the rows of its rugs, more than one. -/
theorem aggregates_loadRuggers (h : loadRuggers scan now table = some ruggers)
    (hget : ruggers.get? voteAccount = some rugger) :
    1 < (filteredCommissions table voteAccount).length ∧
      Aggregates (scan.order (filteredCommissions table voteAccount)) rugger := by
  obtain ⟨records, hrecords, rfl⟩ := Option.map_eq_some_iff.mp h
  obtain ⟨g, hg, hkey, hrecord⟩ :=
    mem_ruggerRecords hrecords (Dict.mem_of_mem_ofList (Dict.mem_of_get? hget))
  obtain ⟨hgroup, hlength⟩ := List.mem_filter.mp hg
  obtain ⟨other, -, rfl⟩ := List.mem_map.mp hgroup
  obtain rfl : voteAccount = other := hkey
  refine ⟨?_, ruggerRecord_aggregates hrecord⟩
  rw [← (scan.perm _).length_eq]
  exact of_decide_eq_true hlength

/-- Who has more than one rug is a rugger. -/
theorem exists_loadRuggers (h : loadRuggers scan now table = some ruggers)
    (hmany : 1 < (filteredCommissions table voteAccount).length) :
    ∃ rugger, ruggers.get? voteAccount = some rugger := by
  obtain ⟨records, hrecords, rfl⟩ := Option.map_eq_some_iff.mp h
  obtain ⟨row, hrow⟩ := List.exists_mem_of_length_pos (lt_trans Nat.zero_lt_one hmany)
  obtain ⟨hmem, hvote, -⟩ := mem_filteredCommissions hrow
  refine Option.ne_none_iff_exists'.mp fun hnone => Dict.get?_eq_none_iff.mp hnone ?_
  rw [Dict.mem_keys_ofList, keys_ruggerRecords hrecords]
  refine List.mem_map.mpr ⟨(voteAccount, scan.order (filteredCommissions table voteAccount)),
    List.mem_filter.mpr ⟨List.mem_map_of_mem ?_, ?_⟩, rfl⟩
  · rw [List.mem_dedup, ← hvote]
    exact List.mem_map_of_mem hmem
  · rw [decide_eq_true_iff, (scan.perm _).length_eq]
    exact hmany

/-- What is published of a row. -/
def rugInfoOf (row : ValidatorsRow) : Option RugInfo := do
  let commissionEffective ← row.commissionEffective
  let commissionMinObserved ← row.commissionMinObserved
  some ⟨row.epoch, asU64 commissionEffective, asU64 commissionMinObserved⟩

theorem rugInfoOf_learns {row row' : ValidatorsRow} (h : Learns row row')
    (hsome : rugInfoOf row ≠ none) : rugInfoOf row' = rugInfoOf row := by
  unfold rugInfoOf at hsome ⊢
  cases heffective : row.commissionEffective with
  | none =>
    rw [heffective] at hsome
    exact absurd rfl hsome
  | some effective =>
    cases hminimal : row.commissionMinObserved with
    | none =>
      rw [heffective, hminimal] at hsome
      exact absurd rfl hsome
    | some minimal =>
      rw [h.effective _ heffective, h.minObserved _ hminimal, h.epoch]

/-- The arrays of a record have the values of a row at the index of its epoch. -/
theorem map_rugInfoOf {rows : List ValidatorsRow} {infos : List RugInfo}
    (h : Aggregates rows rugger) (hinfos : rugInfos rugger = some infos) :
    infos.map some = rows.map rugInfoOf := by
  rw [map_some_of_mapM hinfos]
  refine List.ext_getElem? fun i => ?_
  rw [List.getElem?_map, List.getElem?_zipIdx, h.epochs, List.getElem?_map, List.getElem?_map]
  cases hrow : rows[i]? with
  | none => rfl
  | some row =>
    have hvalue : ∀ {values : List Nat} {f : ValidatorsRow → Option Nat},
        values.map some = rows.map f → values[i]? = f row := by
      intro values f hvalues
      have hget := congrArg (fun l => l[i]?) hvalues
      simp only [List.getElem?_map, hrow, Option.map_some] at hget
      obtain ⟨value, hvalue, heq⟩ := Option.map_eq_some_iff.mp hget
      rw [hvalue, heq]
    have hobserved := hvalue h.observedCommissions
    have hminimal := hvalue h.minCommissions
    simp only [Option.map_some, Nat.zero_add, hobserved, hminimal, rugInfoOf]
    cases row.commissionEffective with
    | none => rfl
    | some effective =>
      cases row.commissionMinObserved with
      | none => rfl
      | some minimal => rfl

/-- The infos of a record are those of its rows, and no row lacks one. -/
theorem infos_eq {rows : List ValidatorsRow} {infos : List RugInfo} (h : Aggregates rows rugger)
    (hinfos : rugInfos rugger = some infos) :
    infos = rows.filterMap rugInfoOf ∧ ∀ row ∈ rows, rugInfoOf row ≠ none := by
  have hmap := map_rugInfoOf h hinfos
  constructor
  · calc infos = (infos.map some).filterMap id := by rw [List.filterMap_map]; simp
      _ = (rows.map rugInfoOf).filterMap id := by rw [hmap]
      _ = rows.filterMap rugInfoOf := by rw [List.filterMap_map]; rfl
  · intro row hrow hnone
    have hmem : rugInfoOf row ∈ infos.map some := hmap ▸ List.mem_map_of_mem hrow
    obtain ⟨info, -, hinfo⟩ := List.mem_map.mp hmem
    rw [hnone] at hinfo
    cases hinfo

end Ruggers

/-! ## What is published -/

/-- The fields of a record about rugs. -/
def LoadedRecord.rugs (record : LoadedRecord) : Bool × Nat × List RugInfo :=
  (record.ruggedCommission, record.ruggedCommissionOccurrences, record.ruggedCommissionInfo)

/-- The same for all records. -/
def publishedRugs (records : Dict String LoadedRecord) :
    List (String × Bool × Nat × List RugInfo) :=
  records.entries.map fun e => (e.1, e.2.rugs)

section Updates

variable {records records' : Dict String LoadedRecord}

theorem publishedRugs_mapKeyed {f : String → LoadedRecord → LoadedRecord}
    (h : ∀ e ∈ records.entries, (f e.1 e.2).rugs = e.2.rugs) :
    publishedRugs (records.mapKeyed f) = publishedRugs records := by
  unfold publishedRugs Dict.mapKeyed
  rw [List.map_map]
  refine List.map_congr_left fun e he => ?_
  show (e.1, (f e.1 e.2).rugs) = _
  rw [h e he]

theorem publishedRugs_mapVal {f : LoadedRecord → LoadedRecord}
    (h : ∀ record, (f record).rugs = record.rugs) :
    publishedRugs (records.mapVal f) = publishedRugs records :=
  publishedRugs_mapKeyed (f := fun _ => f) fun e _ => h e.2

theorem publishedRugs_withScores (scoresPerEpoch : Dict Nat (Dict String Rat)) :
    publishedRugs (withScores scoresPerEpoch records) = publishedRugs records := by
  unfold withScores
  split
  · rfl
  · exact publishedRugs_mapVal fun _ => rfl

theorem publishedRugs_withLoadedRanks {scan : Scan} {fieldExtractor : LoadedEpochStats → Nat}
    {field : RankField} (h : withLoadedRanks scan fieldExtractor field records = some records') :
    publishedRugs records' = publishedRugs records := by
  refine foldlM_keeps (fun _ _ _ hepoch => ?_) h
  refine foldlM_keeps (fun records ranked records' hrank => ?_) hepoch
  obtain ⟨record, hrecord, hrank⟩ := Option.bind_eq_some_iff.mp hrank
  obtain ⟨epochStats, -, hrank⟩ := Option.bind_eq_some_iff.mp hrank
  obtain rfl := Option.some.inj hrank
  refine publishedRugs_mapKeyed fun e he => ?_
  split
  · rename_i hkey
    obtain rfl : e = (ranked.1.1, record) := Dict.eq_of_mem he (Dict.mem_of_get? hrecord) hkey
    rfl
  · rfl

/-- **The updates** are not about rugs. -/
theorem publishedRugs_updateLoadedRecords {sources : LoadSources}
    {displayEpochs computingEpochs : Nat} {db : LoadDatabase}
    (h : updateLoadedRecords sources displayEpochs computingEpochs db records = some records') :
    publishedRugs records' = publishedRugs records := by
  obtain ⟨scores, -, h⟩ := Option.bind_eq_some_iff.mp h
  obtain ⟨stakeRanks, hstake, h⟩ := Option.bind_eq_some_iff.mp h
  obtain ⟨scoreRanks, hscore, h⟩ := Option.bind_eq_some_iff.mp h
  obtain ⟨apyRanks, hapy, h⟩ := Option.bind_eq_some_iff.mp h
  obtain ⟨incidents, -, h⟩ := Option.bind_eq_some_iff.mp h
  obtain rfl := Option.some.inj h
  calc publishedRugs (withTakeRates _ (withIncidents _
        (withUniqueDelegators _ (withWarnings _ _ apyRanks))))
      = publishedRugs (withIncidents _ (withUniqueDelegators _ (withWarnings _ _ apyRanks))) :=
        publishedRugs_mapKeyed fun _ _ => rfl
    _ = publishedRugs (withUniqueDelegators _ (withWarnings _ _ apyRanks)) :=
        publishedRugs_mapKeyed fun _ _ => rfl
    _ = publishedRugs (withWarnings _ _ apyRanks) := publishedRugs_mapKeyed fun _ _ => rfl
    _ = publishedRugs apyRanks := publishedRugs_mapVal fun _ => rfl
    _ = publishedRugs scoreRanks := publishedRugs_withLoadedRanks hapy
    _ = publishedRugs stakeRanks := publishedRugs_withLoadedRanks hscore
    _ = publishedRugs (withAvgs _ _ (withScores scores records)) :=
        publishedRugs_withLoadedRanks hstake
    _ = publishedRugs (withScores scores records) := publishedRugs_mapVal fun _ => rfl
    _ = publishedRugs records := publishedRugs_withScores scores

end Updates

/-- A record is published with the rugs of its rugger, if it is of one. -/
inductive PublishesRugs : Option RuggerRecord → LoadedRecord → Prop where
  | nothing {record : LoadedRecord} : record.rugs = (false, 0, []) → PublishesRugs none record
  | rugger {rugger : RuggerRecord} {record : LoadedRecord} {infos : List RugInfo} :
    rugInfos rugger = some infos → record.rugs = (true, rugger.occurrences, infos) →
    PublishesRugs (some rugger) record

theorem PublishesRugs.congr {rugger : Option RuggerRecord} {record record' : LoadedRecord}
    (h : PublishesRugs rugger record) (hrugs : record'.rugs = record.rugs) :
    PublishesRugs rugger record' := by
  cases h with
  | nothing hrecord => exact .nothing (hrugs.trans hrecord)
  | rugger hinfos hrecord => exact .rugger hinfos (hrugs.trans hrecord)

section Published

variable {inputs : LoopInputs} {row : LoadedRow} {record : LoadedRecord}

/-- A row sets the rugs, or leaves those that an earlier row has set. -/
theorem publishes_loadRow {entry : Option LoadedRecord}
    (hentry : ∀ old, entry = some old →
      PublishesRugs (inputs.ruggers.get? row.validator.voteAccount) old)
    (h : loadRow inputs entry row = some record) :
    PublishesRugs (inputs.ruggers.get? row.validator.voteAccount) record := by
  obtain ⟨_, _, stats, old, rugged, -, hold, hrugged, rfl⟩ := loadRow_eq_some h
  have hrugs : (rugged.addStats inputs.lastEpoch stats).rugs = rugged.rugs := rfl
  refine PublishesRugs.congr ?_ hrugs
  cases hget : inputs.ruggers.get? row.validator.voteAccount with
  | some rugger =>
    rw [hget] at hrugged
    obtain ⟨infos, hinfos, hrugged⟩ := Option.bind_eq_some_iff.mp hrugged
    obtain rfl := Option.some.inj hrugged
    exact .rugger hinfos rfl
  | none =>
    rw [hget] at hrugged
    obtain rfl := Option.some.inj hrugged
    cases entry with
    | some old' =>
      obtain rfl := Option.some.inj hold
      exact hget ▸ hentry _ rfl
    | none =>
      obtain ⟨columns, -, hold⟩ := Option.bind_eq_some_iff.mp hold
      obtain rfl := Option.some.inj hold
      exact .nothing rfl

/-- **The loop** publishes the rugs of each vote account. -/
theorem publishes_loadRows {rows : List LoadedRow} {records : Dict String LoadedRecord}
    (h : loadRows inputs rows = some records) {voteAccount : String}
    (hget : records.get? voteAccount = some record) :
    PublishesRugs (inputs.ruggers.get? voteAccount) record := by
  have hrule := entry_rule
    (P := fun rows record => (∀ row ∈ rows, row.validator.voteAccount = voteAccount) →
      PublishesRugs (inputs.ruggers.get? voteAccount) record)
    (fun row a ha hrows => ?_) (fun past row a a' hpast ha hrows => ?_) h voteAccount
  · rcases hrule with ⟨hnone, -⟩ | ⟨record', hsome, hpublishes⟩
    · rw [hnone] at hget
      cases hget
    · obtain rfl := Option.some.inj (hsome.symm.trans hget)
      exact hpublishes fun row hrow => of_decide_eq_true (List.mem_filter.mp hrow).2
  · have hvote := hrows row (List.mem_singleton_self row)
    rw [← hvote]
    refine publishes_loadRow (fun old hnone => ?_) ha
    cases hnone
  · have hvote := hrows row (List.mem_append_right _ (List.mem_singleton_self row))
    rw [← hvote] at hpast ⊢
    refine publishes_loadRow (fun old hold => ?_) ha
    obtain rfl := Option.some.inj hold
    exact hpast fun row' hrow' => (hrows row' (List.mem_append_left _ hrow')).trans hvote.symm

/-- **`load_validators`** publishes what `load_ruggers` finds in the table. -/
theorem publishes_loadValidators {sources : LoadSources} {displayEpochs computingEpochs : Nat}
    {db : LoadDatabase} {records : Dict String LoadedRecord}
    (h : loadValidators sources displayEpochs computingEpochs db = some records)
    {voteAccount : String} (hget : records.get? voteAccount = some record) :
    ∃ ruggers, loadRuggers sources.scan sources.now db.validators = some ruggers ∧
      PublishesRugs (ruggers.get? voteAccount) record := by
  unfold loadValidators at h
  cases hlast : getLastEpoch db.toDatabase with
  | none =>
    rw [hlast] at h
    obtain rfl := Option.some.inj h
    cases hget
  | some lastEpoch =>
    rw [hlast] at h
    obtain ⟨inputs, hinputs, h⟩ := Option.bind_eq_some_iff.mp h
    obtain ⟨loaded, hloop, hupdate⟩ := Option.bind_eq_some_iff.mp h
    obtain ⟨ruggers, hruggers, hinputs⟩ := Option.bind_eq_some_iff.mp hinputs
    obtain ⟨_, -, hinputs⟩ := Option.bind_eq_some_iff.mp hinputs
    obtain ⟨_, -, hinputs⟩ := Option.bind_eq_some_iff.mp hinputs
    obtain rfl := Option.some.inj hinputs
    -- the record before the updates has the same rugs
    have hmem : (voteAccount, record.rugs) ∈ publishedRugs loaded :=
      publishedRugs_updateLoadedRecords hupdate ▸
        List.mem_map_of_mem (Dict.mem_of_get? hget)
    obtain ⟨⟨key, record'⟩, he, heq⟩ := List.mem_map.mp hmem
    obtain ⟨rfl, hrugs⟩ := Prod.mk.inj heq
    exact ⟨ruggers, hruggers, (publishes_loadRows hloop (Dict.get?_of_mem he)).congr hrugs.symm⟩

end Published

/-! ## Rugs over runs -/

/-- All rugs of the earlier record are in the later one. -/
structure KeepsRugs (record record' : LoadedRecord) : Prop where
  rugged : record.ruggedCommission = true → record'.ruggedCommission = true
  occurrences : record.ruggedCommissionOccurrences ≤ record'.ruggedCommissionOccurrences
  infos : record.ruggedCommissionInfo.Subperm record'.ruggedCommissionInfo

/-- **Two loads** of a table that has grown in between. -/
theorem keepsRugs_of_grows {db db' : LoadDatabase}
    (hgrows : Grows Learns Later db.validators db'.validators) {sources sources' : LoadSources}
    {displayEpochs computingEpochs displayEpochs' computingEpochs' : Nat}
    {records records' : Dict String LoadedRecord}
    (h : loadValidators sources displayEpochs computingEpochs db = some records)
    (h' : loadValidators sources' displayEpochs' computingEpochs' db' = some records')
    {voteAccount : String} {record record' : LoadedRecord}
    (hget : records.get? voteAccount = some record)
    (hget' : records'.get? voteAccount = some record') : KeepsRugs record record' := by
  obtain ⟨ruggers, hruggers, hpublishes⟩ := publishes_loadValidators h hget
  obtain ⟨ruggers', hruggers', hpublishes'⟩ := publishes_loadValidators h' hget'
  cases hrugger : ruggers.get? voteAccount with
  | none =>
    rw [hrugger] at hpublishes
    obtain ⟨hrugs⟩ := hpublishes
    simp only [LoadedRecord.rugs, Prod.mk.injEq] at hrugs
    obtain ⟨hrugged, hoccurrences, hinfos⟩ := hrugs
    refine ⟨?_, ?_, ?_⟩
    · simp [hrugged]
    · rw [hoccurrences]
      exact Nat.zero_le _
    · rw [hinfos]
      exact List.nil_subperm
  | some rugger =>
    -- more than one row was selected, and they are selected again
    obtain ⟨hmany, haggregates⟩ := aggregates_loadRuggers hruggers hrugger
    obtain ⟨f, hlearns, hsublist⟩ := sublist_filteredCommissions hgrows voteAccount
    have hlength := hsublist.length_le
    rw [List.length_map] at hlength
    obtain ⟨rugger', hrugger'⟩ := exists_loadRuggers hruggers' (lt_of_lt_of_le hmany hlength)
    obtain ⟨-, haggregates'⟩ := aggregates_loadRuggers hruggers' hrugger'
    rw [hrugger] at hpublishes
    rw [hrugger'] at hpublishes'
    obtain - | ⟨hinfos, hrugs⟩ := hpublishes
    obtain - | ⟨hinfos', hrugs'⟩ := hpublishes'
    simp only [LoadedRecord.rugs, Prod.mk.injEq] at hrugs hrugs'
    obtain ⟨-, hoccurrences, rfl⟩ := hrugs
    obtain ⟨hrugged', hoccurrences', rfl⟩ := hrugs'
    obtain ⟨heq, hsome⟩ := infos_eq haggregates hinfos
    obtain ⟨heq', -⟩ := infos_eq haggregates' hinfos'
    have hsame : ((filteredCommissions db.validators voteAccount).map f).filterMap rugInfoOf =
        (filteredCommissions db.validators voteAccount).filterMap rugInfoOf := by
      rw [List.filterMap_map]
      refine List.filterMap_congr fun row hrow => ?_
      exact rugInfoOf_learns (hlearns row hrow) (hsome row (sources.scan.mem_order.mpr hrow))
    refine ⟨fun _ => hrugged', ?_, ?_⟩
    · rw [hoccurrences, hoccurrences', haggregates.occurrences, haggregates'.occurrences,
        (sources.scan.perm _).length_eq, (sources'.scan.perm _).length_eq]
      exact hlength
    · rw [heq, heq', ((sources.scan.perm _).filterMap rugInfoOf).subperm_right,
        ((sources'.scan.perm _).filterMap rugInfoOf).subperm_left, ← hsame]
      exact (hsublist.filterMap rugInfoOf).subperm

theorem storesOnward_storeRun {db : Database} {epoch : Nat}
    (h : ∀ row ∈ db.validators, row.epoch < epoch) : StoresOnward db (storeRun epoch) := by
  rintro scan snapshot hcommand v - - row hrow -
  obtain ⟨-, rfl⟩ := Command.storeValidators.inj hcommand
  exact h row hrow

theorem storesOnward_closeRun {db : Database} (epoch : Nat) (commission : UInt8)
    (fault : Nat → Option DbError) : StoresOnward db (closeRun epoch commission fault) := by
  intro scan snapshot hcommand
  cases hcommand

/-- Two epochs are closed with an effective commission of 20. -/
def raisedTwice : List Run :=
  [storeRun 500, closeRun 500 20 fun _ => none, storeRun 501, closeRun 501 20 fun _ => none]

/-- The next one is closed with 5, and the closing loses its connection after the `UPDATE`. -/
def loweredHalfway : List Run := [storeRun 502, closeRun 502 5 (stopAt 2 .connection)]

def raisedDatabase : LoadDatabase where
  toDatabase := executeAll raisedTwice ruggerDatabase
  mev := []
  jitoPriorityFee := []
  validatorsKey := by
    unfold PrimaryKey
    decide
  epochsKey := by decide

def loweredDatabase : LoadDatabase where
  toDatabase := executeAll (raisedTwice ++ loweredHalfway) ruggerDatabase
  mev := []
  jitoPriorityFee := []
  validatorsKey := by
    unfold PrimaryKey
    decide
  epochsKey := by decide

theorem onward_raisedTwice :
    StepsAll nextDatabase StoresOnward ruggerDatabase (raisedTwice ++ loweredHalfway) := by
  refine .cons rfl (storesOnward_storeRun fun _ hrow => (nomatch hrow)) <|
    .cons rfl (storesOnward_closeRun _ _ _) <| .cons rfl (storesOnward_storeRun ?_) <|
    .cons rfl (storesOnward_closeRun _ _ _) <| .cons rfl (storesOnward_storeRun ?_) <|
    .cons rfl (storesOnward_closeRun _ _ _) trivial
  · decide
  · decide

/-- The commission is 20, 5 and 20 in the epochs 500, 501 and 503. -/
def skippedEpoch : List Run :=
  [.mk (.replaceOthers [] (ruggerDatabase.clusterInfo ++ [⟨503, 4000, 3 * minute⟩])) fun _ => none,
   storeRun 500, closeRun 500 20 fun _ => none, storeRun 501, closeRun 501 5 fun _ => none,
   storeRun 503, closeRun 503 20 fun _ => none]

-- Stored late, the skipped epoch comes between two neighbours, and a rug is gone.
example :
    let rugs (runs : List Run) :=
      (filteredCommissions (executeAll runs ruggerDatabase).validators "vote").map fun row =>
        row.epoch
    rugs skippedEpoch = [500, 501, 503] ∧ rugs (skippedEpoch ++ [storeRun 502]) = [500, 503] := by
  decide

end DelegationStrategy.Store
