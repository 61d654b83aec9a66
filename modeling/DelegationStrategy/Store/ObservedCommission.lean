import DelegationStrategy.Lib.Extremes
import DelegationStrategy.Store.CloseEpoch

/-!
# Observed commissions

`update_observed_commission` (`store/src/close_epoch.rs`) joins the `validators` of an
epoch with the smallest and the greatest commission that `commissions` records for their
vote accounts in the epoch, and updates `validators` from the result. The observed bounds
are the extremes of the recorded, the advertised and the effective commission, as far as
these are not `NULL`.

- `observedCommissionQuery_eq`: the statement rewrites the rows of its epoch in place, and
  does not depend on the order of the joined rows.
- `observedCommission_encloses`: the bounds enclose every commission that was seen, after
  the statement and at the end of `close_epoch`.
-/

namespace DelegationStrategy.Store

open DelegationStrategy.Lib DelegationStrategy.Collect

/-! ## The statement -/

/-- A row of the inner `commissions`. -/
structure CommissionBounds where
  voteAccount : String
  commissionMin : Option Int
  commissionMax : Option Int
  deriving DecidableEq, Repr

/-- The commissions of a vote account in an epoch. -/
def epochCommissions (epoch : Nat) (commissions : List CommissionRow)
    (voteAccount : String) : List Int :=
  (commissions.filter fun c => c.epoch = epoch ∧ c.voteAccount = voteAccount).map
    ChangeRow.value

/-- `SELECT vote_account, MIN(commission), MAX(commission) FROM commissions
WHERE epoch = $1 GROUP BY vote_account`. -/
def commissionBounds (epoch : Nat) (commissions : List CommissionRow) :
    List CommissionBounds :=
  ((commissions.filter fun c => c.epoch = epoch).map ChangeRow.voteAccount).dedup.map
    fun voteAccount =>
      { voteAccount := voteAccount
        commissionMin := (epochCommissions epoch commissions voteAccount).min?
        commissionMax := (epochCommissions epoch commissions voteAccount).max? }

/-- A row of `grouped_commissions`. -/
structure GroupedCommission where
  commissionMin : Option Int
  commissionMax : Option Int
  voteAccount : String
  deriving DecidableEq, Repr

/-- `grouped_commissions`: `validators LEFT JOIN commissions`, filtered by the epoch. -/
def groupedCommissions (epoch : Nat) (db : Database) : List GroupedCommission :=
  ((leftJoin (fun row group => decide (group.voteAccount = row.voteAccount)) db.validators
    (commissionBounds epoch db.commissions)).filter fun joined => joined.1.epoch = epoch).map
      fun joined =>
        { commissionMin := joined.2.bind CommissionBounds.commissionMin
          commissionMax := joined.2.bind CommissionBounds.commissionMax
          voteAccount := joined.1.voteAccount }

/-- The `SET` clause. -/
def GroupedCommission.observe (grouped : GroupedCommission) (row : ValidatorsRow) :
    ValidatorsRow :=
  { row with
    commissionMaxObserved :=
      greatest [grouped.commissionMax, row.commissionAdvertised, row.commissionEffective]
    commissionMinObserved :=
      least [grouped.commissionMin, row.commissionAdvertised, row.commissionEffective] }

/-- The statement of `update_observed_commission`. -/
def observedCommissionQuery (scan : Scan) (epoch : Nat) : Statement DbError Database :=
  fun db =>
    .ok { db with
      validators := updateFrom scan
        (fun row grouped => decide (grouped.voteAccount = row.voteAccount ∧ row.epoch = epoch))
        GroupedCommission.observe db.validators (groupedCommissions epoch db) }

section Query

variable {epoch : Nat} {db : Database}

theorem nodup_commissionBounds (epoch : Nat) (commissions : List CommissionRow) :
    ((commissionBounds epoch commissions).map CommissionBounds.voteAccount).Nodup := by
  unfold commissionBounds
  rw [List.map_map]
  show (List.map id _).Nodup
  rw [List.map_id]
  exact List.nodup_dedup _

/-- A vote account without a group has no commission in the epoch. -/
theorem epochCommissions_eq_nil {commissions : List CommissionRow} {voteAccount : String}
    (h : ∀ group ∈ commissionBounds epoch commissions, group.voteAccount ≠ voteAccount) :
    epochCommissions epoch commissions voteAccount = [] := by
  show List.map _ _ = []
  rw [List.map_eq_nil_iff, List.filter_eq_nil_iff]
  intro c hc hsel
  obtain ⟨hepoch, hvote⟩ := of_decide_eq_true hsel
  refine h _ (List.mem_map.mpr ⟨voteAccount, ?_, rfl⟩) rfl
  rw [List.mem_dedup, ← hvote]
  exact List.mem_map_of_mem (List.mem_filter.mpr ⟨hc, decide_eq_true hepoch⟩)

/-- The group that a row is joined with has the extremes of its vote account, and `NULL`s
stand for no commission. -/
theorem bounds_of_find? (epoch : Nat) (commissions : List CommissionRow)
    (voteAccount : String) {group : Option CommissionBounds}
    (h : (commissionBounds epoch commissions).find? (fun group =>
      decide (group.voteAccount = voteAccount)) = group) :
    group.bind CommissionBounds.commissionMin =
        (epochCommissions epoch commissions voteAccount).min? ∧
      group.bind CommissionBounds.commissionMax =
        (epochCommissions epoch commissions voteAccount).max? := by
  cases group with
  | none =>
    rw [epochCommissions_eq_nil fun group hmem hvote =>
      List.find?_eq_none.mp h group hmem (decide_eq_true hvote)]
    exact ⟨rfl, rfl⟩
  | some group =>
    have hvote : group.voteAccount = voteAccount := by simpa using List.find?_some h
    obtain ⟨a, -, rfl⟩ := List.mem_map.mp (List.mem_of_find?_eq_some h)
    rw [← hvote]
    exact ⟨rfl, rfl⟩

/-- No row is joined twice: a vote account has one group. -/
theorem groupedCommissions_eq (epoch : Nat) (db : Database) :
    groupedCommissions epoch db =
      (db.validators.filter fun row => row.epoch = epoch).map fun row =>
        { commissionMin := (epochCommissions epoch db.commissions row.voteAccount).min?
          commissionMax := (epochCommissions epoch db.commissions row.voteAccount).max?
          voteAccount := row.voteAccount } := by
  unfold groupedCommissions
  rw [leftJoin_key (nodup_commissionBounds epoch db.commissions), List.filter_map, List.map_map]
  refine List.map_congr_left fun row _ => ?_
  obtain ⟨hmin, hmax⟩ := bounds_of_find? epoch db.commissions row.voteAccount rfl
  show GroupedCommission.mk _ _ _ = _
  rw [hmin, hmax]

/-- **The statement** rewrites the rows of the epoch in place, whatever the order of the
joined rows. -/
theorem observedCommissionQuery_eq (scan : Scan) (epoch : Nat) (db : Database) :
    observedCommissionQuery scan epoch db = updateObservedCommission epoch db := by
  unfold observedCommissionQuery updateObservedCommission
  rw [groupedCommissions_eq]
  refine congrArg (fun validators => Except.ok { db with validators := validators })
    (updateFrom_eq_map (fun row _ grouped hgrouped hon => ?_) fun row hrow hnone => ?_)
  · -- the partner is of the row's vote account, so it has the commissions of the row
    obtain ⟨hvote, hepoch⟩ := of_decide_eq_true hon
    obtain ⟨row', -, rfl⟩ := List.mem_map.mp hgrouped
    have hvote' : row'.voteAccount = row.voteAccount := hvote
    show GroupedCommission.observe _ row = observedRow epoch db.commissions row
    unfold observedRow
    rw [if_pos hepoch, hvote']
    rfl
  · -- a row of the epoch is its own partner
    refine if_neg fun hepoch => ?_
    refine hnone _ (List.mem_map_of_mem (List.mem_filter.mpr ⟨hrow, decide_eq_true hepoch⟩)) ?_
    exact decide_eq_true ⟨rfl, hepoch⟩

end Query

/-! ## What was seen -/

/-- The commissions seen for a row: recorded for its vote account in its epoch,
advertised, or effective. -/
def seenCommissions (commissions : List CommissionRow) (row : ValidatorsRow) : Set Int :=
  {c | (∃ record ∈ commissions, record.epoch = row.epoch ∧
      record.voteAccount = row.voteAccount ∧ record.value = c) ∨
    row.commissionAdvertised = some c ∨ row.commissionEffective = some c}

/-- The observed bounds are values seen for the row, and enclose all of them. -/
structure EnclosesSeen (commissions : List CommissionRow) (row : ValidatorsRow) : Prop where
  bounds : ∃ lo hi, row.commissionMinObserved = some lo ∧ row.commissionMaxObserved = some hi ∧
    lo ≤ hi ∧ IsLeast (seenCommissions commissions row) lo ∧
    IsGreatest (seenCommissions commissions row) hi

/-- A command edits rows of the epoch in place, and no advertised commission. -/
structure EditsEpoch (epoch : Nat) (db db' : Database) : Prop where
  others : (db'.validators.filter fun row => row.epoch ≠ epoch) =
    db.validators.filter fun row => row.epoch ≠ epoch
  commissions : db'.commissions = db.commissions
  kept : (db'.validators.map fun row =>
      (row.voteAccount, row.epoch, row.commissionAdvertised)) =
    db.validators.map fun row => (row.voteAccount, row.epoch, row.commissionAdvertised)

/-- A command leaves bounds that enclose what was seen in every row of the epoch. -/
structure ObservesEpoch (epoch : Nat) (db db' : Database) : Prop
    extends EditsEpoch epoch db db' where
  encloses : ∀ row ∈ db'.validators, row.epoch = epoch → EnclosesSeen db'.commissions row

section Seen

variable {epoch : Nat} {commissions : List CommissionRow} {row : ValidatorsRow}

/-- The values seen are those of the three columns that the bounds are taken from. -/
theorem seenCommissions_eq (commissions : List CommissionRow) (row : ValidatorsRow)
    (extreme : List Int → Option Int) :
    seenCommissions commissions row =
      {c | ∃ part ∈
        [({c | c ∈ epochCommissions row.epoch commissions row.voteAccount},
            extreme (epochCommissions row.epoch commissions row.voteAccount)),
          ({c | row.commissionAdvertised = some c}, row.commissionAdvertised),
          ({c | row.commissionEffective = some c}, row.commissionEffective)], c ∈ part.1} := by
  ext c
  simp [seenCommissions, epochCommissions, and_assoc]

/-- The bound of the recorded, the advertised and the effective commission. -/
theorem extreme_seenCommissions (commissions : List CommissionRow) (row : ValidatorsRow)
    {r : Int → Int → Prop} {extreme : List Int → Option Int}
    (hrefl : ∀ a, r a a) (htrans : ∀ a b c, r a b → r b c → r a c)
    (hextreme : ∀ values, Extreme r {v | v ∈ values} (extreme values)) :
    Extreme r (seenCommissions commissions row)
      (extreme [extreme (epochCommissions row.epoch commissions row.voteAccount),
        row.commissionAdvertised, row.commissionEffective].reduceOption) := by
  rw [seenCommissions_eq commissions row extreme]
  refine Extreme.reduce htrans hextreme fun part hpart => ?_
  simp only [List.mem_cons, List.not_mem_nil, or_false] at hpart
  rcases hpart with rfl | rfl | rfl
  · exact hextreme _
  · exact Extreme.column hrefl _
  · exact Extreme.column hrefl _

theorem seenCommissions_observedRow (epoch : Nat) (commissions : List CommissionRow)
    (row : ValidatorsRow) :
    seenCommissions commissions (observedRow epoch commissions row) =
      seenCommissions commissions row := by
  unfold observedRow
  split <;> rfl

theorem observedRow_epoch (epoch : Nat) (commissions : List CommissionRow)
    (row : ValidatorsRow) : (observedRow epoch commissions row).epoch = row.epoch := by
  unfold observedRow
  split <;> rfl

/-- **The bounds of a row** that has an advertised commission. -/
theorem encloses_observedRow (hepoch : row.epoch = epoch)
    (hadvertised : row.commissionAdvertised ≠ none) :
    EnclosesSeen commissions (observedRow epoch commissions row) := by
  obtain ⟨advertised, hadvertised⟩ := Option.ne_none_iff_exists'.mp hadvertised
  have hseen : advertised ∈ seenCommissions commissions row := Or.inr (Or.inl hadvertised)
  have hleast := extreme_seenCommissions commissions row (r := (· ≤ ·)) le_refl
    (fun _ _ _ => le_trans) Extreme.min?
  have hgreatest := extreme_seenCommissions commissions row (r := (· ≥ ·)) (fun _ => le_rfl)
    (fun _ _ _ => ge_trans) Extreme.max?
  obtain ⟨lo, hlo⟩ := hleast.exists_eq_some hseen
  obtain ⟨hi, hhi⟩ := hgreatest.exists_eq_some hseen
  rw [hlo] at hleast
  rw [hhi] at hgreatest
  refine ⟨lo, hi, ?_, ?_, ?_, ?_, ?_⟩
  · rw [← hlo, hepoch]
    exact congrArg ValidatorsRow.commissionMinObserved (if_pos hepoch)
  · rw [← hhi, hepoch]
    exact congrArg ValidatorsRow.commissionMaxObserved (if_pos hepoch)
  · exact (hleast.isLeast.2 hseen).trans (hgreatest.isGreatest.2 hseen)
  · rw [seenCommissions_observedRow]
    exact hleast.isLeast
  · rw [seenCommissions_observedRow]
    exact hgreatest.isGreatest

end Seen

/-! ## Commands -/

section Commands

variable {scan : Scan} {snapshot : ValidatorsPerformanceSnapshot} {epoch : Nat}
  {db db' : Database}

/-- A statement that rewrites the rows one by one. -/
theorem EditsEpoch.of_map {f : ValidatorsRow → ValidatorsRow}
    (hdb' : db'.validators = db.validators.map f)
    (hcommissions : db'.commissions = db.commissions)
    (hkept : ∀ row, ((f row).voteAccount, (f row).epoch, (f row).commissionAdvertised) =
      (row.voteAccount, row.epoch, row.commissionAdvertised))
    (hother : ∀ row, row.epoch ≠ epoch → f row = row) : EditsEpoch epoch db db' where
  others := by
    have hepoch : ∀ row, (f row).epoch = row.epoch := fun row =>
      (Prod.ext_iff.mp (Prod.ext_iff.mp (hkept row)).2).1
    rw [hdb', List.filter_map]
    have hfilter : (db.validators.filter ((fun row : ValidatorsRow =>
        decide (row.epoch ≠ epoch)) ∘ f)) = db.validators.filter fun row => row.epoch ≠ epoch :=
      List.filter_congr fun row _ => by simp [hepoch row]
    rw [hfilter]
    refine (List.map_congr_left fun row hrow => ?_).trans (List.map_id _)
    exact hother row (by simpa using List.of_mem_filter hrow)
  commissions := hcommissions
  kept := by
    rw [hdb', List.map_map]
    exact List.map_congr_left fun row _ => hkept row

theorem EditsEpoch.trans {db₁ : Database} (h : EditsEpoch epoch db db₁)
    (h' : EditsEpoch epoch db₁ db') : EditsEpoch epoch db db' where
  others := h'.others.trans h.others
  commissions := h'.commissions.trans h.commissions
  kept := h'.kept.trans h.kept

theorem EditsEpoch.advertised (h : EditsEpoch epoch db db')
    (hadvertised : ∀ row ∈ db.validators, row.epoch = epoch → row.commissionAdvertised ≠ none) :
    ∀ row ∈ db'.validators, row.epoch = epoch → row.commissionAdvertised ≠ none := by
  intro row' hrow' hepoch
  have hmem := List.mem_map_of_mem (f := fun row : ValidatorsRow =>
    (row.voteAccount, row.epoch, row.commissionAdvertised)) hrow'
  rw [h.kept] at hmem
  obtain ⟨row, hrow, heq⟩ := List.mem_map.mp hmem
  simp only [Prod.mk.injEq] at heq
  rw [← heq.2.2]
  exact hadvertised row hrow (heq.2.1.trans hepoch)

theorem editsEpoch_finalized (rewards : Dict String ValidatorRewards) (db : Database) :
    EditsEpoch snapshot.epoch db (finalized snapshot rewards db) := by
  refine EditsEpoch.of_map rfl rfl (fun row => ?_) fun row hepoch => ?_
  · have hcases : finalizedRow snapshot rewards row = row ∨
        ∃ v : ValidatorUpdateRecord, finalizedRow snapshot rewards row = v.finalize row := by
      rcases editRow_cases snapshot.validators.keys row with hrow | ⟨v, -, -, -, hrow⟩
      · exact Or.inl hrow
      · exact Or.inr ⟨v, hrow⟩
    rcases hcases with hrow | ⟨v, hrow⟩
    · rw [hrow]
    · rw [hrow]
      rfl
  · exact if_neg fun h => hepoch h.1

theorem editsEpoch_updateUptimes (h : updateUptimes epoch db = .ok db') :
    EditsEpoch epoch db db' := by
  rcases updateUptimes_eq_ok h with rfl | ⟨vars, rfl, rfl⟩
  · exact ⟨rfl, rfl, rfl⟩
  · refine EditsEpoch.of_map rfl rfl (fun row => ?_) fun row hepoch => ?_
    · obtain ⟨pct, uptime, downtime, hrow⟩ := timedRow_eq vars db.uptimes row
      rw [hrow]
    · unfold timedRow uptimesRow
      rw [if_neg hepoch]
      rfl

/-- **The statement** leaves bounds that enclose what was seen. -/
theorem observesEpoch_updateObservedCommission
    (hadvertised : ∀ row ∈ db.validators, row.epoch = epoch → row.commissionAdvertised ≠ none)
    (h : updateObservedCommission epoch db = .ok db') : ObservesEpoch epoch db db' := by
  obtain rfl := Except.ok.inj h
  refine ⟨EditsEpoch.of_map rfl rfl (fun row => ?_) fun row hepoch => if_neg hepoch,
    fun row' hrow' hepoch => ?_⟩
  · unfold observedRow
    split <;> rfl
  · obtain ⟨row, hrow, rfl⟩ := List.mem_map.mp hrow'
    have hepoch' : row.epoch = epoch := (observedRow_epoch _ _ row).symm.trans hepoch
    exact encloses_observedRow hepoch' (hadvertised row hrow hepoch')

/-- **A completed run of `close_epoch`** does, too: the effective commissions are written
before the bounds. -/
theorem observesEpoch_closeEpoch {statements : List (Statement DbError Database)}
    (hkey : PrimaryKey db.validators)
    (hadvertised : ∀ row ∈ db.validators, row.epoch = snapshot.epoch →
      row.commissionAdvertised ≠ none)
    (hstatements : closeEpochStatements scan snapshot = some statements)
    (hrun : commitAll statements db = .ok db') : ObservesEpoch snapshot.epoch db db' := by
  obtain ⟨rewards, clusterInflation, -, -, rfl⟩ := closeEpochStatements_eq_some hstatements
  rw [commitAll_closeEpoch hkey] at hrun
  obtain ⟨recorded, hcreate, hrun⟩ := bind_eq_ok.mp hrun
  obtain ⟨timed, htimed, hobserved⟩ := bind_eq_ok.mp hrun
  have hedits : EditsEpoch snapshot.epoch db timed := by
    obtain ⟨row, -, -, rfl⟩ := createEpochRecord_eq_ok.mp hcreate
    have hrecorded : EditsEpoch snapshot.epoch db { db with epochs := db.epochs ++ [row] } :=
      ⟨rfl, rfl, rfl⟩
    exact (hrecorded.trans (editsEpoch_finalized rewards _)).trans
      (editsEpoch_updateUptimes htimed)
  have hobserves :=
    observesEpoch_updateObservedCommission (hedits.advertised hadvertised) hobserved
  exact ⟨hedits.trans hobserves.toEditsEpoch, hobserves.encloses⟩

end Commands

/-- **The observed bounds**: the statement for an epoch, and every completed run of
`close_epoch` on it, leave in each row of the epoch with an advertised commission bounds
that were seen and enclose what was seen, and leave the other epochs as they are. -/
theorem observedCommission_encloses (epoch : Nat) (db : Database)
    (hkey : PrimaryKey db.validators)
    (hadvertised : ∀ row ∈ db.validators, row.epoch = epoch →
      row.commissionAdvertised ≠ none) :
    (∀ scan, ∃ db', observedCommissionQuery scan epoch db = .ok db' ∧
      ObservesEpoch epoch db db') ∧
    ∀ (scan : Scan) (snapshot : ValidatorsPerformanceSnapshot)
      (statements : List (Statement DbError Database)) (db' : Database),
      snapshot.epoch = epoch → closeEpochStatements scan snapshot = some statements →
      commitAll statements db = .ok db' → ObservesEpoch epoch db db' := by
  refine ⟨fun scan => ⟨_, rfl, ?_⟩, ?_⟩
  · refine observesEpoch_updateObservedCommission hadvertised ?_
    rw [← observedCommissionQuery_eq scan]
    rfl
  · rintro scan snapshot statements db' rfl hstatements hrun
    exact observesEpoch_closeEpoch hkey hadvertised hstatements hrun

/-- `openDatabase` with a commission in the epoch and one in the epoch before. -/
def commissionsDatabase : Database :=
  { openDatabase with commissions := [⟨"vote", 9, 100, 500, 0⟩, ⟨"vote", 100, 50, 499, 0⟩] }

theorem commissionsDatabase_key : PrimaryKey commissionsDatabase.validators := openDatabase_key

theorem commissionsDatabase_run : ∃ statements,
    closeEpochStatements .sequential closingSnapshot = some statements ∧
      ∃ db', commitAll statements commissionsDatabase = .ok db' := by
  refine ⟨_, rfl, ?_⟩
  rw [commitAll_closeEpoch commissionsDatabase_key]
  exact ⟨_, rfl⟩

/-- The bounds are 5 and 9 before the epoch is closed: the commission of 100 is not of the
epoch. -/
theorem observedCommission_encloses_recorded :
    (∃ db', observedCommissionQuery .sequential 500 commissionsDatabase = .ok db' ∧
      ObservesEpoch 500 commissionsDatabase db' ∧
      db'.validators.map (fun row => (row.commissionMinObserved, row.commissionMaxObserved)) =
        [(some 5, some 9)]) ∧
    ∃ statements db', closeEpochStatements .sequential closingSnapshot = some statements ∧
      commitAll statements commissionsDatabase = .ok db' ∧
      ObservesEpoch 500 commissionsDatabase db' := by
  have h := observedCommission_encloses 500 commissionsDatabase commissionsDatabase_key (by decide)
  obtain ⟨db', hquery, hobserves⟩ := h.1 .sequential
  refine ⟨⟨db', hquery, hobserves, ?_⟩, ?_⟩
  · obtain rfl := Except.ok.inj hquery
    rfl
  · obtain ⟨statements, hstatements, db', hrun⟩ := commissionsDatabase_run
    exact ⟨statements, db', hstatements, hrun,
      h.2 .sequential closingSnapshot statements db' rfl hstatements hrun⟩

end DelegationStrategy.Store
