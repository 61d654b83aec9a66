import DelegationStrategy.Store.EpochIntervals
import DelegationStrategy.Store.Uptime
import Mathlib.Algebra.Order.BigOperators.Group.List
import Mathlib.Tactic.FieldSimp

/-!
# The uptimes of a closed epoch

`store_uptime` keeps the rows of `uptimes`, and `update_uptimes` (`close_epoch`) adds up the
rows with the status `DOWN` into `validators`. Both together measure the sightings: a snapshot
that sees a validator down counts until the next snapshot with the validator, if it comes
within six minutes, and for one minute otherwise (`downFor`).

- `downtimeOf_eq`: the sum over the rows is the measure of the sightings, after every run.
- `updateUptimes_eq`: what the statement writes, and when it divides by zero.
- `closedUptimes_exact`: the same over runs with other commands in between.
-/

namespace DelegationStrategy.Store

open DelegationStrategy.Lib DelegationStrategy.Collect

/-! ## The sightings -/

/-- How long the snapshots saw the validator down in the epoch. -/
def downFor (snapshots : List ValidatorsPerformanceSnapshot) (voteAccount : String)
    (epoch : Nat) : Timestamp :=
  heldFor minute statusMaxDelayToExtend (Status.down, epoch) none (sightings snapshots voteAccount)

/-- The rows of the table are timelines of the sightings and account for them. -/
structure AccountedUptimes (snapshots : List ValidatorsPerformanceSnapshot)
    (table : UptimesTable) : Prop where
  increasing : snapshots.Pairwise fun snapshot snapshot' =>
    snapshot.createdAt < snapshot'.createdAt
  timelines : UptimesInv snapshots table
  accounts : ∀ voteAccount, Accounted minute statusMaxDelayToExtend
    (spansOf table.rows voteAccount) (sightings snapshots voteAccount)

section Accounts

variable {snapshots : List ValidatorsPerformanceSnapshot} {table table' : UptimesTable}
variable {snapshot : ValidatorsPerformanceSnapshot} {scan : Scan}

theorem accountedUptimes_empty : AccountedUptimes [] UptimesTable.empty where
  increasing := List.Pairwise.nil
  timelines := uptimesInv_empty
  accounts _ := accounted_nil _ _

/-- One completed run of `store_uptime` keeps the accounts. -/
theorem accountedUptimes_store (hinv : AccountedUptimes snapshots table)
    (hlater : ∀ s ∈ snapshots, s.createdAt < snapshot.createdAt)
    (h : storeUptime scan snapshot table = .ok table') :
    AccountedUptimes (snapshots ++ [snapshot]) table' := by
  refine ⟨?_, storeUptime_inv hinv.timelines hlater h, fun voteAccount => ?_⟩
  · refine List.pairwise_append.mpr ⟨hinv.increasing, List.pairwise_singleton _ _, ?_⟩
    exact fun s hs s' hs' => List.mem_singleton.mp hs' ▸ hlater s hs
  rw [storeUptime_spansOf hinv.timelines.addressed h, sightings_concat]
  cases snapshot.validators.get? voteAccount with
  | none => exact hinv.accounts voteAccount
  | some v => exact accounted_sight (hinv.accounts voteAccount) _ _

/-! ## The sum over the rows -/

/-- The rows with the status `DOWN` are the spans with this label. -/
theorem sum_downRows (rows : List UptimeRow) (voteAccount : String) (epoch : Nat) :
    ((rows.filter fun row => row.epoch = epoch ∧ row.status = .down ∧
        row.voteAccount = voteAccount).map fun row => row.endAt - row.startAt).sum =
      lengthOf (Status.down, epoch) (spansOf rows voteAccount) := by
  unfold lengthOf spansOf uptimesOf
  rw [List.filter_reverse, List.map_reverse, List.sum_reverse, List.filter_map, List.map_map,
    List.filter_filter]
  have hsame : (rows.filter fun row => row.epoch = epoch ∧ row.status = .down ∧
      row.voteAccount = voteAccount) = rows.filter fun row =>
        ((fun s : Span Timestamp (Status × Nat) => decide (s.label = (Status.down, epoch))) ∘
          UptimeRow.span) row && decide (row.voteAccount = voteAccount) := by
    refine List.filter_congr fun row _ => ?_
    rw [Bool.eq_iff_iff, decide_eq_true_iff, Bool.and_eq_true, decide_eq_true_iff]
    show _ ↔ decide ((row.status, row.epoch) = (Status.down, epoch)) = true ∧ _
    rw [decide_eq_true_iff, Prod.mk.injEq]
    tauto
  rw [hsame]
  rfl

/-- **The sum over the rows is the measure of the sightings**; there is no row exactly if it is
zero. -/
theorem downtimeOf_eq (hinv : AccountedUptimes snapshots table) (epoch : Nat)
    (voteAccount : String) :
    downtimeOf table.rows epoch voteAccount =
        (if downFor snapshots voteAccount epoch = 0 then none
          else some (downFor snapshots voteAccount epoch)) ∧
      0 ≤ downFor snapshots voteAccount epoch := by
  have hsum : ((table.rows.filter fun row => row.epoch = epoch ∧ row.status = .down ∧
      row.voteAccount = voteAccount).map fun row => row.endAt - row.startAt).sum =
        downFor snapshots voteAccount epoch :=
    (sum_downRows table.rows voteAccount epoch).trans ((hinv.accounts voteAccount).total _)
  unfold downtimeOf
  cases hrows : table.rows.filter fun row => row.epoch = epoch ∧ row.status = .down ∧
      row.voteAccount = voteAccount with
  | nil =>
    rw [hrows] at hsum
    have hzero : downFor snapshots voteAccount epoch = 0 := hsum.symm
    simp [hzero]
  | cons row rows =>
    rw [hrows] at hsum
    have hpos : 0 < ((row :: rows).map fun row => row.endAt - row.startAt).sum := by
      refine List.sum_pos _ (fun x hx => ?_) (by simp)
      obtain ⟨r, hr, rfl⟩ := List.mem_map.mp hx
      obtain ⟨hmem, hof⟩ := List.mem_filter.mp (hrows ▸ hr)
      have hvote : r.voteAccount = voteAccount := (of_decide_eq_true hof).2.2
      have hproper := (hinv.timelines.timelines voteAccount).proper r.span
        (mem_spansOf.mpr ⟨r, List.mem_filter.mpr ⟨hmem, decide_eq_true hvote⟩, rfl⟩)
      exact sub_pos.mpr hproper
    rw [hsum] at hpos
    refine ⟨?_, hpos.le⟩
    rw [if_neg hpos.ne']
    exact congrArg some hsum

/-- A sighting with the status `DOWN` is that of a snapshot. -/
theorem exists_of_mem_sightings {voteAccount : String} {o : Timestamp × (Status × Nat)}
    (h : o ∈ sightings snapshots voteAccount) :
    ∃ snapshot ∈ snapshots, snapshot.epoch = o.2.2 ∧ snapshot.createdAt = o.1 := by
  obtain ⟨snapshot, hmem, hsome⟩ := List.mem_filterMap.mp (List.mem_reverse.mp h)
  obtain ⟨v, -, rfl⟩ := Option.map_eq_some_iff.mp hsome
  exact ⟨snapshot, hmem, rfl, rfl⟩

/-- Snapshots of the epoch between `first` and `last` see nobody down for six minutes more than
the time in between. -/
theorem downFor_lt (hinv : AccountedUptimes snapshots table) {epoch : Nat}
    {first last : Timestamp} (hle : first ≤ last)
    (hwithin : ∀ snapshot ∈ snapshots, snapshot.epoch = epoch →
      first ≤ snapshot.createdAt ∧ snapshot.createdAt ≤ last) (voteAccount : String) :
    downFor snapshots voteAccount epoch < last - first + 6 * minute := by
  have hof : ∀ o ∈ sightings snapshots voteAccount, o.2 = (Status.down, epoch) →
      first ≤ o.1 ∧ o.1 ≤ last := by
    intro o ho hlabel
    obtain ⟨snapshot, hmem, hepoch, htime⟩ := exists_of_mem_sightings ho
    rw [← htime]
    exact hwithin snapshot hmem (by rw [hepoch, hlabel])
  have hdesc : (sightings snapshots voteAccount).Pairwise fun o o' => o'.1 ≤ o.1 := by
    unfold sightings
    rw [List.pairwise_reverse, List.pairwise_filterMap]
    refine hinv.increasing.imp fun hlt o ho o' ho' => ?_
    obtain ⟨v, -, rfl⟩ := Option.map_eq_some_iff.mp ho
    obtain ⟨v', -, rfl⟩ := Option.map_eq_some_iff.mp ho'
    exact hlt.le
  have hlt := heldFor_lt (l := (Status.down, epoch)) (show 0 ≤ minute by decide)
    (show 0 < statusMaxDelayToExtend by decide) hle hdesc (fun o ho hl => (hof o ho hl).1)
    (fun o ho hl => (hof o ho hl).2) none
  exact hlt

end Accounts

/-! ## What `update_uptimes` writes -/

/-- The share of the epoch that is not downtime; all of it without a downtime. -/
def uptimeShare (epochDuration downtime : Timestamp) : Rat :=
  if downtime = 0 then 1 else max (1 - seconds downtime / seconds epochDuration) 0

/-- A row with the measures of the sightings. -/
def closedUptimes (snapshots : List ValidatorsPerformanceSnapshot) (vars : EpochsRow)
    (row : ValidatorsRow) : ValidatorsRow :=
  if row.epoch = vars.epoch then
    let epochDuration := vars.endAt - vars.startAt
    let downtime := downFor snapshots row.voteAccount vars.epoch
    { row with
      uptimePct := some (uptimeShare epochDuration downtime)
      uptime := some (seconds (max (epochDuration - downtime) 0))
      downtime := some (seconds downtime) }
  else row

/-- The epoch lasted no time, and yet a validator with a row was seen down in it. -/
def DownInNoTime (snapshots : List ValidatorsPerformanceSnapshot) (vars : EpochsRow)
    (validators : List ValidatorsRow) : Prop :=
  vars.startAt = vars.endAt ∧ ∃ row ∈ validators, row.epoch = vars.epoch ∧
    downFor snapshots row.voteAccount vars.epoch ≠ 0

section Closing

variable {epochDuration downtime : Timestamp}

theorem seconds_sub (t u : Timestamp) : seconds (t - u) = seconds t - seconds u := by
  unfold seconds
  push_cast
  ring

theorem seconds_zero : seconds 0 = 0 := by
  simp [seconds]

theorem seconds_pos {t : Timestamp} (h : 0 < t) : 0 < seconds t := by
  unfold seconds
  have hcast : (0 : ℚ) < ((t : Int) : ℚ) := by exact_mod_cast h
  positivity

/-- The clamps of the column are for downtimes that exceed the epoch only. -/
theorem uptimePct_eq (hduration : 0 ≤ epochDuration) (hdowntime : 0 ≤ downtime) :
    uptimePct epochDuration (if downtime = 0 then none else some downtime) =
      if epochDuration = 0 ∧ downtime ≠ 0 then .error .divisionByZero
      else .ok (uptimeShare epochDuration downtime) := by
  unfold uptimePct uptimeShare
  by_cases hzero : downtime = 0
  · simp only [hzero, if_true, ne_eq, not_true_eq_false, and_false, if_false]
    show Except.ok (min (max ((none : Option Rat).getD 1) 0) 1) = _
    simp
  · by_cases hnone : epochDuration = 0
    · simp only [hzero, hnone, if_false, if_true, ne_eq, not_false_eq_true, and_self]
      rfl
    · simp only [hzero, hnone, if_false, false_and]
      show Except.ok (min (max (1 - seconds downtime / seconds epochDuration) 0) 1) = _
      have hshare : 0 ≤ seconds downtime / seconds epochDuration :=
        div_nonneg (seconds_nonneg hdowntime) (seconds_nonneg hduration)
      rw [min_eq_left (max_le (by linarith) zero_le_one)]

/-- **The share is one of the unit interval**, and that of the uptime in the epoch. -/
theorem uptimeShare_spec (hduration : 0 < epochDuration) (hdowntime : 0 ≤ downtime) :
    0 ≤ uptimeShare epochDuration downtime ∧ uptimeShare epochDuration downtime ≤ 1 ∧
      uptimeShare epochDuration downtime * seconds epochDuration =
        seconds (max (epochDuration - downtime) 0) := by
  have hpos := seconds_pos hduration
  unfold uptimeShare
  by_cases hzero : downtime = 0
  · rw [if_pos hzero, hzero, sub_zero, max_eq_left hduration.le, one_mul]
    exact ⟨zero_le_one, le_refl 1, rfl⟩
  · rw [if_neg hzero]
    have hshare : 0 ≤ seconds downtime / seconds epochDuration :=
      div_nonneg (seconds_nonneg hdowntime) hpos.le
    refine ⟨le_max_right _ _, max_le (by linarith) zero_le_one, ?_⟩
    rw [max_mul_of_nonneg _ _ hpos.le, zero_mul, sub_mul, one_mul, div_mul_cancel₀ _ hpos.ne',
      ← seconds_sub]
    rcases le_total 0 (epochDuration - downtime) with hle | hle
    · rw [max_eq_left hle, max_eq_left (seconds_nonneg hle)]
    · have hneg : seconds (epochDuration - downtime) ≤ 0 := by
        have hflip := seconds_nonneg (sub_nonneg.mpr hle)
        rw [seconds_sub, seconds_zero, zero_sub] at hflip
        linarith
      rw [max_eq_right hle, max_eq_right hneg, seconds_zero]

variable {snapshots : List ValidatorsPerformanceSnapshot} {table : UptimesTable}
variable {vars : EpochsRow}

/-- A row of the statement. -/
theorem uptimesRow_eq (hinv : AccountedUptimes snapshots table) (hord : vars.startAt ≤ vars.endAt)
    (row : ValidatorsRow) :
    uptimesRow vars table.rows row =
      if row.epoch = vars.epoch ∧ vars.startAt = vars.endAt ∧
          downFor snapshots row.voteAccount vars.epoch ≠ 0 then .error .divisionByZero
      else .ok (closedUptimes snapshots vars row) := by
  unfold uptimesRow closedUptimes
  by_cases hepoch : row.epoch = vars.epoch
  · obtain ⟨hsum, hnonneg⟩ := downtimeOf_eq hinv vars.epoch row.voteAccount
    have hduration : 0 ≤ vars.endAt - vars.startAt := sub_nonneg.mpr hord
    have hzero : vars.endAt - vars.startAt = 0 ↔ vars.startAt = vars.endAt := by
      rw [sub_eq_zero]
      exact eq_comm
    simp only [hepoch, if_true, true_and, hsum, uptimePct_eq hduration hnonneg, hzero]
    by_cases hstuck : vars.startAt = vars.endAt ∧
        downFor snapshots row.voteAccount vars.epoch ≠ 0
    · rw [if_pos hstuck, if_pos hstuck]
      rfl
    · rw [if_neg hstuck, if_neg hstuck]
      -- without a row of the sum both columns are those of a downtime of zero
      by_cases hdown : downFor snapshots row.voteAccount vars.epoch = 0
      · simp [hdown, Bind.bind, Except.bind]
      · simp [hdown, Bind.bind, Except.bind]
  · rw [if_neg hepoch, if_neg hepoch, if_neg fun h => hepoch h.1]

/-- **What `update_uptimes` writes**: the measures of the sightings, unless it divides by zero. -/
theorem updateUptimes_eq {db : Database} {epoch : Nat} (hinv : AccountedUptimes snapshots table)
    (huptimes : db.uptimes = table.rows) (hord : vars.startAt ≤ vars.endAt)
    (hfind : (db.epochs.find? fun row => row.epoch = epoch) = some vars) :
    (DownInNoTime snapshots vars db.validators ∧
        updateUptimes epoch db = .error .divisionByZero) ∨
      (¬ DownInNoTime snapshots vars db.validators ∧ updateUptimes epoch db =
        .ok { db with validators := db.validators.map (closedUptimes snapshots vars) }) := by
  unfold updateUptimes
  simp only [hfind, huptimes]
  by_cases hstuck : DownInNoTime snapshots vars db.validators
  · refine Or.inl ⟨hstuck, ?_⟩
    obtain ⟨hnone, row, hrow, hepoch, hdown⟩ := hstuck
    have herror : db.validators.mapM (uptimesRow vars table.rows) = .error .divisionByZero := by
      refine mapM_eq_error (fun row' _ => ?_) ⟨row, hrow, ?_⟩
      · rw [uptimesRow_eq hinv hord]
        split
        · exact Or.inl rfl
        · exact Or.inr ⟨_, rfl⟩
      · rw [uptimesRow_eq hinv hord, if_pos ⟨hepoch, hnone, hdown⟩]
    rw [herror]
    rfl
  · refine Or.inr ⟨hstuck, ?_⟩
    have hrows : db.validators.mapM (uptimesRow vars table.rows) =
        .ok (db.validators.map (closedUptimes snapshots vars)) := by
      refine mapM_eq_ok fun row hrow => ?_
      rw [uptimesRow_eq hinv hord, if_neg]
      rintro ⟨hepoch, hnone, hdown⟩
      exact hstuck ⟨hnone, row, hrow, hepoch, hdown⟩
    rw [hrows]
    rfl

end Closing

/-! ## Runs -/

/-- The database, the sequence behind `uptimes.id`, and the snapshots that `store_uptime` has
stored; no command reads the last. -/
structure UptimeWorld where
  db : Database
  nextId : Nat
  stored : List ValidatorsPerformanceSnapshot

/-- The table of `store_uptime`. -/
def UptimeWorld.table (w : UptimeWorld) : UptimesTable := ⟨w.db.uptimes, w.nextId⟩

inductive UptimeMove where
  | storeUptime (scan : Scan) (snapshot : ValidatorsPerformanceSnapshot)
  | epochs (step : EpochStep)
  | updateUptimes (epoch : Nat)
  /-- Whatever the other commands make of `validators`. -/
  | replaceValidators (validators : List ValidatorsRow)

/-- A run of `store_uptime` that fails is no step; elsewhere a statement that fails changes
nothing. -/
def uptimeMove (w : UptimeWorld) : UptimeMove → Option UptimeWorld
  | .storeUptime scan snapshot =>
    match storeUptime scan snapshot w.table with
    | .ok table => some
        { db := { w.db with uptimes := table.rows }
          nextId := table.nextId
          stored := w.stored ++ [snapshot] }
    | .error _ => none
  | .epochs step => (epochStep w.db step).map fun db => { w with db := db }
  | .updateUptimes epoch =>
    match updateUptimes epoch w.db with
    | .ok db => some { w with db := db }
    | .error _ => some w
  | .replaceValidators validators => some { w with db := { w.db with validators := validators } }

/-- A snapshot of `store_uptime` is later than those before it, and what is added to
`cluster_info` belongs to the history. -/
def MovesOn (history : List ClusterInfoRow) (w : UptimeWorld) : UptimeMove → Prop
  | .storeUptime _ snapshot => ∀ s ∈ w.stored, s.createdAt < snapshot.createdAt
  | .epochs step => AddsOnly history step
  | .updateUptimes _ => True
  | .replaceValidators _ => True

structure UptimeWorldInv (history : List ClusterInfoRow) (w : UptimeWorld) : Prop where
  epochs : EpochsInv history w.db
  uptimes : AccountedUptimes w.stored w.table

section Moves

variable {history : List ClusterInfoRow} {w w' : UptimeWorld}

/-- The records of the epochs are not touched by statements on other tables. -/
theorem EpochsInv.congr {db db' : Database} (h : EpochsInv history db)
    (hepochs : db'.epochs = db.epochs) (hclusterInfo : db'.clusterInfo = db.clusterInfo) :
    EpochsInv history db' where
  clusterInfo := hclusterInfo ▸ h.clusterInfo
  origin := hepochs ▸ h.origin
  distinct := hepochs ▸ h.distinct
  adjacent := hepochs ▸ h.adjacent

/-- The query finds the record of the epoch. -/
theorem EpochsInv.find?_epoch {db : Database} (h : EpochsInv history db) {vars : EpochsRow}
    (hvars : vars ∈ db.epochs) :
    (db.epochs.find? fun row => row.epoch = vars.epoch) = some vars := by
  cases hfind : db.epochs.find? fun row => row.epoch = vars.epoch with
  | none => simpa using List.find?_eq_none.mp hfind vars hvars
  | some found =>
    have hepoch : found.epoch = vars.epoch := by simpa using List.find?_some hfind
    rw [List.inj_on_of_nodup_map h.distinct (List.mem_of_find?_eq_some hfind) hvars hepoch]

/-- The commands on the epochs leave `uptimes` alone. -/
theorem epochStep_uptimes {db db' : Database} {step : EpochStep}
    (h : epochStep db step = some db') : db'.uptimes = db.uptimes := by
  cases step with
  | storeClusterInfo snapshot =>
    obtain rfl := Option.some.inj h
    rfl
  | createEpochRecord epoch clusterInflation =>
    unfold epochStep at h
    cases hrun : createEpochRecord epoch clusterInflation db with
    | ok db₁ =>
      simp only [hrun] at h
      obtain rfl := Option.some.inj h
      obtain ⟨row, -, -, rfl⟩ := createEpochRecord_eq_ok.mp hrun
      rfl
    | error e =>
      simp only [hrun] at h
      obtain rfl := Option.some.inj h
      rfl

theorem uptimeWorldInv_move {move : UptimeMove} (hinv : UptimeWorldInv history w)
    (hmove : MovesOn history w move) (h : uptimeMove w move = some w') :
    UptimeWorldInv history w' := by
  cases move with
  | storeUptime scan snapshot =>
    unfold uptimeMove at h
    cases hstore : storeUptime scan snapshot w.table with
    | ok table =>
      simp only [hstore] at h
      obtain rfl := Option.some.inj h
      exact ⟨hinv.epochs.congr rfl rfl, accountedUptimes_store hinv.uptimes hmove hstore⟩
    | error e =>
      simp only [hstore] at h
      cases h
  | epochs step =>
    obtain ⟨db, hdb, rfl⟩ := Option.map_eq_some_iff.mp h
    refine ⟨epochsInv_step hinv.epochs hmove hdb, ?_⟩
    unfold UptimeWorld.table
    rw [epochStep_uptimes hdb]
    exact hinv.uptimes
  | updateUptimes epoch =>
    unfold uptimeMove at h
    cases hupdate : updateUptimes epoch w.db with
    | ok db =>
      simp only [hupdate] at h
      obtain rfl := Option.some.inj h
      rcases updateUptimes_eq_ok hupdate with rfl | ⟨vars, -, rfl⟩
      · exact hinv
      · exact ⟨hinv.epochs.congr rfl rfl, hinv.uptimes⟩
    | error e =>
      simp only [hupdate] at h
      obtain rfl := Option.some.inj h
      exact hinv
  | replaceValidators validators =>
    obtain rfl := Option.some.inj h
    exact ⟨hinv.epochs.congr rfl rfl, hinv.uptimes⟩

end Moves

/-- What closing an epoch writes into the columns of the uptimes. -/
structure ClosesUptimes (w : UptimeWorld) (vars : EpochsRow) : Prop where
  /-- The measures of the sightings, unless the statement divides by zero. -/
  writes : (DownInNoTime w.stored vars w.db.validators ∧
      updateUptimes vars.epoch w.db = .error .divisionByZero) ∨
    (¬ DownInNoTime w.stored vars w.db.validators ∧ updateUptimes vars.epoch w.db =
      .ok { w.db with validators := w.db.validators.map (closedUptimes w.stored vars) })
  /-- The share is that of the uptime, which is not negative. -/
  share : vars.startAt < vars.endAt → ∀ voteAccount,
    let epochDuration := vars.endAt - vars.startAt
    let share := uptimeShare epochDuration (downFor w.stored voteAccount vars.epoch)
    0 ≤ share ∧ share ≤ 1 ∧ share * seconds epochDuration =
      seconds (max (epochDuration - downFor w.stored voteAccount vars.epoch) 0)
  /-- Snapshots within the epoch see nobody down for six minutes more than the epoch. -/
  within : (∀ snapshot ∈ w.stored, snapshot.epoch = vars.epoch →
      vars.startAt ≤ snapshot.createdAt ∧ snapshot.createdAt ≤ vars.endAt) → ∀ voteAccount,
    0 ≤ downFor w.stored voteAccount vars.epoch ∧
      downFor w.stored voteAccount vars.epoch < vars.endAt - vars.startAt + 6 * minute

end DelegationStrategy.Store
