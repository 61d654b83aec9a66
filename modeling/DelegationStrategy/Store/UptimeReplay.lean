import DelegationStrategy.Store.UptimeRuns

/-!
# Running `store_uptime` again

A run of `store_uptime` is repeated with the same snapshot, after it completed or after
it stopped between its two statements. The decisions of the second run rest on ends that
the first one has already moved, and on which row of a vote account now is the latest.

Rows of a table may have been closed before their start, and two rows of a vote account
may end at the same time. But of two rows one always ends no later than some row starts
(`Overtaken`): the runs, in whatever order and wherever they stopped, keep this. So when
a snapshot is later than every start, all rows but the latest end before the snapshot,
and what the `UPDATE` writes into the latest is decided in the same way again
(`Settled`).
-/

namespace DelegationStrategy.Store

open DelegationStrategy.Lib DelegationStrategy.Collect

/-- Of two rows of a vote account, one ends no later than some row starts. -/
def Overtaken (rows : List UptimeRow) : Prop :=
  ∀ row ∈ rows, ∀ row' ∈ rows, row.voteAccount = row'.voteAccount → row ≠ row' →
    ∃ r ∈ rows, row.endAt ≤ r.startAt ∨ row'.endAt ≤ r.startAt

/-- What every run keeps, in any order of the snapshots. -/
structure ReplayInv (table : UptimesTable) : Prop where
  ids : UptimeIds table
  overtaken : Overtaken table.rows

/-- No row of the vote account ends later. -/
def Top (rows : List UptimeRow) (row : UptimeRow) : Prop :=
  row ∈ rows ∧ ∀ r ∈ rows, r.voteAccount = row.voteAccount → r.endAt ≤ row.endAt

section Latest

variable {scan : Scan} {rows : List UptimeRow} {row latest : UptimeRow}

/-- The query returns a latest row. -/
theorem top_of_mem_latestUptimes (h : row ∈ latestUptimes scan rows) : Top rows row := by
  refine ⟨mem_of_mem_latestUptimes h, fun r hr hkey => ?_⟩
  unfold latestUptimes at h
  rw [mem_distinctOn] at h
  exact (latest_spec h).2.2 r (by simpa using hr) hkey

/-- It returns one for each vote account, -/
theorem exists_mem_latestUptimes (scan : Scan) (h : row ∈ rows) :
    ∃ latest ∈ latestUptimes scan rows, latest.voteAccount = row.voteAccount :=
  exists_mem_distinctOn (by simpa using h)

/-- and only one. -/
theorem eq_of_mem_latestUptimes (h : row ∈ latestUptimes scan rows)
    (hlatest : latest ∈ latestUptimes scan rows)
    (hkey : row.voteAccount = latest.voteAccount) : row = latest :=
  List.inj_on_of_nodup_map (nodup_distinctOn (scan.order rows)) h hlatest hkey

/-- A row that is not the latest ends no later than some row starts. -/
theorem Overtaken.of_ne (h : Overtaken rows) (hlatest : latest ∈ latestUptimes scan rows)
    (hrow : row ∈ rows) (hkey : row.voteAccount = latest.voteAccount) (hne : row ≠ latest) :
    ∃ r ∈ rows, row.endAt ≤ r.startAt := by
  obtain ⟨hmem, htop⟩ := top_of_mem_latestUptimes hlatest
  obtain ⟨r, hr, hle | hle⟩ := h row hrow latest hmem hkey hne
  · exact ⟨r, hr, hle⟩
  · exact ⟨r, hr, (htop row hrow hkey).trans hle⟩

end Latest

section Run

variable {scan scan' : Scan} {snapshot : ValidatorsPerformanceSnapshot}
  {table : UptimesTable} {row latest : UptimeRow}

/-- The `UPDATE` changes latest rows only. -/
theorem extend_of_not_latest (hids : UptimeIds table) (hrow : row ∈ table.rows)
    (hlatest : row ∉ latestUptimes scan table.rows) :
    row.extend (recordsExtensions snapshot scan table.rows) = row := by
  rw [extend_eq_of_mem hids hrow, if_neg hlatest]

/-- The ends that the loop records. -/
theorem recordExtension_cases {endAt : Timestamp}
    (h : recordExtension snapshot row = some endAt) :
    Touches snapshot row ∧
      ((endAt = defaultStatusEndAt snapshot ∧ hasExtendedStatus snapshot row = true) ∨
        (endAt = snapshot.createdAt ∧ hasExtendedStatus snapshot row = false)) := by
  have htouch := isSome_recordExtension.mp (Option.isSome_iff_exists.mpr ⟨endAt, h⟩)
  refine ⟨htouch, ?_⟩
  obtain ⟨⟨_, v⟩, hmem, hkey⟩ := List.mem_map.mp htouch.1
  have hget : snapshot.validators.get? row.voteAccount = some v :=
    Dict.get?_of_mem (hkey ▸ hmem)
  unfold recordExtension at h
  unfold hasExtendedStatus
  rw [hget] at h ⊢
  dsimp only at h ⊢
  rw [if_pos htouch.2] at h
  by_cases hsame : SameStatus snapshot row v
  · rw [if_pos hsame] at h
    exact Or.inl ⟨(Option.some.inj h).symm, by simp [htouch.2, hsame]⟩
  · rw [if_neg hsame] at h
    exact Or.inr ⟨(Option.some.inj h).symm, by simp [hsame]⟩

/-- The `UPDATE` leaves a row alone, or gives the latest row its new end. -/
theorem extend_cases (hids : UptimeIds table) (hrow : row ∈ table.rows) :
    row.extend (recordsExtensions snapshot scan table.rows) = row ∨
      (row ∈ latestUptimes scan table.rows ∧ ∃ endAt,
        recordExtension snapshot row = some endAt ∧
        row.extend (recordsExtensions snapshot scan table.rows) =
          { row with endAt := endAt }) := by
  rw [extend_eq_of_mem hids hrow]
  by_cases hlatest : row ∈ latestUptimes scan table.rows
  · rw [if_pos hlatest]
    cases hext : recordExtension snapshot row with
    | none => exact Or.inl rfl
    | some endAt => exact Or.inr ⟨hlatest, endAt, rfl, rfl⟩
  · exact Or.inl (if_neg hlatest)

/-! ## The invariant -/

/-- The `UPDATE` moves ends of latest rows only. -/
theorem Overtaken.extend (hids : UptimeIds table) (h : Overtaken table.rows) :
    Overtaken (table.extend (recordsExtensions snapshot scan table.rows)).rows := by
  -- a row that is not the latest stays overtaken
  have hone : ∀ row ∈ table.rows, row ∉ latestUptimes scan table.rows →
      ∃ r ∈ (table.extend (recordsExtensions snapshot scan table.rows)).rows,
        (row.extend (recordsExtensions snapshot scan table.rows)).endAt ≤ r.startAt := by
    intro row hrow hnot
    obtain ⟨latest, hlatest, hkey⟩ := exists_mem_latestUptimes scan hrow
    have hne : row ≠ latest := fun heq => hnot (heq ▸ hlatest)
    obtain ⟨r, hr, hle⟩ := h.of_ne hlatest hrow hkey.symm hne
    rw [extend_of_not_latest hids hrow hnot]
    exact ⟨_, List.mem_map_of_mem hr, by rw [extend_startAt]; exact hle⟩
  intro row hrow row' hrow' hkey hne
  obtain ⟨row, hold, rfl⟩ := List.mem_map.mp hrow
  obtain ⟨row', hold', rfl⟩ := List.mem_map.mp hrow'
  rw [extend_voteAccount, extend_voteAccount] at hkey
  by_cases hlatest : row ∈ latestUptimes scan table.rows
  · have hnot : row' ∉ latestUptimes scan table.rows := fun hlatest' =>
      hne (congrArg _ (eq_of_mem_latestUptimes hlatest hlatest' hkey))
    obtain ⟨r, hr, hle⟩ := hone row' hold' hnot
    exact ⟨r, hr, Or.inr hle⟩
  · obtain ⟨r, hr, hle⟩ := hone row hold hlatest
    exact ⟨r, hr, Or.inl hle⟩

/-- A row opened by the `INSERT`. -/
theorem mem_openedRows {extended : List String} {nextId : Nat}
    (h : row ∈ openedRows snapshot extended nextId) :
    row.voteAccount ∉ extended ∧ row.startAt = snapshot.createdAt ∧
      row.endAt = defaultStatusEndAt snapshot ∧
      ∃ v, snapshot.validators.get? row.voteAccount = some v ∧ SameStatus snapshot row v := by
  obtain ⟨⟨⟨voteAccount, v⟩, id⟩, hmem, rfl⟩ := List.mem_map.mp h
  obtain ⟨hentry, hnot⟩ := List.mem_filter.mp (List.fst_mem_of_mem_zipIdx hmem)
  exact ⟨by simpa using hnot, rfl, rfl, v, Dict.get?_of_mem hentry, rfl, rfl⟩

/-- The `INSERT` opens one row for each vote account. -/
theorem eq_of_mem_openedRows {extended : List String} {nextId : Nat} {row' : UptimeRow}
    (h : row ∈ openedRows snapshot extended nextId)
    (h' : row' ∈ openedRows snapshot extended nextId)
    (hkey : row.voteAccount = row'.voteAccount) : row = row' :=
  List.inj_on_of_nodup_map (nodup_openedRows extended nextId) h h' hkey

/-- A vote account whose status was extended. -/
theorem mem_extended_iff (hlatest : latest ∈ latestUptimes scan table.rows) :
    latest.voteAccount ∈ validatorsWithExtendedStatus snapshot scan table.rows ↔
      hasExtendedStatus snapshot latest = true := by
  unfold validatorsWithExtendedStatus
  rw [List.mem_map]
  constructor
  · rintro ⟨row, hrow, hkey⟩
    obtain ⟨hrow, hext⟩ := List.mem_filter.mp hrow
    exact eq_of_mem_latestUptimes hrow hlatest hkey ▸ hext
  · intro hext
    exact ⟨latest, List.mem_filter.mpr ⟨hlatest, hext⟩, rfl⟩

/-- A vote account without an extended status: its rows end before the snapshot, or
before some row starts, once the `UPDATE` is done. -/
theorem endAt_of_not_extended (hids : UptimeIds table) (h : Overtaken table.rows)
    (hrow : row ∈ table.rows) (hkey : row.voteAccount ∈ snapshot.validators.keys)
    (hnot : row.voteAccount ∉ validatorsWithExtendedStatus snapshot scan table.rows) :
    (row.extend (recordsExtensions snapshot scan table.rows)).endAt ≤ snapshot.createdAt ∨
      ∃ r ∈ table.rows,
        (row.extend (recordsExtensions snapshot scan table.rows)).endAt ≤ r.startAt := by
  by_cases hlatest : row ∈ latestUptimes scan table.rows
  · rw [extend_eq_of_mem hids hrow, if_pos hlatest]
    rw [mem_extended_iff hlatest] at hnot
    refine Or.inl ?_
    cases hext : recordExtension snapshot row with
    | none =>
      -- too old for the snapshot
      have hfar : ¬ snapshot.createdAt < row.endAt + statusMaxDelayToExtend := by
        intro hnear
        have hsome := isSome_recordExtension.mpr ⟨hkey, hnear⟩
        rw [hext] at hsome
        cases hsome
      exact (Int.le_add_of_nonneg_right (by decide)).trans (not_lt.mp hfar)
    | some endAt =>
      rcases (recordExtension_cases hext).2 with ⟨-, hextended⟩ | ⟨rfl, -⟩
      · exact absurd hextended hnot
      · exact le_refl _
  · obtain ⟨latest, hmem, hsame⟩ := exists_mem_latestUptimes scan hrow
    have hne : row ≠ latest := fun heq => hlatest (heq ▸ hmem)
    rw [extend_of_not_latest hids hrow hlatest]
    exact Or.inr (h.of_ne hmem hrow hsame.symm hne)

/-- The rows that the `INSERT` opens overtake the others of their vote account. -/
theorem Overtaken.openRows (hids : UptimeIds table) (h : Overtaken table.rows) :
    Overtaken ((table.extend (recordsExtensions snapshot scan table.rows)).openRows snapshot
      (validatorsWithExtendedStatus snapshot scan table.rows)).rows := by
  -- an old row of a vote account with an opened one
  have hopened : ∀ row ∈ (table.extend (recordsExtensions snapshot scan table.rows)).rows,
      ∀ new ∈ openedRows snapshot (validatorsWithExtendedStatus snapshot scan table.rows)
        table.nextId, row.voteAccount = new.voteAccount →
        ∃ r ∈ ((table.extend (recordsExtensions snapshot scan table.rows)).openRows snapshot
          (validatorsWithExtendedStatus snapshot scan table.rows)).rows,
          row.endAt ≤ r.startAt := by
    intro row hrow new hnew hkey
    obtain ⟨row, hold, rfl⟩ := List.mem_map.mp hrow
    obtain ⟨hnot, hstart, -, v, hget, -⟩ := mem_openedRows hnew
    rw [extend_voteAccount] at hkey
    rw [← hkey] at hnot hget
    have hmem : row.voteAccount ∈ snapshot.validators.keys :=
      List.mem_map.mpr ⟨_, Dict.mem_of_get? hget, rfl⟩
    rcases endAt_of_not_extended hids h hold hmem hnot with hle | ⟨r, hr, hle⟩
    · exact ⟨new, List.mem_append_right _ hnew, by rw [hstart]; exact hle⟩
    · exact ⟨_, List.mem_append_left _ (List.mem_map_of_mem hr), by
        rw [extend_startAt]; exact hle⟩
  intro row hrow row' hrow' hkey hne
  rcases List.mem_append.mp hrow with hold | hnew <;>
    rcases List.mem_append.mp hrow' with hold' | hnew'
  · obtain ⟨r, hr, hle⟩ := h.extend hids row hold row' hold' hkey hne
    exact ⟨r, List.mem_append_left _ hr, hle⟩
  · obtain ⟨r, hr, hle⟩ := hopened row hold row' hnew' hkey
    exact ⟨r, hr, Or.inl hle⟩
  · obtain ⟨r, hr, hle⟩ := hopened row' hold' row hnew hkey.symm
    exact ⟨r, hr, Or.inr hle⟩
  · exact absurd (eq_of_mem_openedRows hnew hnew' hkey) hne

/-- One run keeps the invariant, interrupted or not. -/
theorem replayInv_step {run : UptimeRun} (h : ReplayInv table) :
    ReplayInv (runUptime run table).1 := by
  refine ⟨uptimeIds_step run h.ids, ?_⟩
  rcases runUptime_cases run h.ids with ⟨-, hkeep⟩ | ⟨-, hupdated | hstored⟩
  · rw [hkeep]
    exact h.overtaken
  · rw [hupdated]
    exact h.overtaken.extend h.ids
  · rw [hstored]
    exact h.overtaken.openRows h.ids

end Run

theorem replayInv_empty : ReplayInv UptimesTable.empty where
  ids := uptimeIds_empty
  overtaken _ hrow := nomatch hrow

/-- Every table that runs produce satisfies the invariant. -/
theorem replayInv_of_exec {runs : List UptimeRun} {table : UptimesTable}
    (h : exec uptimeStep UptimesTable.empty runs = some table) : ReplayInv table := by
  have hall : StatesAll uptimeStep ReplayInv UptimesTable.empty runs := by
    refine statesAll_of_invariant ?_ replayInv_empty runs
    rintro table run _ hinv ⟨⟩
    exact replayInv_step hinv
  exact hall.last h

/-! ## Deciding again -/

theorem createdAt_lt_defaultStatusEndAt (snapshot : ValidatorsPerformanceSnapshot) :
    snapshot.createdAt < defaultStatusEndAt snapshot :=
  Int.lt_add_of_pos_right _ (by decide)

/-- Another reading of the same file: the hash map may be iterated in another order. -/
structure SameFile (snapshot snapshot' : ValidatorsPerformanceSnapshot) : Prop where
  same : snapshot' = { snapshot with validators := snapshot'.validators }
  perm : snapshot'.validators.entries.Perm snapshot.validators.entries

/-- The loop over the latest rows would record the ends they have. -/
def Settled (snapshot : ValidatorsPerformanceSnapshot) (rows : List UptimeRow) : Prop :=
  ∀ row, Top rows row → ∀ endAt, recordExtension snapshot row = some endAt →
    endAt = row.endAt

section Again

variable {scan scan' : Scan} {snapshot snapshot' : ValidatorsPerformanceSnapshot}
  {table : UptimesTable} {row latest : UptimeRow}

theorem SameFile.createdAt (h : SameFile snapshot snapshot') :
    snapshot'.createdAt = snapshot.createdAt := by rw [h.same]

theorem SameFile.get? (h : SameFile snapshot snapshot') (voteAccount : String) :
    snapshot'.validators.get? voteAccount = snapshot.validators.get? voteAccount :=
  Dict.get?_perm h.perm voteAccount

theorem SameFile.recordExtension (h : SameFile snapshot snapshot') (row : UptimeRow) :
    recordExtension snapshot' row = recordExtension snapshot row := by
  unfold Store.recordExtension
  rw [h.get?, h.same]
  rfl

theorem SameFile.hasExtendedStatus (h : SameFile snapshot snapshot') (row : UptimeRow) :
    hasExtendedStatus snapshot' row = hasExtendedStatus snapshot row := by
  unfold Store.hasExtendedStatus
  rw [h.get?, h.same]
  rfl

theorem SameFile.touches (h : SameFile snapshot snapshot') (row : UptimeRow) :
    Touches snapshot' row ↔ Touches snapshot row := by
  rw [← isSome_recordExtension, ← isSome_recordExtension, h.recordExtension]

theorem Settled.sameFile {rows : List UptimeRow} (h : Settled snapshot rows)
    (hfile : SameFile snapshot snapshot') : Settled snapshot' rows := by
  intro row htop endAt hext
  rw [hfile.recordExtension] at hext
  exact h row htop endAt hext

/-- On settled rows the `UPDATE` writes what is there. -/
theorem Settled.extend_eq (scan : Scan) (hids : UptimeIds table) (h : Settled snapshot table.rows) :
    table.extend (recordsExtensions snapshot scan table.rows) = table := by
  have hrow : ∀ row ∈ table.rows,
      row.extend (recordsExtensions snapshot scan table.rows) = row := by
    intro row hrow
    rcases extend_cases hids hrow with hkeep | ⟨hlatest, endAt, hext, heq⟩
    · exact hkeep
    · rw [heq, h row (top_of_mem_latestUptimes hlatest) endAt hext]
  show UptimesTable.mk (table.rows.map _) table.nextId = table
  rw [List.map_congr_left hrow, List.map_id']

/-- A row that got its new end is touched again, and gets the same end. -/
theorem recordExtension_again {endAt : Timestamp}
    (h : recordExtension snapshot latest = some endAt) :
    recordExtension snapshot { latest with endAt := endAt } = some endAt ∧
      hasExtendedStatus snapshot { latest with endAt := endAt } =
        hasExtendedStatus snapshot latest := by
  obtain ⟨⟨hkey, hnear⟩, hcases⟩ := recordExtension_cases h
  have hnear' : snapshot.createdAt < endAt + statusMaxDelayToExtend := by
    have hdelay : (0 : Int) < statusMaxDelayToExtend := by decide
    rcases hcases with ⟨rfl, -⟩ | ⟨rfl, -⟩
    · exact (createdAt_lt_defaultStatusEndAt snapshot).trans (Int.lt_add_of_pos_right _ hdelay)
    · exact Int.lt_add_of_pos_right _ hdelay
  obtain ⟨⟨_, v⟩, hmem, hkey⟩ := List.mem_map.mp hkey
  have hget : snapshot.validators.get? latest.voteAccount = some v :=
    Dict.get?_of_mem (hkey ▸ hmem)
  -- neither the status nor the epoch has changed
  have hsame : SameStatus snapshot { latest with endAt := endAt } v ↔
      SameStatus snapshot latest v := Iff.rfl
  unfold recordExtension at h ⊢
  unfold hasExtendedStatus
  rw [hget] at h ⊢
  dsimp only at h ⊢
  rw [if_pos hnear] at h
  rw [if_pos hnear', ← h]
  simp [hnear, hnear', hsame]

/-- All rows of a vote account but the latest end before the snapshot. -/
theorem endAt_lt_of_ne (hinv : ReplayInv table)
    (hlater : ∀ row ∈ table.rows, row.startAt < snapshot.createdAt)
    (hlatest : latest ∈ latestUptimes scan table.rows) (hrow : row ∈ table.rows)
    (hkey : row.voteAccount = latest.voteAccount) (hne : row ≠ latest) :
    row.endAt < snapshot.createdAt := by
  obtain ⟨r, hr, hle⟩ := hinv.overtaken.of_ne hlatest hrow hkey hne
  exact hle.trans_lt (hlater r hr)

theorem not_touches_of_none (h : recordExtension snapshot row = none) :
    ¬ Touches snapshot row := by
  rw [← isSome_recordExtension, h]
  simp

/-- **The latest row stays the latest**: after the `UPDATE` a latest row of a vote account
is the row that got a new end or, if none did, one that gets none either. -/
theorem top_extend (hinv : ReplayInv table)
    (hlater : ∀ row ∈ table.rows, row.startAt < snapshot.createdAt)
    (hlatest : latest ∈ latestUptimes scan table.rows)
    (htop : Top (table.extend (recordsExtensions snapshot scan table.rows)).rows row)
    (hkey : row.voteAccount = latest.voteAccount) :
    (∃ endAt, recordExtension snapshot latest = some endAt ∧
        row = { latest with endAt := endAt }) ∨
      (¬ Touches snapshot latest ∧ ¬ Touches snapshot row) := by
  obtain ⟨hmem, hmax⟩ := htop
  obtain ⟨old, hold, rfl⟩ := List.mem_map.mp hmem
  obtain ⟨hmem', hmax'⟩ := top_of_mem_latestUptimes hlatest
  rw [extend_voteAccount] at hkey
  have hle := hmax _ (List.mem_map_of_mem hmem') (by
    rw [extend_voteAccount, extend_voteAccount]; exact hkey.symm)
  rw [extend_eq_of_mem hinv.ids hmem', if_pos hlatest] at hle
  by_cases hsame : old = latest
  · -- the row that the query returned
    subst hsame
    rw [extend_eq_of_mem hinv.ids hold, if_pos hlatest]
    cases hext : recordExtension snapshot old with
    | some endAt => exact Or.inl ⟨endAt, rfl, rfl⟩
    | none => exact Or.inr ⟨not_touches_of_none hext, not_touches_of_none hext⟩
  · have hnot : old ∉ latestUptimes scan table.rows := fun h =>
      hsame (eq_of_mem_latestUptimes h hlatest hkey)
    rw [extend_of_not_latest hinv.ids hold hnot] at hle ⊢
    have hlt := endAt_lt_of_ne hinv hlater hlatest hold hkey hsame
    cases hext : recordExtension snapshot latest with
    | some endAt =>
      -- it would end before the snapshot, and so before the new end
      rw [hext] at hle
      have hle' : endAt ≤ old.endAt := hle
      rcases (recordExtension_cases hext).2 with ⟨rfl, -⟩ | ⟨rfl, -⟩
      · exact absurd hle' (not_le.mpr (hlt.trans (createdAt_lt_defaultStatusEndAt snapshot)))
      · exact absurd hle' (not_le.mpr hlt)
    | none =>
      rw [hext] at hle
      have hends : old.endAt = latest.endAt := le_antisymm (hmax' old hold hkey) hle
      have hnot := not_touches_of_none hext
      refine Or.inr ⟨hnot, ?_⟩
      unfold Touches at hnot ⊢
      rw [hkey, hends]
      exact hnot

/-- A latest row after the `UPDATE` belongs to a row that the query returned before. -/
theorem exists_latest_of_top
    (htop : Top (table.extend (recordsExtensions snapshot scan table.rows)).rows row) :
    ∃ latest ∈ latestUptimes scan table.rows, latest.voteAccount = row.voteAccount := by
  obtain ⟨old, hold, rfl⟩ := List.mem_map.mp htop.1
  rw [extend_voteAccount]
  exact exists_mem_latestUptimes scan hold

theorem settled_extend (scan : Scan) (hinv : ReplayInv table)
    (hlater : ∀ row ∈ table.rows, row.startAt < snapshot.createdAt) :
    Settled snapshot (table.extend (recordsExtensions snapshot scan table.rows)).rows := by
  intro row htop endAt hext
  obtain ⟨latest, hlatest, hkey⟩ := exists_latest_of_top htop
  rcases top_extend hinv hlater hlatest htop hkey.symm with
    ⟨endAt', hext', rfl⟩ | ⟨-, hnot⟩
  · rw [(recordExtension_again hext').1] at hext
    exact (Option.some.inj hext).symm
  · exact absurd (isSome_recordExtension.mp (Option.isSome_iff_exists.mpr ⟨endAt, hext⟩)) hnot

theorem touches_of_extended (h : hasExtendedStatus snapshot row = true) :
    Touches snapshot row := by
  unfold hasExtendedStatus at h
  cases hget : snapshot.validators.get? row.voteAccount with
  | none =>
    rw [hget] at h
    cases h
  | some v =>
    rw [hget] at h
    dsimp only at h
    rw [Bool.and_eq_true, decide_eq_true_iff] at h
    exact ⟨List.mem_map.mpr ⟨_, Dict.mem_of_get? hget, rfl⟩, h.1⟩

/-- The loop decides for a latest row after the `UPDATE` what it decided before. -/
theorem decided_again (hinv : ReplayInv table)
    (hlater : ∀ row ∈ table.rows, row.startAt < snapshot.createdAt)
    (hlatest : latest ∈ latestUptimes scan table.rows)
    (htop : Top (table.extend (recordsExtensions snapshot scan table.rows)).rows row)
    (hkey : row.voteAccount = latest.voteAccount) :
    (Touches snapshot row ↔ Touches snapshot latest) ∧
      hasExtendedStatus snapshot row = hasExtendedStatus snapshot latest := by
  rcases top_extend hinv hlater hlatest htop hkey with ⟨endAt, hext, rfl⟩ | ⟨hnot, hnot'⟩
  · obtain ⟨hagain, hstatus⟩ := recordExtension_again hext
    refine ⟨?_, hstatus⟩
    rw [← isSome_recordExtension, ← isSome_recordExtension, hagain, hext]
  · refine ⟨⟨fun h => absurd h hnot', fun h => absurd h hnot⟩, ?_⟩
    rw [Bool.eq_iff_iff]
    constructor
    · exact fun h => absurd (touches_of_extended h) hnot'
    · exact fun h => absurd (touches_of_extended h) hnot

/-- A property that is decided in the same way selects the same vote accounts. -/
theorem latest_filter_perm (scan' : Scan) {p : UptimeRow → Bool}
    (hp : ∀ row, Top (table.extend (recordsExtensions snapshot scan table.rows)).rows row →
      ∀ latest ∈ latestUptimes scan table.rows, row.voteAccount = latest.voteAccount →
        p row = p latest) :
    (((latestUptimes scan' (table.extend
          (recordsExtensions snapshot scan table.rows)).rows).filter p).map
        UptimeRow.voteAccount).Perm
      (((latestUptimes scan table.rows).filter p).map UptimeRow.voteAccount) := by
  have hnodup : ∀ (scan : Scan) (rows : List UptimeRow),
      (((latestUptimes scan rows).filter p).map UptimeRow.voteAccount).Nodup :=
    fun scan rows => (nodup_distinctOn (scan.order rows)).sublist (List.filter_sublist.map _)
  refine (List.perm_ext_iff_of_nodup (hnodup _ _) (hnodup _ _)).mpr fun voteAccount => ?_
  rw [List.mem_map, List.mem_map]
  constructor
  · rintro ⟨row, hrow, rfl⟩
    obtain ⟨hrow, hprow⟩ := List.mem_filter.mp hrow
    have htop := top_of_mem_latestUptimes hrow
    obtain ⟨latest, hlatest, hkey⟩ := exists_latest_of_top htop
    refine ⟨latest, List.mem_filter.mpr ⟨hlatest, ?_⟩, hkey⟩
    rw [← hp row htop latest hlatest hkey.symm]
    exact hprow
  · rintro ⟨latest, hlatest, rfl⟩
    obtain ⟨hlatest, hplatest⟩ := List.mem_filter.mp hlatest
    obtain ⟨row, hrow, hkey⟩ := exists_mem_latestUptimes scan'
      (List.mem_map_of_mem (f := UptimeRow.extend (recordsExtensions snapshot scan table.rows))
        (mem_of_mem_latestUptimes hlatest))
    rw [extend_voteAccount] at hkey
    refine ⟨row, List.mem_filter.mpr ⟨hrow, ?_⟩, hkey⟩
    rw [hp row (top_of_mem_latestUptimes hrow) latest hlatest hkey]
    exact hplatest

/-! ## The rows up to ids -/

/-- A row without its id. -/
def UptimeRow.content (row : UptimeRow) : String × Status × Nat × Timestamp × Timestamp :=
  (row.voteAccount, row.status, row.epoch, row.startAt, row.endAt)

/-- The same rows up to ids, in any order. -/
def SameRows (rows rows' : List UptimeRow) : Prop :=
  (rows.map UptimeRow.content).Perm (rows'.map UptimeRow.content)

theorem openedRows_content (extended : List String) (nextId : Nat) :
    (openedRows snapshot extended nextId).map UptimeRow.content =
      (snapshot.validators.entries.filter fun e => e.1 ∉ extended).map fun e =>
        (e.1, statusFromDelinquency e.2.delinquent, snapshot.epoch, snapshot.createdAt,
          defaultStatusEndAt snapshot) :=
  map_openedRows (fun _ _ => rfl) extended nextId

theorem SameFile.openedRows (hfile : SameFile snapshot snapshot')
    {extended extended' : List String} (hext : extended'.Perm extended)
    (nextId nextId' : Nat) :
    SameRows (openedRows snapshot' extended' nextId') (openedRows snapshot extended nextId) := by
  have hfilter : (snapshot'.validators.entries.filter fun e => e.1 ∉ extended').Perm
      (snapshot.validators.entries.filter fun e => e.1 ∉ extended) := by
    have hcongr : (fun e : String × ValidatorPerformance => decide (e.1 ∉ extended')) =
        fun e => decide (e.1 ∉ extended) := by
      funext e
      simp [hext.mem_iff]
    rw [hcongr]
    exact hfile.perm.filter _
  unfold SameRows
  rw [openedRows_content, openedRows_content]
  have hdefault : defaultStatusEndAt snapshot' = defaultStatusEndAt snapshot := by
    unfold defaultStatusEndAt
    rw [hfile.createdAt]
  have hepoch : snapshot'.epoch = snapshot.epoch := by rw [hfile.same]
  rw [hdefault, hepoch, hfile.createdAt]
  exact hfilter.map _

/-! ## After an interrupted run -/

/-- The second `UPDATE` decides of the same validators that they keep their status. -/
theorem extended_after_update (scan scan' : Scan) (hinv : ReplayInv table)
    (hlater : ∀ row ∈ table.rows, row.startAt < snapshot.createdAt)
    (hfile : SameFile snapshot snapshot') :
    (validatorsWithExtendedStatus snapshot' scan'
      (table.extend (recordsExtensions snapshot scan table.rows)).rows).Perm
        (validatorsWithExtendedStatus snapshot scan table.rows) := by
  unfold validatorsWithExtendedStatus
  rw [funext hfile.hasExtendedStatus]
  exact latest_filter_perm scan' fun row htop latest hlatest hkey =>
    (decided_again hinv hlater hlatest htop hkey).2

/-- The second `UPDATE` proposes as many records as the first one. -/
theorem length_after_update (hinv : ReplayInv table)
    (hlater : ∀ row ∈ table.rows, row.startAt < snapshot.createdAt)
    (hfile : SameFile snapshot snapshot') :
    (recordsExtensions snapshot' scan'
      (table.extend (recordsExtensions snapshot scan table.rows)).rows).entries.length =
        (recordsExtensions snapshot scan table.rows).entries.length := by
  have hids := hinv.ids.extend (recordsExtensions snapshot scan table.rows)
  have htouches : ∀ row,
      Top (table.extend (recordsExtensions snapshot scan table.rows)).rows row →
      ∀ latest ∈ latestUptimes scan table.rows, row.voteAccount = latest.voteAccount →
        decide (Touches snapshot row) = decide (Touches snapshot latest) :=
    fun row htop latest hlatest hkey =>
      decide_eq_decide.mpr (decided_again hinv hlater hlatest htop hkey).1
  have hlen := (latest_filter_perm scan' htouches).length_eq
  rw [List.length_map, List.length_map] at hlen
  rw [length_recordsExtensions _ _ hids.nodup, length_recordsExtensions _ _ hinv.ids.nodup,
    ← hlen]
  simp only [hfile.touches]

/-- **Between the statements**: after the `UPDATE` alone the command succeeds, and does the
rest. -/
theorem storeUptime_after_update (hinv : ReplayInv table)
    (hlater : ∀ row ∈ table.rows, row.startAt < snapshot.createdAt)
    (hfile : SameFile snapshot snapshot') {complete : UptimesTable}
    (hcomplete : storeUptime scan snapshot table = .ok complete) :
    ∃ again, storeUptime scan' snapshot'
        (table.extend (recordsExtensions snapshot scan table.rows)) = .ok again ∧
      SameRows again.rows complete.rows := by
  obtain ⟨hupdate, hinsert, rfl⟩ := storeUptime_eq_ok.mp hcomplete
  have hids := hinv.ids.extend (recordsExtensions snapshot scan table.rows)
  have hextended := extended_after_update scan scan' hinv hlater hfile
  have hopened := hfile.openedRows hextended table.nextId table.nextId
  have hlength := hopened.length_eq
  rw [List.length_map, List.length_map] at hlength
  refine ⟨_, storeUptime_eq_ok.mpr ⟨?_, ?_, rfl⟩, ?_⟩
  · rw [length_after_update hinv hlater hfile]
    exact hupdate
  · show 5 * (openedRows snapshot' _ table.nextId).length ≤ maxParams
    rw [hlength]
    exact hinsert
  · have hsettled := (settled_extend scan hinv hlater).sameFile hfile
    rw [hsettled.extend_eq scan' hids]
    show (((_ : List UptimeRow) ++ openedRows snapshot' _ table.nextId).map _).Perm
      (((_ : List UptimeRow) ++ openedRows snapshot _ table.nextId).map _)
    rw [List.map_append, List.map_append]
    exact hopened.append_left _

/-! ## After a complete run -/

/-- No row is opened for an extended validator: its latest row is the extended one. -/
theorem top_openRows_extended (hinv : ReplayInv table)
    (hlater : ∀ row ∈ table.rows, row.startAt < snapshot.createdAt)
    (htop : Top ((table.extend (recordsExtensions snapshot scan table.rows)).openRows snapshot
      (validatorsWithExtendedStatus snapshot scan table.rows)).rows row)
    (hext : row.voteAccount ∈ validatorsWithExtendedStatus snapshot scan table.rows) :
    row.endAt = defaultStatusEndAt snapshot ∧ hasExtendedStatus snapshot row = true := by
  obtain ⟨hmem, hmax⟩ := htop
  have hold : row ∈ (table.extend (recordsExtensions snapshot scan table.rows)).rows := by
    rcases List.mem_append.mp hmem with hold | hnew
    · exact hold
    · exact absurd hext (mem_openedRows hnew).1
  have htop : Top (table.extend (recordsExtensions snapshot scan table.rows)).rows row :=
    ⟨hold, fun r hr => hmax r (List.mem_append_left _ hr)⟩
  obtain ⟨latest, hlatest, hsame⟩ := exists_latest_of_top htop
  rw [← hsame, mem_extended_iff hlatest] at hext
  rcases top_extend hinv hlater hlatest htop hsame.symm with
    ⟨endAt, hrecord, rfl⟩ | ⟨hnot, -⟩
  · rw [(recordExtension_again hrecord).2]
    rcases (recordExtension_cases hrecord).2 with ⟨rfl, -⟩ | ⟨-, hno⟩
    · exact ⟨rfl, hext⟩
    · rw [hext] at hno
      cases hno
  · exact absurd (touches_of_extended hext) hnot

/-- The row opened for any other validator of the snapshot is its latest row. -/
theorem top_openRows_opened (hinv : ReplayInv table)
    (hlater : ∀ row ∈ table.rows, row.startAt < snapshot.createdAt)
    (htop : Top ((table.extend (recordsExtensions snapshot scan table.rows)).openRows snapshot
      (validatorsWithExtendedStatus snapshot scan table.rows)).rows row)
    (hkey : row.voteAccount ∈ snapshot.validators.keys)
    (hext : row.voteAccount ∉ validatorsWithExtendedStatus snapshot scan table.rows) :
    row.endAt = defaultStatusEndAt snapshot ∧ hasExtendedStatus snapshot row = true := by
  obtain ⟨hmem, hmax⟩ := htop
  obtain ⟨new, hnew, hsame⟩ := exists_mem_openedRows hkey hext table.nextId
  have hle := hmax new (List.mem_append_right _ hnew) hsame
  rw [(mem_openedRows hnew).2.2.1] at hle
  rcases List.mem_append.mp hmem with hrow | hrow
  · -- all other rows end before
    obtain ⟨old, hold, rfl⟩ := List.mem_map.mp hrow
    rw [extend_voteAccount] at hkey hext
    have hlt : (old.extend (recordsExtensions snapshot scan table.rows)).endAt ≤
        snapshot.createdAt := by
      rcases endAt_of_not_extended hinv.ids hinv.overtaken hold hkey hext with
        hle | ⟨r, hr, hle⟩
      · exact hle
      · exact hle.trans (hlater r hr).le
    exact absurd (hle.trans hlt) (not_le.mpr (createdAt_lt_defaultStatusEndAt snapshot))
  · obtain ⟨-, -, hend, v, hget, hstatus⟩ := mem_openedRows hrow
    refine ⟨hend, ?_⟩
    have hnear : snapshot.createdAt < row.endAt + statusMaxDelayToExtend := by
      rw [hend]
      exact (createdAt_lt_defaultStatusEndAt snapshot).trans
        (Int.lt_add_of_pos_right _ (by decide))
    unfold hasExtendedStatus
    rw [hget]
    simp [hnear, hstatus]

/-- After both statements the latest row of every validator of the snapshot ends a minute
after the snapshot, and has its status. -/
theorem top_openRows (hinv : ReplayInv table)
    (hlater : ∀ row ∈ table.rows, row.startAt < snapshot.createdAt)
    (htop : Top ((table.extend (recordsExtensions snapshot scan table.rows)).openRows snapshot
      (validatorsWithExtendedStatus snapshot scan table.rows)).rows row)
    (hkey : row.voteAccount ∈ snapshot.validators.keys) :
    row.endAt = defaultStatusEndAt snapshot ∧ hasExtendedStatus snapshot row = true := by
  by_cases hext : row.voteAccount ∈ validatorsWithExtendedStatus snapshot scan table.rows
  · exact top_openRows_extended hinv hlater htop hext
  · exact top_openRows_opened hinv hlater htop hkey hext

theorem settled_openRows (scan : Scan) (hinv : ReplayInv table)
    (hlater : ∀ row ∈ table.rows, row.startAt < snapshot.createdAt) :
    Settled snapshot ((table.extend (recordsExtensions snapshot scan table.rows)).openRows
      snapshot (validatorsWithExtendedStatus snapshot scan table.rows)).rows := by
  intro row htop endAt hext
  obtain ⟨htouch, hcases⟩ := recordExtension_cases hext
  obtain ⟨hend, hextended⟩ := top_openRows hinv hlater htop htouch.1
  rcases hcases with ⟨rfl, -⟩ | ⟨-, hno⟩
  · exact hend.symm
  · rw [hextended] at hno
    cases hno

/-- After both statements every validator of the snapshot has a row, -/
theorem exists_row_openRows (scan : Scan) (table : UptimesTable) {voteAccount : String}
    (hkey : voteAccount ∈ snapshot.validators.keys) :
    ∃ row ∈ ((table.extend (recordsExtensions snapshot scan table.rows)).openRows snapshot
      (validatorsWithExtendedStatus snapshot scan table.rows)).rows,
      row.voteAccount = voteAccount := by
  by_cases hext : voteAccount ∈ validatorsWithExtendedStatus snapshot scan table.rows
  · obtain ⟨latest, hlatest, rfl⟩ := List.mem_map.mp hext
    have hrow := mem_of_mem_latestUptimes (List.mem_filter.mp hlatest).1
    exact ⟨_, List.mem_append_left _ (List.mem_map_of_mem hrow), extend_voteAccount _ _⟩
  · obtain ⟨row, hrow, hsame⟩ := exists_mem_openedRows hkey hext table.nextId
    exact ⟨row, List.mem_append_right _ hrow, hsame⟩

/-- and the `INSERT` of the second run has nothing to open. -/
theorem openedRows_after_complete (scan scan' : Scan) (hinv : ReplayInv table)
    (hlater : ∀ row ∈ table.rows, row.startAt < snapshot.createdAt)
    (hfile : SameFile snapshot snapshot') (nextId : Nat) :
    openedRows snapshot' (validatorsWithExtendedStatus snapshot' scan'
      ((table.extend (recordsExtensions snapshot scan table.rows)).openRows snapshot
        (validatorsWithExtendedStatus snapshot scan table.rows)).rows) nextId = [] := by
  refine List.eq_nil_iff_forall_not_mem.mpr fun new hnew => ?_
  obtain ⟨hnot, -, -, v, hget, -⟩ := mem_openedRows hnew
  rw [hfile.get?] at hget
  have hkey : new.voteAccount ∈ snapshot.validators.keys :=
    List.mem_map.mpr ⟨_, Dict.mem_of_get? hget, rfl⟩
  obtain ⟨row, hrow, hsame⟩ := exists_row_openRows scan table hkey
  obtain ⟨latest, hlatest, hsame'⟩ := exists_mem_latestUptimes scan' hrow
  rw [← hsame, ← hsame'] at hkey hnot
  refine hnot ((mem_extended_iff hlatest).mpr ?_)
  rw [hfile.hasExtendedStatus]
  exact (top_openRows hinv hlater (top_of_mem_latestUptimes hlatest) hkey).2

/-- **After both statements** the command, however it ends, changes nothing. -/
theorem runUptime_after_complete (hinv : ReplayInv table)
    (hlater : ∀ row ∈ table.rows, row.startAt < snapshot.createdAt)
    (hfile : SameFile snapshot snapshot') {complete : UptimesTable}
    (hcomplete : storeUptime scan snapshot table = .ok complete)
    (fault : Nat → Option DbError) :
    (runUptime ⟨fault, scan', snapshot'⟩ complete).1 = complete := by
  obtain ⟨-, -, rfl⟩ := storeUptime_eq_ok.mp hcomplete
  have hids := (hinv.ids.extend (recordsExtensions snapshot scan table.rows)).openRows
    snapshot (validatorsWithExtendedStatus snapshot scan table.rows)
  have hupdate := ((settled_openRows scan hinv hlater).sameFile hfile).extend_eq scan' hids
  have hinsert := openedRows_after_complete scan scan' hinv hlater hfile
  rcases runUptime_cases ⟨fault, scan', snapshot'⟩ hids with
    ⟨-, hkeep⟩ | ⟨-, hupdated | hstored⟩
  · exact hkeep
  · rw [hupdated]
    exact hupdate
  · rw [hstored, hupdate]
    unfold UptimesTable.openRows at hinsert ⊢
    rw [hinsert]
    simp

end Again

/-- **`store_uptime` can be run again**: on a table that runs have produced, in any order
of their snapshots and interrupted anywhere, let a snapshot be later than every stored
start. Running the command on it again changes nothing after a complete run; after a run
that stopped between its `UPDATE` and its `INSERT` it stores the same rows as that run
would have stored, had it not stopped. -/
theorem storeUptime_rerun (runs : List UptimeRun) (table complete : UptimesTable)
    (scan scan' : Scan) (snapshot snapshot' : ValidatorsPerformanceSnapshot)
    (htable : exec uptimeStep UptimesTable.empty runs = some table)
    (hlater : ∀ row ∈ table.rows, row.startAt < snapshot.createdAt)
    (hfile : SameFile snapshot snapshot')
    (hcomplete : storeUptime scan snapshot table = .ok complete) :
    (∀ fault, SameRows (runUptime ⟨fault, scan', snapshot'⟩ complete).1.rows complete.rows) ∧
      ∀ e, ∃ again,
        storeUptime scan' snapshot' (runUptime ⟨stopAt 1 e, scan, snapshot⟩ table).1 =
          .ok again ∧
        SameRows again.rows complete.rows := by
  have hinv := replayInv_of_exec htable
  constructor
  · intro fault
    rw [runUptime_after_complete hinv hlater hfile hcomplete]
    exact List.Perm.refl _
  · intro e
    obtain ⟨hupdate, -, -⟩ := storeUptime_eq_ok.mp hcomplete
    have hstopped : (runUptime ⟨stopAt 1 e, scan, snapshot⟩ table).1 =
        table.extend (recordsExtensions snapshot scan table.rows) := by
      have hfirst : commitAll ((uptimeStatements scan snapshot table.rows).take 1) table =
          .ok (table.extend (recordsExtensions snapshot scan table.rows)) :=
        commitAll_cons.mpr ⟨_, withParams_of_le hupdate _, rfl⟩
      exact congrArg Prod.fst (autocommit_stopAt Nat.one_lt_two hfirst e)
    rw [hstopped]
    exact storeUptime_after_update hinv hlater hfile hcomplete

/-- A validator that was up and is down half a minute later. -/
theorem storeUptime_rerun_down :
    ∃ complete,
      storeUptime .sequential (singleSnapshot 30000000 5 true)
          ⟨[⟨1, "vote", .up, 500, 0, minute⟩], 2⟩ = .ok complete ∧
        (∀ fault, SameRows (runUptime ⟨fault, .sequential, singleSnapshot 30000000 5 true⟩
          complete).1.rows complete.rows) ∧
        ∀ e, ∃ again,
          storeUptime .sequential (singleSnapshot 30000000 5 true)
              (runUptime ⟨stopAt 1 e, .sequential, singleSnapshot 30000000 5 true⟩
                ⟨[⟨1, "vote", .up, 500, 0, minute⟩], 2⟩).1 = .ok again ∧
            SameRows again.rows complete.rows :=
  ⟨_, rfl, storeUptime_rerun [⟨fun _ => none, .sequential, singleSnapshot 0 5 false⟩]
    ⟨[⟨1, "vote", .up, 500, 0, minute⟩], 2⟩ _ .sequential .sequential
    (singleSnapshot 30000000 5 true) (singleSnapshot 30000000 5 true) rfl (by decide)
    ⟨rfl, List.Perm.refl _⟩ rfl⟩

end DelegationStrategy.Store
