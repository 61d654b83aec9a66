import DelegationStrategy.Lib.CoarseMin

/-!
# Groups

`SELECT MAX(time) … GROUP BY key` returns the time of the latest rows of each key, in any
order. So `LIMIT 1` keeps that of one key (`limit_groupMax_cases`), which may be any of them
(`exists_limit_groupMax`).

`ROW_NUMBER() OVER (PARTITION BY key ORDER BY time DESC)` and `WHERE rn = 1` on the rows from some
time on keeps the latest rows, if they are not too old (`mem_distinctOn_window`).
-/

namespace DelegationStrategy.Lib

universe u v

variable {ρ : Type u} {κ : Type v} {τ : Type} [DecidableEq κ] [LinearOrder τ]

/-- No row with the same key has a greater time. -/
def IsLatest (key : ρ → κ) (time : ρ → τ) (rows : List ρ) (r : ρ) : Prop :=
  r ∈ rows ∧ ∀ r' ∈ rows, key r' = key r → time r' ≤ time r

/-- `SELECT MAX(time) FROM rows GROUP BY key`. -/
def groupMax (key : ρ → κ) (time : ρ → τ) (rows : List ρ) : List τ :=
  (rows.map key).dedup.filterMap fun k => ((rows.filter fun r => key r = k).map time).max?

variable {key : ρ → κ} {time : ρ → τ} {rows : List ρ}

/-- The greatest time of a group is the time of its latest rows. -/
theorem max?_group_eq_some_iff {k : κ} {t : τ} :
    ((rows.filter fun r => key r = k).map time).max? = some t ↔
      ∃ r, IsLatest key time rows r ∧ key r = k ∧ time r = t := by
  rw [List.max?_eq_some_iff]
  constructor
  · rintro ⟨hmem, hmax⟩
    obtain ⟨r, hr, rfl⟩ := List.mem_map.mp hmem
    obtain ⟨hrow, hkey⟩ := List.mem_filter.mp hr
    obtain rfl := of_decide_eq_true hkey
    refine ⟨r, ⟨hrow, fun r' hr' hsame => ?_⟩, rfl, rfl⟩
    exact hmax _ (List.mem_map_of_mem (List.mem_filter.mpr ⟨hr', decide_eq_true hsame⟩))
  · rintro ⟨r, ⟨hrow, hmax⟩, rfl, rfl⟩
    refine ⟨List.mem_map_of_mem (List.mem_filter.mpr ⟨hrow, decide_eq_true rfl⟩), ?_⟩
    intro t ht
    obtain ⟨r', hr', rfl⟩ := List.mem_map.mp ht
    obtain ⟨hrow', hkey⟩ := List.mem_filter.mp hr'
    exact hmax r' hrow' (of_decide_eq_true hkey)

/-- The query returns the times of the latest rows. -/
theorem mem_groupMax {t : τ} :
    t ∈ groupMax key time rows ↔ ∃ r, IsLatest key time rows r ∧ time r = t := by
  unfold groupMax
  rw [List.mem_filterMap]
  constructor
  · rintro ⟨k, -, hmax⟩
    obtain ⟨r, hlatest, -, htime⟩ := max?_group_eq_some_iff.mp hmax
    exact ⟨r, hlatest, htime⟩
  · rintro ⟨r, hlatest, htime⟩
    refine ⟨key r, List.mem_dedup.mpr (List.mem_map_of_mem hlatest.1), ?_⟩
    exact max?_group_eq_some_iff.mpr ⟨r, hlatest, rfl, htime⟩

/-- Each key has a latest row. -/
theorem exists_isLatest {r : ρ} (h : r ∈ rows) :
    ∃ r', IsLatest key time rows r' ∧ key r' = key r := by
  cases hmax : ((rows.filter fun r' => key r' = key r).map time).max? with
  | none =>
    rw [List.max?_eq_none_iff, List.map_eq_nil_iff, List.filter_eq_nil_iff] at hmax
    exact absurd (decide_eq_true rfl) (hmax r h)
  | some t =>
    obtain ⟨r', hlatest, hkey, -⟩ := max?_group_eq_some_iff.mp hmax
    exact ⟨r', hlatest, hkey⟩

/-- **The latest rows in a window** that is open at its end are the latest rows of all that are in
it; keys and times tell the rows apart. -/
theorem mem_distinctOn_window {window : τ → Bool} (hwindow : ∀ t t', window t → t ≤ t' → window t')
    (hnd : (rows.map fun r => (key r, time r)).Nodup) {rows' : List ρ} (hperm : rows'.Perm rows)
    {r : ρ} :
    r ∈ distinctOn key time (rows'.filter fun r => window (time r)) ↔
      IsLatest key time rows r ∧ window (time r) := by
  have hmem : ∀ r', r' ∈ rows'.filter (fun r => window (time r)) ↔
      r' ∈ rows ∧ window (time r') = true := by
    intro r'
    rw [List.mem_filter, hperm.mem_iff]
  rw [mem_distinctOn]
  constructor
  · intro h
    obtain ⟨hr, -, hmax⟩ := latest_spec h
    obtain ⟨hrow, hin⟩ := (hmem r).mp hr
    refine ⟨⟨hrow, fun r' hr' hkey => ?_⟩, hin⟩
    by_cases hin' : window (time r') = true
    · exact hmax r' ((hmem r').mpr ⟨hr', hin'⟩) hkey
    · -- what is before the window is before the row
      by_contra hlt
      exact hin' (hwindow _ _ hin (not_le.mp hlt).le)
  · rintro ⟨⟨hrow, hmax⟩, hin⟩
    cases hlatest : latest key time (rows'.filter fun r => window (time r)) (key r) with
    | none => exact absurd rfl (latest_eq_none_iff.mp hlatest r ((hmem r).mpr ⟨hrow, hin⟩))
    | some r' =>
      obtain ⟨hr', hkey, hmax'⟩ := latest_spec hlatest
      have hle := hmax r' ((hmem r').mp hr').1 hkey
      have hge := hmax' r ((hmem r).mpr ⟨hrow, hin⟩) rfl
      rw [List.inj_on_of_nodup_map hnd ((hmem r').mp hr').1 hrow
        (Prod.ext hkey (le_antisymm hle hge))]

/-- **`LIMIT 1`** keeps the greatest time of one group. -/
theorem limit_groupMax_cases (key : ρ → κ) (time : ρ → τ) (rows : List ρ) (scan : Scan) :
    ((scan.order (groupMax key time rows)).take 1 = [] ∧ rows = []) ∨
      ∃ r, IsLatest key time rows r ∧
        (scan.order (groupMax key time rows)).take 1 = [time r] := by
  cases horder : scan.order (groupMax key time rows) with
  | nil =>
    refine Or.inl ⟨rfl, List.eq_nil_iff_forall_not_mem.mpr fun r hr => ?_⟩
    obtain ⟨r', hlatest, -⟩ : ∃ r', IsLatest key time rows r' ∧ key r' = key r :=
      exists_isLatest hr
    have hmem := scan.mem_order.mpr (mem_groupMax.mpr ⟨r', hlatest, rfl⟩)
    rw [horder] at hmem
    cases hmem
  | cons t ts =>
    have hmem : t ∈ scan.order (groupMax key time rows) := horder ▸ List.mem_cons_self
    obtain ⟨r, hlatest, rfl⟩ := mem_groupMax.mp (scan.mem_order.mp hmem)
    exact Or.inr ⟨r, hlatest, rfl⟩

/-- This may be any group. -/
theorem exists_limit_groupMax {r : ρ} (h : IsLatest key time rows r) :
    ∃ scan : Scan, (scan.order (groupMax key time rows)).take 1 = [time r] := by
  obtain ⟨scan, rest, horder⟩ := Scan.exists_order_cons (mem_groupMax.mpr ⟨r, h, rfl⟩)
  exact ⟨scan, by rw [horder]; rfl⟩

end DelegationStrategy.Lib
