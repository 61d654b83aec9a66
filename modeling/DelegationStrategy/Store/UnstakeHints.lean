import DelegationStrategy.Lib.Nulls
import DelegationStrategy.Lib.Numeric
import DelegationStrategy.Store.ValidatorRecords

/-!
# Unstake hints

`load_unstake_hints` (`store/src/scoring.rs`) collects the reasons to unstake from a
validator: a high commission in the epoch or in the one before, the blacklist, and few
credits. `load_marinade_unstake_hint_records` keeps the validators with Marinade stake.

The commissions of an epoch come from an outer join of `validators` with `commissions`. The
`WHERE` clause asks for the epoch of the joined row as well, so that a validator without a
row in `commissions` is dropped (`mem_commissionRows`), whatever its effective, its observed
and its advertised commission are.

The query divides by averages that are rounded, and the quotient becomes a double. So the bar
below which credits are low (`creditsBar`) is not exactly half of the average; it is closer to it
than the fourteenth digit (`noCreditsBetween_of_apart`).
-/

namespace DelegationStrategy.Store

open DelegationStrategy.Lib DelegationStrategy.Collect

/-! ## Loading -/

/-- `MAX_ALLOWED_COMMISSION`. -/
def maxAllowedCommission : UInt8 := 10

/-- `MIN_REQUIRED_CREDITS_PERFORMANCE`. -/
def minRequiredCreditsPerformance : Rat := 1 / 2

inductive UnstakeHint where
  | highCommission
  | highCommissionInPreviousEpoch
  | blacklist
  | lowCredits
  deriving DecidableEq, Repr

structure BlacklistRecord where
  voteAccount : String
  code : String
  deriving DecidableEq, Repr

/-- The hints of a record are collected from a hash set. -/
structure UnstakeHintRecord where
  voteAccount : String
  marinadeStake : Rat
  hints : Finset UnstakeHint
  deriving DecidableEq

structure GlobalUnstakeHintRecord where
  voteAccount : String
  hints : Finset UnstakeHint
  deriving DecidableEq

/-- `load_blacklist`; `none` if the file is not read or not parsed. -/
def loadBlacklist (file : Option (List BlacklistRecord)) : Option (Dict String (Finset String)) :=
  file.map fun blacklist =>
    blacklist.foldl (fun acc record => acc.addTo record.voteAccount record.code) Dict.empty

/-- `TryFrom<i32> for u8`. -/
def tryIntoU8 (commission : Int) : Option UInt8 :=
  if 0 ≤ commission ∧ commission < 256 then some (UInt8.ofNat commission.toNat) else none

/-- The effective, the observed and the advertised commission of a row. -/
def reportedCommissions (row : ValidatorsRow) : List (Option Int) :=
  [row.commissionEffective, row.commissionMaxObserved, row.commissionAdvertised]

/-- `GREATEST(commission, COALESCE(commission_effective, 0), …)`. -/
def greatestCommission (row : ValidatorsRow) (commission : Option Int) : Option Int :=
  sqlMax (commission :: (reportedCommissions row).map fun c => some (c.getD 0))

/-- `FROM validators LEFT JOIN commissions … WHERE commissions.epoch = $1 and
validators.epoch = $1`. -/
def commissionRows (scan : Scan) (epoch : Nat) (db : Database) :
    List (ValidatorsRow × Option CommissionRow) :=
  (leftJoin (fun row commission => row.voteAccount = commission.voteAccount)
    (scan.order db.validators) (scan.order db.commissions)).filter fun pair =>
      -- the comparison with `NULL` selects nothing
      (pair.2.any fun commission => commission.epoch = epoch) && pair.1.epoch = epoch

/-- `GROUP BY validators.vote_account`. -/
def commissionGroups (scan : Scan) (epoch : Nat) (db : Database) :
    Dict String (List (Option Int)) :=
  Dict.groups <| (commissionRows scan epoch db).map fun pair =>
    (pair.1.voteAccount, greatestCommission pair.1 (pair.2.map ChangeRow.value))

/-- `voter_max_commission_in_epoch`. -/
def voterMaxCommissionInEpoch (scan : Scan) (epoch : Nat) (db : Database) :
    Option (Dict String UInt8) := do
  let commissions ← (commissionGroups scan epoch db).entries.mapM fun e =>
    ((sqlMax e.2).bind tryIntoU8).map fun commission => (e.1, commission)
  some (Dict.ofList commissions)

/-- `commissions_in_previous_epoch`. -/
def commissionsInPreviousEpoch (scan : Scan) (epoch : Nat) (db : Database) :
    Option (Dict String UInt8) :=
  if 0 < epoch then voterMaxCommissionInEpoch scan (epoch - 1) db else some Dict.empty

/-- `voters_with_marinade_stake_in_epoch`. -/
def votersWithMarinadeStakeInEpoch (scan : Scan) (epoch : Nat) (db : Database) :
    Dict String Rat :=
  Dict.ofList <| ((scan.order db.validators).filter fun row =>
    0 < row.marinadeStake ∧ row.epoch = epoch).map fun row =>
      (row.voteAccount, ((Numeric.ofNat row.marinadeStake).div (.ofNat (10 ^ 9))).toDouble)

/-- The rows of an epoch. -/
def rowsOfEpoch (epoch : Nat) (table : List ValidatorsRow) : List ValidatorsRow :=
  table.filter fun row => row.epoch = epoch

/-- `SELECT AVG(activated_stake * credits) / avg(activated_stake)`. -/
def creditsStats (epoch : Nat) (db : Database) : Option (Option Numeric) :=
  let rows := rowsOfEpoch epoch db.validators
  Numeric.sqlDiv (Numeric.avg (rows.map fun row => row.activatedStake * row.credits))
    (Numeric.avg (rows.map ValidatorsRow.activatedStake))

/-- `coalesce(credits / stake_weighted_avg_credits, 0)::double precision`. -/
def creditsPerformance (stakeWeightedAvgCredits : Option Numeric) (row : ValidatorsRow) :
    Option Rat :=
  (Numeric.sqlDiv (some (.ofNat row.credits)) stakeWeightedAvgCredits).map fun performance =>
    (performance.getD (.ofNat 0)).toDouble

/-- `voters_credits_performance_in_epoch`. -/
def votersCreditsPerformanceInEpoch (scan : Scan) (epoch : Nat) (db : Database) :
    Option (Dict String Rat) := do
  let stakeWeightedAvgCredits ← creditsStats epoch db
  let performances ← (rowsOfEpoch epoch (scan.order db.validators)).mapM fun row =>
    (creditsPerformance stakeWeightedAvgCredits row).map fun performance =>
      (row.voteAccount, performance)
  some (Dict.ofList performances)

abbrev Hints := Dict String (Finset UnstakeHint)

/-- A loop over a hash map: the keys of the selected values get the hint. -/
def addHints {α : Type} (hint : UnstakeHint) (selected : α → Bool) (voters : Dict String α)
    (hints : Hints) : Hints :=
  voters.entries.foldl (fun hints e => if selected e.2 then hints.addTo e.1 hint else hints) hints

/-- The four loops. -/
def mergeHints (commissionsInThisEpoch commissionsInPreviousEpoch : Dict String UInt8)
    (blacklist : Dict String (Finset String)) (votersCreditsPerformance : Dict String Rat) :
    Hints :=
  let high := fun commission : UInt8 => decide (maxAllowedCommission < commission)
  let low := fun performance : Rat => decide (performance < minRequiredCreditsPerformance)
  let hints := addHints .highCommission high commissionsInThisEpoch Dict.empty
  let hints := addHints .highCommissionInPreviousEpoch high commissionsInPreviousEpoch hints
  let hints := addHints .blacklist (fun _ => true) blacklist hints
  addHints .lowCredits low votersCreditsPerformance hints

/-- `load_unstake_hints`. -/
def loadUnstakeHints (scan : Scan) (blacklistFile : Option (List BlacklistRecord)) (epoch : Nat)
    (db : Database) : Option Hints := do
  let commissionsInThisEpoch ← voterMaxCommissionInEpoch scan epoch db
  let commissionsInPreviousEpoch ← commissionsInPreviousEpoch scan epoch db
  let votersCreditsPerformance ← votersCreditsPerformanceInEpoch scan epoch db
  let blacklist ← loadBlacklist blacklistFile
  some (mergeHints commissionsInThisEpoch commissionsInPreviousEpoch blacklist
    votersCreditsPerformance)

/-- `load_marinade_unstake_hint_records`. -/
def loadMarinadeUnstakeHintRecords (scan : Scan) (blacklistFile : Option (List BlacklistRecord))
    (epoch : Nat) (db : Database) : Option (List UnstakeHintRecord) := do
  let hints ← loadUnstakeHints scan blacklistFile epoch db
  let marinadeStakedValidators := votersWithMarinadeStakeInEpoch scan epoch db
  some <| marinadeStakedValidators.entries.filterMap fun e =>
    (hints.get? e.1).map fun hints =>
      { voteAccount := e.1, marinadeStake := e.2, hints := hints }

/-- `load_global_unstake_hint_records`. -/
def loadGlobalUnstakeHintRecords (scan : Scan) (blacklistFile : Option (List BlacklistRecord))
    (epoch : Nat) (db : Database) : Option (List GlobalUnstakeHintRecord) := do
  let hints ← loadUnstakeHints scan blacklistFile epoch db
  some <| hints.entries.map fun e => { voteAccount := e.1, hints := e.2 }

/-! ## What a hint says -/

/-- The commissions recorded for a vote account in an epoch. -/
def recordedCommissions (db : Database) (voteAccount : String) (epoch : Nat) : List Int :=
  (db.commissions.filter fun commission =>
    commission.voteAccount = voteAccount ∧ commission.epoch = epoch).map ChangeRow.value

/-- The greatest of the recorded and the reported commissions. -/
def maxCommission (db : Database) (row : ValidatorsRow) : Option Int :=
  sqlMax ((recordedCommissions db row.voteAccount row.epoch).map some ++ reportedCommissions row)

def HighCommissionIn (db : Database) (epoch : Nat) (voteAccount : String) : Prop :=
  ∃ row ∈ db.validators, row.voteAccount = voteAccount ∧ row.epoch = epoch ∧
    ∃ commission ∈ maxCommission db row, 10 < commission

/-- `Σ stake · credits / Σ stake`. -/
def stakeWeightedAvgCredits (db : Database) (epoch : Nat) : Rat :=
  ((rowsOfEpoch epoch db.validators).map fun row => (row.activatedStake : Rat) * row.credits).sum /
    ((rowsOfEpoch epoch db.validators).map fun row => (row.activatedStake : Rat)).sum

def LowCreditsIn (db : Database) (epoch : Nat) (voteAccount : String) : Prop :=
  ∃ row ∈ db.validators, row.voteAccount = voteAccount ∧ row.epoch = epoch ∧
    (row.credits : Rat) < stakeWeightedAvgCredits db epoch / 2

def Blacklisted (blacklist : List BlacklistRecord) (voteAccount : String) : Prop :=
  ∃ record ∈ blacklist, record.voteAccount = voteAccount

def MarinadeStakeIn (db : Database) (epoch : Nat) (voteAccount : String) : Prop :=
  ∃ row ∈ db.validators, row.voteAccount = voteAccount ∧ row.epoch = epoch ∧
    0 < row.marinadeStake

/-- The vote account has the hint. -/
def HasHint (hints : Hints) (voteAccount : String) (hint : UnstakeHint) : Prop :=
  hint ∈ (hints.get? voteAccount).getD ∅

/-! ## The commissions of an epoch -/

section Commissions

variable {scan : Scan} {db : Database} {epoch : Nat}

/-- The row itself reports a high commission. -/
def ReportsHighCommission (row : ValidatorsRow) : Prop :=
  ∃ commission, some commission ∈ reportedCommissions row ∧ 10 < commission

theorem mem_commissionRows {row : ValidatorsRow} {joined : Option CommissionRow} :
    (row, joined) ∈ commissionRows scan epoch db ↔
      ∃ commission, joined = some commission ∧ row ∈ db.validators ∧ row.epoch = epoch ∧
        commission ∈ db.commissions ∧ row.voteAccount = commission.voteAccount ∧
          commission.epoch = epoch := by
  refine (mem_filter_leftJoin (p := fun row : ValidatorsRow => row.epoch = epoch)
    (q := fun commission : CommissionRow => commission.epoch = epoch)).trans ?_
  simp

theorem lt_greatestCommission {row : ValidatorsRow} {value : Int} :
    (∃ m ∈ greatestCommission row (some value), 10 < m) ↔
      10 < value ∨ ReportsHighCommission row := by
  unfold greatestCommission
  rw [exists_lt_sqlMax]
  constructor
  · rintro ⟨c, hc, hlt⟩
    rcases List.mem_cons.mp hc with heq | hmem
    · obtain rfl := Option.some.inj heq
      exact Or.inl hlt
    · obtain ⟨reported, hreported, heq⟩ := List.mem_map.mp hmem
      obtain rfl := Option.some.inj heq
      -- `NULL` is read as 0, which is not high
      cases reported with
      | none => exact absurd hlt (by decide)
      | some c => exact Or.inr ⟨c, hreported, hlt⟩
  · rintro (hlt | ⟨c, hc, hlt⟩)
    · exact ⟨value, List.mem_cons_self, hlt⟩
    · exact ⟨c, List.mem_cons_of_mem _ (List.mem_map.mpr ⟨some c, hc, rfl⟩), hlt⟩

theorem lt_of_tryIntoU8 {commission : Int} {c : UInt8} (h : tryIntoU8 commission = some c) :
    maxAllowedCommission < c ↔ 10 < commission := by
  unfold tryIntoU8 at h
  split at h
  · rename_i hrange
    obtain rfl := Option.some.inj h
    have hmod : commission.toNat % 2 ^ 8 = commission.toNat := Nat.mod_eq_of_lt (by omega)
    rw [UInt8.lt_iff_toNat_lt, UInt8.toNat_ofNat', hmod]
    show 10 < commission.toNat ↔ 10 < commission
    omega
  · cases h

/-- What the query selects: a row of the epoch *with* a recorded commission. -/
def SelectedHighCommission (db : Database) (epoch : Nat) (voteAccount : String) : Prop :=
  ∃ row ∈ db.validators, row.voteAccount = voteAccount ∧ row.epoch = epoch ∧
    ∃ commission ∈ db.commissions, commission.voteAccount = voteAccount ∧
      commission.epoch = epoch ∧ (10 < commission.value ∨ ReportsHighCommission row)

/-- The values of a group. -/
theorem mem_commissionGroup {voteAccount : String} {group : List (Option Int)}
    (h : (voteAccount, group) ∈ (commissionGroups scan epoch db).entries) {value : Option Int} :
    value ∈ group ↔ ∃ row ∈ db.validators, row.voteAccount = voteAccount ∧ row.epoch = epoch ∧
      ∃ commission ∈ db.commissions, commission.voteAccount = voteAccount ∧
        commission.epoch = epoch ∧ greatestCommission row (some commission.value) = value := by
  rw [Dict.mem_groups h, List.mem_map]
  constructor
  · rintro ⟨e, he, rfl⟩
    obtain ⟨hpair, hkey⟩ := List.mem_filter.mp he
    obtain ⟨⟨row, joined⟩, hmem, rfl⟩ := List.mem_map.mp hpair
    obtain ⟨commission, rfl, hrow, hepoch, hcommission, hon, hcepoch⟩ := mem_commissionRows.mp hmem
    have hvote : row.voteAccount = voteAccount := by simpa using hkey
    exact ⟨row, hrow, hvote, hepoch, commission, hcommission, hon.symm.trans hvote, hcepoch, rfl⟩
  · rintro ⟨row, hrow, rfl, hepoch, commission, hcommission, hon, hcepoch, rfl⟩
    have hmem : (row, some commission) ∈ commissionRows scan epoch db :=
      mem_commissionRows.mpr ⟨commission, rfl, hrow, hepoch, hcommission, hon.symm, hcepoch⟩
    exact ⟨_, List.mem_filter.mpr ⟨List.mem_map.mpr ⟨_, hmem, rfl⟩, by simp⟩, rfl⟩

/-- A vote account with a row of the epoch and a recorded commission has a group. -/
theorem exists_commissionGroup (scan : Scan) {row : ValidatorsRow} {commission : CommissionRow}
    (hrow : row ∈ db.validators) (hepoch : row.epoch = epoch)
    (hcommission : commission ∈ db.commissions)
    (hon : commission.voteAccount = row.voteAccount) (hcepoch : commission.epoch = epoch) :
    ∃ group, (row.voteAccount, group) ∈ (commissionGroups scan epoch db).entries := by
  have hmem : (row, some commission) ∈ commissionRows scan epoch db :=
    mem_commissionRows.mpr ⟨commission, rfl, hrow, hepoch, hcommission, hon.symm, hcepoch⟩
  have hkey : row.voteAccount ∈ (commissionGroups scan epoch db).keys := by
    refine Dict.mem_keys_groups.mpr ?_
    rw [List.map_map]
    exact List.mem_map.mpr ⟨_, hmem, rfl⟩
  obtain ⟨⟨_, group⟩, hgroup, rfl⟩ := List.mem_map.mp hkey
  exact ⟨group, hgroup⟩

/-- The groups of the query whose maximum is high. -/
theorem mem_voterMaxCommissionInEpoch {commissions : Dict String UInt8} {voteAccount : String}
    (h : voterMaxCommissionInEpoch scan epoch db = some commissions) :
    (∃ c, (voteAccount, c) ∈ commissions.entries ∧ maxAllowedCommission < c) ↔
      SelectedHighCommission db epoch voteAccount := by
  obtain ⟨converted, hconverted, h⟩ := Option.bind_eq_some_iff.mp h
  obtain rfl := Option.some.inj h
  constructor
  · rintro ⟨c, hmem, hlt⟩
    obtain ⟨⟨_, group⟩, hgroup, rfl, hc⟩ := (mem_ofList_mapM (Dict.nodup _) hconverted).mp hmem
    obtain ⟨m, hmax, hm⟩ := Option.bind_eq_some_iff.mp hc
    -- the maximum of the group is that of one of its rows
    obtain ⟨value, hvalue, hhigh⟩ := (lt_sqlMax_iff hmax 10).mp ((lt_of_tryIntoU8 hm).mp hlt)
    obtain ⟨row, hrow, hvote, hepoch, commission, hcommission, hon, hcepoch, hgreatest⟩ :=
      (mem_commissionGroup hgroup).mp hvalue
    exact ⟨row, hrow, hvote, hepoch, commission, hcommission, hon, hcepoch,
      lt_greatestCommission.mp ⟨value, hgreatest, hhigh⟩⟩
  · rintro ⟨row, hrow, rfl, hepoch, commission, hcommission, hon, hcepoch, hhigh⟩
    obtain ⟨value, hgreatest, hlt⟩ := lt_greatestCommission.mpr hhigh
    obtain ⟨group, hgroup⟩ :=
      exists_commissionGroup scan hrow hepoch hcommission hon hcepoch
    obtain ⟨e, he⟩ := exists_of_mapM hconverted hgroup
    obtain ⟨c, hc, -⟩ := Option.map_eq_some_iff.mp he
    obtain ⟨m, hmax, hm⟩ := Option.bind_eq_some_iff.mp hc
    have hvalue : some value ∈ group := (mem_commissionGroup hgroup).mpr
      ⟨row, hrow, rfl, hepoch, commission, hcommission, hon, hcepoch, hgreatest⟩
    refine ⟨c, (mem_ofList_mapM (Dict.nodup _) hconverted).mpr ⟨_, hgroup, rfl, hc⟩, ?_⟩
    exact (lt_of_tryIntoU8 hm).mpr ((lt_sqlMax_iff hmax 10).mpr ⟨value, hvalue, hlt⟩)

end Commissions

/-! ## The credits of an epoch -/

section Credits

variable {scan : Scan} {db : Database} {epoch : Nat}

theorem mem_rowsOfEpoch {table : List ValidatorsRow} {row : ValidatorsRow} :
    row ∈ rowsOfEpoch epoch table ↔ row ∈ table ∧ row.epoch = epoch := by
  simp [rowsOfEpoch]

/-- `Σ stake · credits`. -/
def totalStakeCredits (db : Database) (epoch : Nat) : Nat :=
  ((rowsOfEpoch epoch db.validators).map fun row => row.activatedStake * row.credits).sum

/-- `Σ stake`. -/
def totalStake (db : Database) (epoch : Nat) : Nat :=
  ((rowsOfEpoch epoch db.validators).map ValidatorsRow.activatedStake).sum

/-- The average with its three quotients rounded. -/
def roundedAvgCredits (db : Database) (epoch : Nat) : Numeric :=
  let count := Numeric.ofNat (rowsOfEpoch epoch db.validators).length
  ((Numeric.ofNat (totalStakeCredits db epoch)).div count).div
    ((Numeric.ofNat (totalStake db epoch)).div count)

/-- The credits from which on the performance of a row is rounded to one half. -/
def creditsBar (db : Database) (row : ValidatorsRow) : Rat :=
  Numeric.halfBar (.ofNat row.credits) (roundedAvgCredits db row.epoch)

/-- What the code finds: credits below the bar. -/
def SelectedLowCredits (db : Database) (epoch : Nat) (voteAccount : String) : Prop :=
  ∃ row ∈ db.validators, row.voteAccount = voteAccount ∧ row.epoch = epoch ∧
    (row.credits : Rat) < creditsBar db row

theorem count_pos (h : rowsOfEpoch epoch db.validators ≠ []) :
    0 < (Numeric.ofNat (rowsOfEpoch epoch db.validators).length).value := by
  rw [Numeric.value_ofNat]
  exact_mod_cast List.length_pos_iff.mpr h

/-- The exact average is a quotient of two totals. -/
theorem stakeWeightedAvgCredits_eq : stakeWeightedAvgCredits db epoch =
    (Numeric.ofNat (totalStakeCredits db epoch)).value /
      (Numeric.ofNat (totalStake db epoch)).value := by
  have hcast : ∀ (f : ValidatorsRow → Nat) (rows : List ValidatorsRow),
      (((rows.map f).sum : Nat) : Rat) = (rows.map fun row => (f row : Rat)).sum := by
    intro f rows
    induction rows with
    | nil => rfl
    | cons row rows ih =>
      rw [List.map_cons, List.sum_cons, List.map_cons, List.sum_cons, Nat.cast_add, ih]
  unfold stakeWeightedAvgCredits totalStakeCredits totalStake
  rw [Numeric.value_ofNat, Numeric.value_ofNat, hcast, hcast]
  simp only [Nat.cast_mul]

/-- The query divides by the total stake first. -/
theorem creditsStats_of_ne_nil (h : rowsOfEpoch epoch db.validators ≠ []) :
    creditsStats epoch db =
      if totalStake db epoch = 0 then none else some (some (roundedAvgCredits db epoch)) := by
  have hcount := count_pos h
  have hdigits : ((Numeric.ofNat (totalStake db epoch)).div
      (.ofNat (rowsOfEpoch epoch db.validators).length)).digits = 0 ↔ totalStake db epoch = 0 := by
    rw [Numeric.digits_div_eq_zero_iff (by simp) hcount, Numeric.value_ofNat, Nat.cast_eq_zero]
  unfold creditsStats
  dsimp only
  rw [Numeric.avg_of_ne_nil (by simpa using h), Numeric.avg_of_ne_nil (by simpa using h),
    List.length_map, List.length_map]
  show (if _ then _ else _) = _
  exact if_congr hdigits rfl rfl

/-- Divided by the average: that is not zero. -/
theorem creditsPerformance_eq_some {row : ValidatorsRow} {stats : Option Numeric}
    {performance : Rat} (hrow : row ∈ db.validators) (hepoch : row.epoch = epoch)
    (hstats : creditsStats epoch db = some stats)
    (h : creditsPerformance stats row = some performance) :
    0 < (roundedAvgCredits db epoch).value ∧
      performance = ((Numeric.ofNat row.credits).div (roundedAvgCredits db epoch)).toDouble := by
  have hne : rowsOfEpoch epoch db.validators ≠ [] :=
    List.ne_nil_of_mem (mem_rowsOfEpoch.mpr ⟨hrow, hepoch⟩)
  rw [creditsStats_of_ne_nil hne] at hstats
  obtain ⟨hstake, hstats⟩ := Option.ite_none_left_eq_some.mp hstats
  obtain rfl := Option.some.inj hstats
  obtain ⟨quotient, hdiv, rfl⟩ := Option.map_eq_some_iff.mp h
  obtain ⟨hdigits, rfl⟩ := Numeric.sqlDiv_eq_some hdiv
  refine ⟨lt_of_le_of_ne ?_ fun hzero => hdigits (Numeric.value_eq_zero_iff.mp hzero.symm), rfl⟩
  have hpositive : 0 < (Numeric.ofNat (totalStake db epoch)).value := by
    rw [Numeric.value_ofNat]
    exact_mod_cast Nat.pos_of_ne_zero hstake
  exact Numeric.value_div_nonneg (Numeric.value_div_nonneg (by simp) (count_pos hne))
    (Numeric.value_div_pos hpositive (count_pos hne))

/-- A performance is too low if the credits are below the bar. -/
theorem creditsPerformance_lt_iff {row : ValidatorsRow} {stats : Option Numeric}
    {performance : Rat} (hrow : row ∈ db.validators) (hepoch : row.epoch = epoch)
    (hstats : creditsStats epoch db = some stats)
    (h : creditsPerformance stats row = some performance) :
    performance < minRequiredCreditsPerformance ↔ (row.credits : Rat) < creditsBar db row := by
  obtain ⟨hpos, rfl⟩ := creditsPerformance_eq_some hrow hepoch hstats h
  unfold creditsBar
  rw [hepoch, ← Numeric.value_ofNat row.credits]
  exact Numeric.toDouble_div_lt_half_iff (by simp) hpos

theorem nodup_rowsOfEpoch (hkey : PrimaryKey db.validators) :
    ((rowsOfEpoch epoch (scan.order db.validators)).map ValidatorsRow.voteAccount).Nodup :=
  nodup_map_filter ((((scan.perm db.validators).map _).nodup_iff).mpr hkey) epoch

/-- The vote accounts whose performance is too low. -/
theorem mem_votersCreditsPerformanceInEpoch {performances : Dict String Rat}
    {voteAccount : String} (hkey : PrimaryKey db.validators)
    (h : votersCreditsPerformanceInEpoch scan epoch db = some performances) :
    (∃ performance, (voteAccount, performance) ∈ performances.entries ∧
        performance < minRequiredCreditsPerformance) ↔
      SelectedLowCredits db epoch voteAccount := by
  obtain ⟨stats, hstats, h⟩ := Option.bind_eq_some_iff.mp h
  obtain ⟨converted, hconverted, h⟩ := Option.bind_eq_some_iff.mp h
  obtain rfl := Option.some.inj h
  constructor
  · rintro ⟨performance, hmem, hlt⟩
    obtain ⟨row, hrow, rfl, hp⟩ :=
      (mem_ofList_mapM (nodup_rowsOfEpoch hkey) hconverted).mp hmem
    obtain ⟨hin, hepoch⟩ := mem_rowsOfEpoch.mp hrow
    rw [Scan.mem_order] at hin
    exact ⟨row, hin, rfl, hepoch, (creditsPerformance_lt_iff hin hepoch hstats hp).mp hlt⟩
  · rintro ⟨row, hin, rfl, hepoch, hlow⟩
    have hrow : row ∈ rowsOfEpoch epoch (scan.order db.validators) :=
      mem_rowsOfEpoch.mpr ⟨scan.mem_order.mpr hin, hepoch⟩
    obtain ⟨e, he⟩ := exists_of_mapM hconverted hrow
    obtain ⟨performance, hp, -⟩ := Option.map_eq_some_iff.mp he
    exact ⟨performance,
      (mem_ofList_mapM (nodup_rowsOfEpoch hkey) hconverted).mpr ⟨row, hrow, rfl, hp⟩,
      (creditsPerformance_lt_iff hin hepoch hstats hp).mpr hlow⟩

end Credits

/-! ## The lists -/

section Lists

variable {db : Database} {epoch : Nat}

/-- The keys of the blacklist are its vote accounts. -/
theorem mem_keys_foldl_addTo (blacklist : List BlacklistRecord) (acc : Dict String (Finset String))
    (voteAccount : String) :
    voteAccount ∈ (blacklist.foldl (fun acc record => acc.addTo record.voteAccount record.code)
      acc).keys ↔ voteAccount ∈ acc.keys ∨ Blacklisted blacklist voteAccount := by
  induction blacklist generalizing acc with
  | nil => simp [Blacklisted]
  | cons record blacklist ih =>
    rw [List.foldl_cons, ih, Dict.mem_keys_addTo]
    simp [Blacklisted, or_assoc, eq_comm]

theorem mem_loadBlacklist {blacklist : List BlacklistRecord}
    {listed : Dict String (Finset String)} {voteAccount : String}
    (h : loadBlacklist (some blacklist) = some listed) :
    (∃ codes, (voteAccount, codes) ∈ listed.entries) ↔ Blacklisted blacklist voteAccount := by
  obtain rfl := Option.some.inj h
  have hkeys := mem_keys_foldl_addTo blacklist Dict.empty voteAccount
  simpa [Dict.keys, Dict.empty] using hkeys

/-- The vote accounts with Marinade stake. -/
theorem mem_votersWithMarinadeStakeInEpoch (scan : Scan) {voteAccount : String} :
    voteAccount ∈ (votersWithMarinadeStakeInEpoch scan epoch db).keys ↔
      MarinadeStakeIn db epoch voteAccount := by
  unfold votersWithMarinadeStakeInEpoch MarinadeStakeIn
  rw [Dict.mem_keys_ofList, List.map_map, List.mem_map]
  constructor
  · rintro ⟨row, hrow, rfl⟩
    obtain ⟨hin, hselected⟩ := List.mem_filter.mp hrow
    obtain ⟨hstake, hepoch⟩ : 0 < row.marinadeStake ∧ row.epoch = epoch := by simpa using hselected
    exact ⟨row, scan.mem_order.mp hin, rfl, hepoch, hstake⟩
  · rintro ⟨row, hin, rfl, hepoch, hstake⟩
    refine ⟨row, List.mem_filter.mpr ⟨scan.mem_order.mpr hin, ?_⟩, rfl⟩
    simp [hstake, hepoch]

end Lists

/-! ## The hints -/

section Merging

variable {hints : Hints} {voteAccount : String} {hint : UnstakeHint}

/-- Every vote account in the map has a hint. -/
def NoneEmpty (hints : Hints) : Prop :=
  ∀ voteAccount ∈ hints.keys, ∃ hint, HasHint hints voteAccount hint

theorem hasHint_addTo {voter : String} {added : UnstakeHint} :
    HasHint (hints.addTo voter added) voteAccount hint ↔
      HasHint hints voteAccount hint ∨ (voteAccount = voter ∧ hint = added) :=
  Dict.mem_getD_addTo

theorem NoneEmpty.addTo (h : NoneEmpty hints) (voter : String) (added : UnstakeHint) :
    NoneEmpty (hints.addTo voter added) := by
  intro voteAccount hmem
  rcases Dict.mem_keys_addTo.mp hmem with hold | rfl
  · obtain ⟨hint, hhint⟩ := h voteAccount hold
    exact ⟨hint, hasHint_addTo.mpr (Or.inl hhint)⟩
  · exact ⟨added, hasHint_addTo.mpr (Or.inr ⟨rfl, rfl⟩)⟩

/-- A loop adds its hint to the selected keys, and no other. -/
theorem hasHint_addHints {α : Type} {added : UnstakeHint} {selected : α → Bool}
    {voters : Dict String α} :
    HasHint (addHints added selected voters hints) voteAccount hint ↔
      HasHint hints voteAccount hint ∨
        (hint = added ∧ ∃ a, (voteAccount, a) ∈ voters.entries ∧ selected a) := by
  unfold addHints
  induction voters.entries generalizing hints with
  | nil => simp
  | cons e entries ih =>
    have hcons : (∃ a, (voteAccount, a) ∈ e :: entries ∧ selected a) ↔
        (voteAccount = e.1 ∧ selected e.2) ∨ ∃ a, (voteAccount, a) ∈ entries ∧ selected a := by
      obtain ⟨voter, a⟩ := e
      simp [or_and_right, exists_or]
    rw [List.foldl_cons, ih, hcons]
    cases hs : selected e.2 with
    | true =>
      rw [if_pos rfl, hasHint_addTo]
      simp [or_assoc, and_or_left, and_comm]
    | false => simp

theorem NoneEmpty.addHints {α : Type} (h : NoneEmpty hints) (added : UnstakeHint)
    (selected : α → Bool) (voters : Dict String α) :
    NoneEmpty (addHints added selected voters hints) := by
  unfold Store.addHints
  induction voters.entries generalizing hints with
  | nil => exact h
  | cons e entries ih =>
    rw [List.foldl_cons]
    split
    · exact ih (h.addTo e.1 added)
    · exact ih h

/-- The hints that the code gives: high commissions are those that its query selects, and low
credits those that are below its bar. -/
def Given (db : Database) (blacklist : List BlacklistRecord) (epoch : Nat)
    (voteAccount : String) : UnstakeHint → Prop
  | .highCommission => SelectedHighCommission db epoch voteAccount
  | .highCommissionInPreviousEpoch => 0 < epoch ∧ SelectedHighCommission db (epoch - 1) voteAccount
  | .blacklist => Blacklisted blacklist voteAccount
  | .lowCredits => SelectedLowCredits db epoch voteAccount

variable {scan : Scan} {db : Database} {blacklist : List BlacklistRecord} {epoch : Nat}

/-- The epoch before the first one has no commissions. -/
theorem mem_commissionsInPreviousEpoch {commissions : Dict String UInt8}
    (h : commissionsInPreviousEpoch scan epoch db = some commissions) :
    (∃ c, (voteAccount, c) ∈ commissions.entries ∧ maxAllowedCommission < c) ↔
      0 < epoch ∧ SelectedHighCommission db (epoch - 1) voteAccount := by
  unfold commissionsInPreviousEpoch at h
  by_cases hpos : 0 < epoch
  · rw [if_pos hpos] at h
    rw [mem_voterMaxCommissionInEpoch h]
    exact (and_iff_right hpos).symm
  · rw [if_neg hpos] at h
    obtain rfl := Option.some.inj h
    simp [Dict.empty, hpos]

theorem loadUnstakeHints_eq_some
    (h : loadUnstakeHints scan (some blacklist) epoch db = some hints) :
    ∃ commissions previous performances listed,
      voterMaxCommissionInEpoch scan epoch db = some commissions ∧
      commissionsInPreviousEpoch scan epoch db = some previous ∧
      votersCreditsPerformanceInEpoch scan epoch db = some performances ∧
      loadBlacklist (some blacklist) = some listed ∧
      hints = mergeHints commissions previous listed performances := by
  obtain ⟨commissions, hcommissions, h⟩ := Option.bind_eq_some_iff.mp h
  obtain ⟨previous, hprevious, h⟩ := Option.bind_eq_some_iff.mp h
  obtain ⟨performances, hperformances, h⟩ := Option.bind_eq_some_iff.mp h
  obtain ⟨listed, hlisted, h⟩ := Option.bind_eq_some_iff.mp h
  exact ⟨commissions, previous, performances, listed, hcommissions, hprevious, hperformances,
    hlisted, (Option.some.inj h).symm⟩

/-- Four sources, one hint each. -/
theorem hasHint_loadUnstakeHints (hkey : PrimaryKey db.validators)
    (h : loadUnstakeHints scan (some blacklist) epoch db = some hints) :
    HasHint hints voteAccount hint ↔ Given db blacklist epoch voteAccount hint := by
  obtain ⟨commissions, previous, performances, listed, hcommissions, hprevious, hperformances,
    hlisted, rfl⟩ := loadUnstakeHints_eq_some h
  have hempty : ¬ HasHint Dict.empty voteAccount hint := by simp [HasHint, Dict.empty, Dict.get?]
  unfold mergeHints
  dsimp only
  rw [hasHint_addHints, hasHint_addHints, hasHint_addHints, hasHint_addHints]
  simp only [decide_eq_true_eq, and_true, hempty, false_or,
    mem_voterMaxCommissionInEpoch hcommissions, mem_commissionsInPreviousEpoch hprevious,
    mem_votersCreditsPerformanceInEpoch hkey hperformances, mem_loadBlacklist hlisted]
  cases hint with
  | highCommission => simp [Given]
  | highCommissionInPreviousEpoch => simp [Given]
  | blacklist => simp [Given]
  | lowCredits => simp [Given]

theorem noneEmpty_loadUnstakeHints
    (h : loadUnstakeHints scan (some blacklist) epoch db = some hints) : NoneEmpty hints := by
  obtain ⟨commissions, previous, performances, listed, -, -, -, -, rfl⟩ :=
    loadUnstakeHints_eq_some h
  have hempty : NoneEmpty Dict.empty := fun _ hmem => (nomatch hmem)
  exact (((hempty.addHints _ _ _).addHints _ _ _).addHints _ _ _).addHints _ _ _

/-- The map has the vote accounts with a hint. -/
theorem mem_keys_loadUnstakeHints
    (h : loadUnstakeHints scan (some blacklist) epoch db = some hints) :
    voteAccount ∈ hints.keys ↔ ∃ hint, HasHint hints voteAccount hint := by
  constructor
  · exact noneEmpty_loadUnstakeHints h voteAccount
  · rintro ⟨hint, hhint⟩
    by_contra hnokey
    simp [HasHint, Dict.get?_eq_none_iff.mpr hnokey] at hhint

/-- The set stored under a vote account, in whatever order the rows are read. -/
theorem get?_loadUnstakeHints {scan' : Scan} {hints' : Hints} (hkey : PrimaryKey db.validators)
    (h : loadUnstakeHints scan (some blacklist) epoch db = some hints)
    (h' : loadUnstakeHints scan' (some blacklist) epoch db = some hints') :
    hints.get? voteAccount = hints'.get? voteAccount := by
  have hsame : ∀ hint, HasHint hints voteAccount hint ↔ HasHint hints' voteAccount hint := by
    intro hint
    rw [hasHint_loadUnstakeHints hkey h, hasHint_loadUnstakeHints hkey h']
  have hkeys : voteAccount ∈ hints.keys ↔ voteAccount ∈ hints'.keys := by
    rw [mem_keys_loadUnstakeHints h, mem_keys_loadUnstakeHints h']
    exact exists_congr hsame
  by_cases hmem : voteAccount ∈ hints.keys
  · obtain ⟨⟨_, given⟩, hentry, rfl⟩ := List.mem_map.mp hmem
    obtain ⟨⟨voter, given'⟩, hentry', heq⟩ := List.mem_map.mp (hkeys.mp hmem)
    obtain rfl : voter = _ := heq
    unfold HasHint at hsame
    rw [Dict.get?_of_mem hentry, Dict.get?_of_mem hentry'] at hsame ⊢
    exact congrArg some (Finset.ext hsame)
  · rw [Dict.get?_eq_none_iff.mpr hmem, Dict.get?_eq_none_iff.mpr (mt hkeys.mpr hmem)]

end Merging

/-! ## The records -/

section Records

variable {scan scan' : Scan} {db : Database} {blacklist : List BlacklistRecord} {epoch : Nat}

/-- The list `marinade` is `global` without the vote accounts that have no Marinade stake. -/
structure RestrictedToMarinade (db : Database) (epoch : Nat) (marinade : List UnstakeHintRecord)
    (global : List GlobalUnstakeHintRecord) : Prop where
  once : (marinade.map UnstakeHintRecord.voteAccount).Nodup
  globalOnce : (global.map GlobalUnstakeHintRecord.voteAccount).Nodup
  records : ∀ voteAccount hints,
    (∃ record ∈ marinade, record.voteAccount = voteAccount ∧ record.hints = hints) ↔
      (∃ record ∈ global, record.voteAccount = voteAccount ∧ record.hints = hints) ∧
        MarinadeStakeIn db epoch voteAccount

theorem loadGlobalUnstakeHintRecords_spec {global : List GlobalUnstakeHintRecord}
    (h : loadGlobalUnstakeHintRecords scan (some blacklist) epoch db = some global) :
    ∃ hints, loadUnstakeHints scan (some blacklist) epoch db = some hints ∧
      (global.map GlobalUnstakeHintRecord.voteAccount).Nodup ∧
      ∀ voteAccount given,
        (∃ record ∈ global, record.voteAccount = voteAccount ∧ record.hints = given) ↔
          hints.get? voteAccount = some given := by
  obtain ⟨hints, hhints, h⟩ := Option.bind_eq_some_iff.mp h
  obtain rfl := Option.some.inj h
  refine ⟨hints, hhints, ?_, fun voteAccount given => ?_⟩
  · rw [List.map_map]
    exact hints.nodup
  · constructor
    · rintro ⟨record, hrecord, rfl, rfl⟩
      obtain ⟨e, he, rfl⟩ := List.mem_map.mp hrecord
      exact Dict.get?_of_mem he
    · intro hget
      exact ⟨_, List.mem_map.mpr ⟨_, Dict.mem_of_get? hget, rfl⟩, rfl, rfl⟩

theorem loadMarinadeUnstakeHintRecords_spec {marinade : List UnstakeHintRecord}
    (h : loadMarinadeUnstakeHintRecords scan (some blacklist) epoch db = some marinade) :
    ∃ hints, loadUnstakeHints scan (some blacklist) epoch db = some hints ∧
      (marinade.map UnstakeHintRecord.voteAccount).Nodup ∧
      ∀ voteAccount given,
        (∃ record ∈ marinade, record.voteAccount = voteAccount ∧ record.hints = given) ↔
          hints.get? voteAccount = some given ∧ MarinadeStakeIn db epoch voteAccount := by
  obtain ⟨hints, hhints, h⟩ := Option.bind_eq_some_iff.mp h
  obtain rfl := Option.some.inj h
  refine ⟨hints, hhints, ?_, fun voteAccount given => ?_⟩
  · have hsub := Dict.keys_filterMap_sublist Prod.fst (fun e => hints.get? e.1)
      (votersWithMarinadeStakeInEpoch scan epoch db).entries
    rw [List.map_filterMap] at hsub ⊢
    simp only [Option.map_map, Function.comp_def] at hsub ⊢
    exact (votersWithMarinadeStakeInEpoch scan epoch db).nodup.sublist hsub
  · rw [← mem_votersWithMarinadeStakeInEpoch scan]
    constructor
    · rintro ⟨record, hrecord, rfl, rfl⟩
      obtain ⟨e, he, hmap⟩ := List.mem_filterMap.mp hrecord
      obtain ⟨given, hget, rfl⟩ := Option.map_eq_some_iff.mp hmap
      exact ⟨hget, List.mem_map_of_mem he⟩
    · rintro ⟨hget, hkey⟩
      obtain ⟨e, he, rfl⟩ := List.mem_map.mp hkey
      exact ⟨_, List.mem_filterMap.mpr ⟨e, he, Option.map_eq_some_iff.mpr ⟨given, hget, rfl⟩⟩,
        rfl, rfl⟩

/-- The Marinade list is a restriction of the global list, whatever the commissions. -/
theorem restrictedToMarinade {marinade : List UnstakeHintRecord}
    {global : List GlobalUnstakeHintRecord} (hkey : PrimaryKey db.validators)
    (hmarinade : loadMarinadeUnstakeHintRecords scan (some blacklist) epoch db = some marinade)
    (hglobal : loadGlobalUnstakeHintRecords scan' (some blacklist) epoch db = some global) :
    RestrictedToMarinade db epoch marinade global := by
  obtain ⟨hints, hload, honce, hrecords⟩ := loadMarinadeUnstakeHintRecords_spec hmarinade
  obtain ⟨hints', hload', hglobalOnce, hglobalRecords⟩ :=
    loadGlobalUnstakeHintRecords_spec hglobal
  refine ⟨honce, hglobalOnce, fun voteAccount given => ?_⟩
  rw [hrecords, hglobalRecords, get?_loadUnstakeHints hkey hload hload']

end Records

/-! ## Soundness and completeness -/

/-- Each hint is given to the vote accounts it is about, and the lists show them. -/
structure UnstakeHintsCorrect (db : Database) (blacklist : List BlacklistRecord) (epoch : Nat)
    (hints : Hints) : Prop where
  highCommission : ∀ voteAccount,
    HasHint hints voteAccount .highCommission ↔ HighCommissionIn db epoch voteAccount
  highCommissionInPreviousEpoch : ∀ voteAccount,
    HasHint hints voteAccount .highCommissionInPreviousEpoch ↔
      0 < epoch ∧ HighCommissionIn db (epoch - 1) voteAccount
  blacklisted : ∀ voteAccount,
    HasHint hints voteAccount .blacklist ↔ Blacklisted blacklist voteAccount
  lowCredits : ∀ voteAccount,
    HasHint hints voteAccount .lowCredits ↔ LowCreditsIn db epoch voteAccount
  keys : ∀ voteAccount, voteAccount ∈ hints.keys ↔ ∃ hint, HasHint hints voteAccount hint
  restricted : ∀ scan scan' marinade global,
    loadMarinadeUnstakeHintRecords scan (some blacklist) epoch db = some marinade →
    loadGlobalUnstakeHintRecords scan' (some blacklist) epoch db = some global →
    RestrictedToMarinade db epoch marinade global

/-- Who reports a high commission has a recorded commission, of any value. -/
def CommissionsRecorded (db : Database) (epoch : Nat) : Prop :=
  ∀ row ∈ db.validators, row.epoch = epoch → ReportsHighCommission row →
    ∃ commission ∈ db.commissions,
      commission.voteAccount = row.voteAccount ∧ commission.epoch = epoch

/-- No validator of the epoch has credits between half of the average and the bar. -/
def NoCreditsBetween (db : Database) (epoch : Nat) : Prop :=
  ∀ row ∈ db.validators, row.epoch = epoch →
    ¬ (min (creditsBar db row) (stakeWeightedAvgCredits db epoch / 2) ≤ row.credits ∧
      (row.credits : Rat) < max (creditsBar db row) (stakeWeightedAvgCredits db epoch / 2))

section Correct

variable {db : Database} {epoch : Nat}

theorem mem_recordedCommissions {voteAccount : String} {value : Int} :
    value ∈ recordedCommissions db voteAccount epoch ↔
      ∃ commission ∈ db.commissions, commission.voteAccount = voteAccount ∧
        commission.epoch = epoch ∧ commission.value = value := by
  simp [recordedCommissions, and_assoc]

theorem lt_maxCommission {row : ValidatorsRow} :
    (∃ commission ∈ maxCommission db row, 10 < commission) ↔
      (∃ value ∈ recordedCommissions db row.voteAccount row.epoch, 10 < value) ∨
        ReportsHighCommission row := by
  unfold maxCommission ReportsHighCommission
  rw [exists_lt_sqlMax]
  simp [or_and_right, exists_or]

/-- The query finds all high commissions exactly if whoever reports one is recorded. -/
theorem commissionsRecorded_iff :
    CommissionsRecorded db epoch ↔ ∀ voteAccount,
      SelectedHighCommission db epoch voteAccount ↔ HighCommissionIn db epoch voteAccount := by
  constructor
  · intro hrecorded voteAccount
    constructor
    · rintro ⟨row, hrow, rfl, rfl, commission, hcommission, hon, hepoch, hhigh⟩
      refine ⟨row, hrow, rfl, rfl, lt_maxCommission.mpr ?_⟩
      rcases hhigh with hvalue | hreports
      · exact Or.inl ⟨commission.value,
          mem_recordedCommissions.mpr ⟨commission, hcommission, hon, hepoch, rfl⟩, hvalue⟩
      · exact Or.inr hreports
    · rintro ⟨row, hrow, rfl, rfl, hhigh⟩
      rcases lt_maxCommission.mp hhigh with ⟨value, hvalue, hlt⟩ | hreports
      · obtain ⟨commission, hcommission, hon, hepoch, rfl⟩ := mem_recordedCommissions.mp hvalue
        exact ⟨row, hrow, rfl, rfl, commission, hcommission, hon, hepoch, Or.inl hlt⟩
      · obtain ⟨commission, hcommission, hon, hepoch⟩ := hrecorded row hrow rfl hreports
        exact ⟨row, hrow, rfl, rfl, commission, hcommission, hon, hepoch, Or.inr hreports⟩
  · intro hsame row hrow hepoch hreports
    have hhigh : HighCommissionIn db epoch row.voteAccount :=
      ⟨row, hrow, rfl, hepoch, lt_maxCommission.mpr (Or.inr hreports)⟩
    -- what is selected has a partner in `commissions`
    obtain ⟨-, -, -, -, commission, hcommission, hon, hcepoch, -⟩ := (hsame _).mpr hhigh
    exact ⟨commission, hcommission, hon, hcepoch⟩

theorem not_between_iff {a b c : Rat} :
    ¬ (min a b ≤ c ∧ c < max a b) ↔ (c < a ↔ c < b) := by
  rw [min_le_iff, lt_max_iff, ← not_lt, ← not_lt]
  tauto

/-- The query finds the low credits exactly if nobody is between half of the average and the
bar. -/
theorem noCreditsBetween_iff (hkey : PrimaryKey db.validators) :
    NoCreditsBetween db epoch ↔ ∀ voteAccount,
      SelectedLowCredits db epoch voteAccount ↔ LowCreditsIn db epoch voteAccount := by
  unfold NoCreditsBetween SelectedLowCredits LowCreditsIn
  simp only [not_between_iff]
  constructor
  · intro hsame voteAccount
    constructor
    · rintro ⟨row, hrow, hvote, hepoch, hlow⟩
      exact ⟨row, hrow, hvote, hepoch, (hsame row hrow hepoch).mp hlow⟩
    · rintro ⟨row, hrow, hvote, hepoch, hlow⟩
      exact ⟨row, hrow, hvote, hepoch, (hsame row hrow hepoch).mpr hlow⟩
  · intro hsame row hrow hepoch
    -- the account has no other row in the epoch
    have honly : ∀ row' ∈ db.validators, row'.voteAccount = row.voteAccount →
        row'.epoch = epoch → row' = row := fun row' hrow' hvote hepoch' =>
      List.inj_on_of_nodup_map hkey hrow' hrow (Prod.ext hvote (hepoch'.trans hepoch.symm))
    constructor
    · intro hlow
      obtain ⟨row', hrow', hvote, hepoch', hlow'⟩ :=
        (hsame row.voteAccount).mp ⟨row, hrow, rfl, hepoch, hlow⟩
      rwa [honly row' hrow' hvote hepoch'] at hlow'
    · intro hlow
      obtain ⟨row', hrow', hvote, hepoch', hlow'⟩ :=
        (hsame row.voteAccount).mpr ⟨row, hrow, rfl, hepoch, hlow⟩
      rwa [honly row' hrow' hvote hepoch'] at hlow'

/-- The rounded average is the average to fifteen digits. -/
theorem roundedAvgCredits_bounds (h : rowsOfEpoch epoch db.validators ≠ []) :
    |(roundedAvgCredits db epoch).value - stakeWeightedAvgCredits db epoch| ≤
      stakeWeightedAvgCredits db epoch / 10 ^ 15 := by
  rw [stakeWeightedAvgCredits_eq]
  rcases Nat.eq_zero_or_pos (totalStake db epoch) with hzero | hpos
  · -- without stake the quotients are zero
    have hstake : (Numeric.ofNat (totalStake db epoch)).value = 0 := by
      rw [Numeric.value_ofNat, hzero, Nat.cast_zero]
    have hdivisor : ((Numeric.ofNat (totalStake db epoch)).div
        (.ofNat (rowsOfEpoch epoch db.validators).length)).value = 0 :=
      Numeric.value_div_eq_zero (by rw [hstake, zero_div])
    have hrounded : (roundedAvgCredits db epoch).value = 0 :=
      Numeric.value_div_eq_zero (by rw [hdivisor, div_zero])
    rw [hrounded, hstake]
    norm_num
  · exact Numeric.value_div_div_bounds (by simp) (by simpa using hpos) (count_pos h)

/-- **Credits that differ** from half of the average in the first fourteen digits are not
between it and the bar. -/
theorem noCreditsBetween_of_apart
    (hapart : ∀ row ∈ db.validators, row.epoch = epoch →
      stakeWeightedAvgCredits db epoch / 10 ^ 14 <
        |2 * (row.credits : Rat) - stakeWeightedAvgCredits db epoch|) :
    NoCreditsBetween db epoch := by
  intro row hrow hepoch
  have hbounds := abs_le.mp (roundedAvgCredits_bounds
    (List.ne_nil_of_mem (mem_rowsOfEpoch.mpr ⟨hrow, hepoch⟩)))
  have hcredits := hapart row hrow hepoch
  have havg : 0 ≤ stakeWeightedAvgCredits db epoch := by
    rw [stakeWeightedAvgCredits_eq, Numeric.value_ofNat, Numeric.value_ofNat]
    positivity
  rw [not_between_iff]
  unfold creditsBar
  rw [hepoch]
  generalize stakeWeightedAvgCredits db epoch = average at hbounds hcredits havg
  rcases le_or_gt (roundedAvgCredits db epoch).value 0 with hnone | hpos
  · -- the average is zero, and so is the bar
    have haverage : average = 0 := by linarith
    have hvalue : (roundedAvgCredits db epoch).value = 0 := by linarith
    rw [Numeric.halfBar, hvalue, zero_mul, haverage, zero_div]
  · have hfar : (roundedAvgCredits db epoch).value / 10 ^ 15 <
        |2 * (Numeric.ofNat row.credits).value - (roundedAvgCredits db epoch).value| := by
      rw [Numeric.value_ofNat]
      rcases lt_abs.mp hcredits with habove | hbelow
      · exact lt_abs.mpr (Or.inl (by linarith))
      · exact lt_abs.mpr (Or.inr (by linarith))
    have hbar := Numeric.toDouble_div_lt_half_iff (a := .ofNat row.credits) (by simp) hpos
    have hhalf := Numeric.toDouble_div_lt_half_iff_of_apart (by simp) hpos hfar
    rw [Numeric.value_ofNat] at hbar hhalf
    rw [← hbar, hhalf]
    rcases lt_abs.mp hcredits with habove | hbelow
    · exact iff_of_false (by linarith) (by linarith)
    · exact iff_of_true (by linarith) (by linarith)

/-- **The hints are sound and complete** exactly if every validator that reports a high
commission in the epoch, or in the one before, has a recorded commission there, and the credits
of none are between half of the average and the bar. -/
theorem unstakeHints_iff (scan : Scan) (db : Database) (blacklist : List BlacklistRecord)
    (epoch : Nat) (hints : Hints) (hkey : PrimaryKey db.validators)
    (h : loadUnstakeHints scan (some blacklist) epoch db = some hints) :
    UnstakeHintsCorrect db blacklist epoch hints ↔
      CommissionsRecorded db epoch ∧ (0 < epoch → CommissionsRecorded db (epoch - 1)) ∧
        NoCreditsBetween db epoch := by
  rw [commissionsRecorded_iff, commissionsRecorded_iff, noCreditsBetween_iff hkey]
  have hgiven : ∀ voteAccount hint, HasHint hints voteAccount hint ↔
      Given db blacklist epoch voteAccount hint :=
    fun _ _ => hasHint_loadUnstakeHints hkey h
  constructor
  · intro hcorrect
    refine ⟨fun voteAccount => ?_, fun hpos voteAccount => ?_, fun voteAccount => ?_⟩
    · rw [← hcorrect.highCommission, hgiven]
      rfl
    · have hprevious := hcorrect.highCommissionInPreviousEpoch voteAccount
      rw [hgiven] at hprevious
      exact (and_congr_right_iff.mp hprevious) hpos
    · rw [← hcorrect.lowCredits, hgiven]
      rfl
  · rintro ⟨hthis, hprevious, hcredits⟩
    exact {
      highCommission := fun voteAccount => (hgiven _ _).trans (hthis voteAccount)
      highCommissionInPreviousEpoch := fun voteAccount =>
        (hgiven _ _).trans (and_congr_right fun hpos => hprevious hpos voteAccount)
      blacklisted := fun _ => hgiven _ _
      lowCredits := fun voteAccount => (hgiven _ _).trans (hcredits voteAccount)
      keys := fun _ => mem_keys_loadUnstakeHints h
      restricted := fun _ _ _ _ hmarinade hglobal =>
        restrictedToMarinade hkey hmarinade hglobal }

end Correct

/-! ### A validator that advertises a commission of 100 -/

/-- The snapshot of `singleValidators` with a commission of 100. -/
def highCommissionValidators : Snapshot :=
  { singleValidators 0 10 with
    validators := (singleValidators 0 10).validators.map fun v =>
      { v with performance := { v.performance with commission := 100 } } }

/-- `store_validators` ran in epoch 500, and no other command. -/
def highCommissionDatabase : Database :=
  executeAll [⟨.storeValidators .sequential highCommissionValidators, fun _ => none⟩]
    ⟨[], [], [], [], []⟩

/-- `store_commissions` ran as well. -/
def recordedDatabase : Database :=
  executeAll [⟨.storeCommissions .sequential (singleSnapshot 0 100 false), fun _ => none⟩]
    highCommissionDatabase

theorem recordedDatabase_rows : ∀ row ∈ recordedDatabase.validators,
    row.voteAccount = "vote" ∧ row.epoch = 500 := by decide

theorem recordedDatabase_credits : NoCreditsBetween recordedDatabase 500 := by
  refine noCreditsBetween_of_apart fun row hrow _ => ?_
  revert row
  decide +kernel

theorem recordedDatabase_key : PrimaryKey recordedDatabase.validators := by
  unfold PrimaryKey
  decide

theorem highCommissionDatabase_key : PrimaryKey highCommissionDatabase.validators := by
  unfold PrimaryKey
  decide

theorem unstakeHints_iff_recorded : ∃ hints,
    loadUnstakeHints .sequential (some []) 500 recordedDatabase = some hints ∧
      UnstakeHintsCorrect recordedDatabase [] 500 hints := by
  have hload : (loadUnstakeHints .sequential (some []) 500 recordedDatabase).isSome := by
    decide +kernel
  have hcommission : ⟨"vote", 100, 1000, 500, 0⟩ ∈ recordedDatabase.commissions := by
    decide
  obtain ⟨hints, hhints⟩ := Option.isSome_iff_exists.mp hload
  have hiff := unstakeHints_iff .sequential recordedDatabase [] 500 hints recordedDatabase_key
    hhints
  refine ⟨hints, hhints, hiff.mpr ⟨fun row hrow hepoch _ => ?_, fun _ row hrow hepoch => ?_,
    recordedDatabase_credits⟩⟩
  · exact ⟨_, hcommission, (recordedDatabase_rows row hrow).1.symm, rfl⟩
  · exact absurd ((recordedDatabase_rows row hrow).2.symm.trans hepoch) (by decide)

/-- Without a recorded commission there is no hint. -/
theorem unstakeHints_not_complete :
    ¬ ∀ (scan : Scan) (db : Database) (blacklist : List BlacklistRecord) (epoch : Nat)
      (hints : Hints), PrimaryKey db.validators →
        loadUnstakeHints scan (some blacklist) epoch db = some hints →
        UnstakeHintsCorrect db blacklist epoch hints := by
  intro h
  have hload : (loadUnstakeHints .sequential (some []) 500 highCommissionDatabase).map
      Dict.keys = some [] := by decide +kernel
  have hmax : ∃ row ∈ highCommissionDatabase.validators, row.voteAccount = "vote" ∧
      row.epoch = 500 ∧ maxCommission highCommissionDatabase row = some 100 := by decide
  obtain ⟨hints, hhints, hkeys⟩ := Option.map_eq_some_iff.mp hload
  obtain ⟨row, hrow, hvote, hepoch, hcommission⟩ := hmax
  have hcorrect :=
    h .sequential highCommissionDatabase [] 500 hints highCommissionDatabase_key hhints
  have hhint : HasHint hints "vote" .highCommission :=
    (hcorrect.highCommission "vote").mpr ⟨row, hrow, hvote, hepoch, 100, hcommission, by decide⟩
  have hmem : "vote" ∈ hints.keys := (hcorrect.keys "vote").mpr ⟨_, hhint⟩
  rw [hkeys] at hmem
  cases hmem

end DelegationStrategy.Store
