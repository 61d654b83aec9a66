import DelegationStrategy.Lib.FanOut
import DelegationStrategy.Store.ClusterStats

/-!
# Validators for the scoring formula

`load_validators_aggregated_flat` (`store/src/utils.rs`) averages the rows of a window of
epochs for each validator that has a row in all of them. One of the averages is the
concentration of stake at the provider (`dc_aso`) of the validator.

`load_dc_concentration_stats` reports the same concentrations, and puts the validators
without a provider into one group with the name "Unknown". The query joins the
concentrations on `dc_aso`, and `NULL` equals nothing: an epoch without a provider drops out
of the average, and without any provider the average is 0. So the two agree for a validator
with a provider in all epochs, and for the others they agree by coincidence only
(`avgDcConcentration_iff`); a validator that hides its provider gets the best concentration
there is (`avgDcConcentration_hidden`).

`mem_loadValidatorsAggregatedFlat_iff` says who is in the answer, and `columns_of_mem` what the
greatest commission and the least stake say of the rows.
-/

namespace DelegationStrategy.Store

open DelegationStrategy.Lib DelegationStrategy.Collect

/-! ## The query -/

/-- `SUM(activated_stake)` of an epoch. -/
def clusterStake (validators : List ValidatorsRow) (epoch : Nat) : Nat :=
  ((validators.filter fun row => row.epoch = epoch).map ValidatorsRow.activatedStake).sum

/-- `SUM(activated_stake)` of an epoch and a provider; `GROUP BY` makes one group of the
`NULL`s. -/
def dcStake (validators : List ValidatorsRow) (epoch : Nat) (dcAso : Option String) : Nat :=
  ((validators.filter fun row => row.epoch = epoch ∧ row.dcAso = dcAso).map
    ValidatorsRow.activatedStake).sum

/-- A row of `dc`. -/
structure DcGroup where
  epoch : Nat
  dcAso : Option String
  dcConcentration : Option Rat

/-- A row of `cluster_skip_rate`. -/
structure ClusterSkipRate where
  epoch : Nat
  stakeWeightedSkipRate : Option Rat

/-- A group of `dc`, whose epoch has one row in `cluster_stake`. -/
def dcGroup (validators : List ValidatorsRow) (k : Nat × Option String) : Option DcGroup :=
  (sqlDiv (some (dcStake validators k.1 k.2)) (some (clusterStake validators k.1))).map fun q =>
    ⟨k.1, k.2, q⟩

/-- `dc`; `none` if an epoch has no stake to divide by. -/
def dcGroups (validators : List ValidatorsRow) : Option (List DcGroup) :=
  (validators.map fun row => (row.epoch, row.dcAso)).dedup.mapM (dcGroup validators)

def clusterSkipRate (validators : List ValidatorsRow) (epoch : Nat) : Option ClusterSkipRate :=
  let rows := validators.filter fun row => row.epoch = epoch
  (sqlDiv (some (rows.map fun row => row.skipRate * (row.activatedStake : Rat)).sum)
    (some (clusterStake validators epoch))).map fun q => ⟨epoch, q⟩

/-- `cluster_skip_rate`. -/
def clusterSkipRates (validators : List ValidatorsRow) : Option (List ClusterSkipRate) :=
  (validators.map ValidatorsRow.epoch).dedup.mapM (clusterSkipRate validators)

/-- `agg_versions`: the latest version of each vote account that is not `NULL`. -/
def aggVersions (scan : Scan) (versions : List VersionRow) : List VersionRow :=
  distinctOn ChangeRow.voteAccount ChangeRow.createdAt
    (scan.order (versions.filter fun row => row.value.isSome))

/-- `dc.dc_aso = validators.dc_aso AND dc.epoch = validators.epoch`: `NULL` equals nothing. -/
def onDc (row : ValidatorsRow) (dc : DcGroup) : Bool :=
  decide (row.dcAso.isSome ∧ dc.dcAso = row.dcAso ∧ dc.epoch = row.epoch)

/-- A row of the joins. -/
structure FlatRow where
  validator : ValidatorsRow
  dc : Option DcGroup
  skipRate : Option ClusterSkipRate
  version : Option VersionRow

/-- The joins. -/
def flatRows (scan : Scan) (dc : List DcGroup) (skipRates : List ClusterSkipRate)
    (versions : List VersionRow) (validators : List ValidatorsRow) : List FlatRow :=
  let rows := leftJoin onDc (scan.order validators) dc
  let rows := leftJoin (fun row skipRate => decide (skipRate.epoch = row.1.epoch)) rows skipRates
  let rows := leftJoin (fun row version => decide (version.voteAccount = row.1.1.voteAccount))
    rows versions
  rows.map fun row => ⟨row.1.1.1, row.1.1.2, row.1.2, row.2⟩

structure ValidatorAggregatedFlat where
  voteAccount : String
  minimumStake : Rat
  avgStake : Rat
  avgDcConcentration : Rat
  avgSkipRate : Rat
  avgGraceSkipRate : Rat
  maxCommission : UInt8
  avgAdjustedCredits : Rat
  dcAso : String
  marinadeStake : Rat
  version : String
  deriving DecidableEq, Repr

/-- `coalesce(commission_effective, commission_advertised, 100)`. -/
def flatCommission (row : ValidatorsRow) : Int :=
  (row.commissionEffective.or row.commissionAdvertised).getD 100

/-- The skip rate, with grace for few leader slots. -/
def graceSkipRate (row : FlatRow) : Rat :=
  if row.validator.leaderSlots < 200 then
    -- `LEAST` ignores `NULL`
    match row.skipRate.bind ClusterSkipRate.stakeWeightedSkipRate with
    | some rate => min row.validator.skipRate rate
    | none => row.validator.skipRate
  else row.validator.skipRate

/-- The aggregates of the rows of a vote account; `None` if the commission is no `u8`. -/
def aggregatedFlat (voteAccount : String) (rows : List FlatRow) :
    Option ValidatorAggregatedFlat :=
  let validators := rows.map FlatRow.validator
  let newestFirst := validators.insertionSort fun row row' => row'.epoch ≤ row.epoch
  let maxCommission := ((validators.map flatCommission).max?).getD 0
  if 0 ≤ maxCommission ∧ maxCommission < 256 then some {
    voteAccount := voteAccount
    minimumStake := ((validators.map fun row => (row.activatedStake / 10 ^ 9 : Rat)).min?).getD 0
    avgStake := (average (validators.map fun row => (row.activatedStake / 10 ^ 9 : Rat))).getD 0
    avgDcConcentration :=
      (average (rows.filterMap fun row => row.dc.bind DcGroup.dcConcentration)).getD 0
    avgSkipRate := (average (validators.map ValidatorsRow.skipRate)).getD 1
    avgGraceSkipRate := (average (rows.map graceSkipRate)).getD 1
    maxCommission := UInt8.ofNat maxCommission.toNat
    avgAdjustedCredits := (average (validators.map fun row =>
      (row.credits * max 0 (100 - flatCommission row) : Rat))).getD 0 / 100
    dcAso := (newestFirst.head?.bind ValidatorsRow.dcAso).getD "Unknown"
    marinadeStake :=
      (newestFirst.head?.map fun row => (row.marinadeStake / 10 ^ 9 : Rat)).getD 0
    version := (rows.head?.bind fun row => row.version.bind ChangeRow.value).getD "0.0.0" }
  else none

/-- The bounds of the window, `$1` and `$2`. -/
def flatWindow (lastEpoch epochs : Nat) : Nat × Nat :=
  (lastEpoch - min lastEpoch (epochs - 1), lastEpoch)

/-- `HAVING COUNT(*) = $3 AND COUNT(*) FILTER (WHERE credits > 0) >= 7`. -/
def havingFlat (epochs : Nat) (rows : List FlatRow) : Bool :=
  decide (rows.length = epochs ∧ 7 ≤ (rows.filter fun row => 0 < row.validator.credits).length)

/-- The groups by vote account that are returned. -/
def flatGroups (lastEpoch epochs : Nat) (rows : List FlatRow) : List (String × List FlatRow) :=
  let window := flatWindow lastEpoch epochs
  let rows := rows.filter fun row =>
    window.1 ≤ row.validator.epoch ∧ row.validator.epoch ≤ window.2
  (Dict.groups (rows.map fun row => (row.validator.voteAccount, row))).entries.filter fun group =>
    havingFlat epochs group.2

/-- `load_validators_aggregated_flat`. -/
def loadValidatorsAggregatedFlat (scan : Scan) (db : Database) (versions : List VersionRow)
    (lastEpoch epochs : Nat) : Option (List ValidatorAggregatedFlat) := do
  let dc ← dcGroups db.validators
  let skipRates ← clusterSkipRates db.validators
  let rows := flatRows scan dc skipRates (aggVersions scan versions) db.validators
  let flat ← (scan.order (flatGroups lastEpoch epochs rows)).mapM fun group =>
    aggregatedFlat group.1 group.2
  some (flat.insertionSort fun a b => b.avgAdjustedCredits ≤ a.avgAdjustedCredits)

/-! ## The joins -/

section Joins

variable {validators : List ValidatorsRow} {dc : List DcGroup}
variable {skipRates : List ClusterSkipRate}

theorem keys_dcGroups (h : dcGroups validators = some dc) :
    dc.map (fun group => (group.epoch, group.dcAso)) =
      (validators.map fun row => (row.epoch, row.dcAso)).dedup := by
  have hkey : ∀ k group, dcGroup validators k = some group → (group.epoch, group.dcAso) = id k := by
    intro k group hgroup
    obtain ⟨q, -, rfl⟩ := Option.map_eq_some_iff.mp hgroup
    rfl
  rw [map_mapM hkey h, List.map_id]

theorem keys_clusterSkipRates (h : clusterSkipRates validators = some skipRates) :
    skipRates.map ClusterSkipRate.epoch = (validators.map ValidatorsRow.epoch).dedup := by
  have hkey : ∀ epoch rate, clusterSkipRate validators epoch = some rate →
      rate.epoch = id epoch := by
    intro epoch rate hrate
    obtain ⟨q, -, rfl⟩ := Option.map_eq_some_iff.mp hrate
    rfl
  rw [map_mapM hkey h, List.map_id]

theorem nodup_aggVersions (scan : Scan) (versions : List VersionRow) :
    ((aggVersions scan versions).map ChangeRow.voteAccount).Nodup :=
  nodup_distinctOn _

/-- A row of `validators` with its partners. -/
def joinedRow (dc : List DcGroup) (skipRates : List ClusterSkipRate) (versions : List VersionRow)
    (row : ValidatorsRow) : FlatRow where
  validator := row
  dc := dc.find? (onDc row)
  skipRate := skipRates.find? fun rate => decide (rate.epoch = row.epoch)
  version := versions.find? fun version => decide (version.voteAccount = row.voteAccount)

/-- **The joins do not fan out.** -/
theorem flatRows_eq (scan : Scan) (versions : List VersionRow)
    (hdc : dcGroups validators = some dc) (hrates : clusterSkipRates validators = some skipRates) :
    flatRows scan dc skipRates (aggVersions scan versions) validators =
      (scan.order validators).map (joinedRow dc skipRates (aggVersions scan versions)) := by
  have hnd : (dc.map fun group => (group.epoch, group.dcAso)).Nodup := by
    rw [keys_dcGroups hdc]
    exact List.nodup_dedup _
  have hndRates : (skipRates.map ClusterSkipRate.epoch).Nodup := by
    rw [keys_clusterSkipRates hrates]
    exact List.nodup_dedup _
  have hjoin : leftJoin onDc (scan.order validators) dc = _ := leftJoin_eq_map fun row _ => by
    refine (List.pairwise_map.mp hnd).imp fun {group group'} hne h => hne ?_
    obtain ⟨-, haso, hepoch⟩ := of_decide_eq_true h.1
    obtain ⟨-, haso', hepoch'⟩ := of_decide_eq_true h.2
    rw [haso, hepoch, haso', hepoch']
  unfold flatRows
  rw [hjoin]
  dsimp only
  rw [leftJoin_key hndRates (fun row : ValidatorsRow × Option DcGroup => row.1.epoch),
    leftJoin_key (nodup_aggVersions scan versions)
      (fun row : (ValidatorsRow × Option DcGroup) × Option ClusterSkipRate => row.1.1.voteAccount),
    List.map_map, List.map_map, List.map_map]
  rfl

/-- The group of a row with a provider. -/
theorem find?_dcGroups (hdc : dcGroups validators = some dc) {row : ValidatorsRow}
    (hrow : row ∈ validators) :
    (dc.find? (onDc row)).bind DcGroup.dcConcentration = row.dcAso.map fun dcAso =>
      (dcStake validators row.epoch (some dcAso) : Rat) / clusterStake validators row.epoch := by
  cases haso : row.dcAso with
  | none =>
    have hnone : dc.find? (onDc row) = none := List.find?_eq_none.mpr fun group _ => by
      simp [onDc, haso]
    rw [hnone]
    rfl
  | some dcAso =>
    cases hfind : dc.find? (onDc row) with
    | none =>
      -- the groups have the epoch and the provider of every row
      have hmem : (row.epoch, row.dcAso) ∈ dc.map fun group => (group.epoch, group.dcAso) := by
        rw [keys_dcGroups hdc, List.mem_dedup]
        exact List.mem_map_of_mem hrow
      obtain ⟨group, hgroup, heq⟩ := List.mem_map.mp hmem
      obtain ⟨hepoch, haso'⟩ := Prod.mk.inj heq
      refine absurd ?_ (List.find?_eq_none.mp hfind group hgroup)
      exact decide_eq_true ⟨by rw [haso]; rfl, haso', hepoch⟩
    | some group =>
      have hon : onDc row group := List.find?_some hfind
      obtain ⟨-, haso', hepoch⟩ := of_decide_eq_true hon
      obtain ⟨k, -, hgroup⟩ := (mem_mapM hdc).mp (List.mem_of_find?_eq_some hfind)
      obtain ⟨q, hdiv, rfl⟩ := Option.map_eq_some_iff.mp hgroup
      obtain ⟨-, rfl⟩ := sqlDiv_eq_some hdiv
      dsimp only at haso' hepoch
      rw [haso', hepoch, haso]
      rfl

/-- An epoch with a row has stake, or the query fails. -/
theorem clusterStake_ne_zero (hdc : dcGroups validators = some dc) {row : ValidatorsRow}
    (hrow : row ∈ validators) : clusterStake validators row.epoch ≠ 0 := by
  have hmem : (row.epoch, row.dcAso) ∈
      (validators.map fun row => (row.epoch, row.dcAso)).dedup :=
    List.mem_dedup.mpr (List.mem_map_of_mem hrow)
  obtain ⟨group, hgroup⟩ := exists_of_mapM hdc hmem
  obtain ⟨q, hdiv, -⟩ := Option.map_eq_some_iff.mp hgroup
  exact Nat.cast_ne_zero.mp (sqlDiv_eq_some hdiv).1

end Joins

/-! ## The rows of a validator -/

theorem average_perm {numbers numbers' : List Rat} (h : numbers.Perm numbers') :
    average numbers = average numbers' := by
  by_cases hempty : numbers = []
  · subst hempty
    rw [h.nil_eq]
  · rw [average_eq hempty, average_eq fun hnil => hempty (hnil ▸ h).eq_nil, h.sum_eq, h.length_eq]

/-- The rows of a vote account in the window. -/
def windowRows (validators : List ValidatorsRow) (lastEpoch epochs : Nat) (voteAccount : String) :
    List ValidatorsRow :=
  validators.filter fun row => row.voteAccount = voteAccount ∧
    (flatWindow lastEpoch epochs).1 ≤ row.epoch ∧ row.epoch ≤ (flatWindow lastEpoch epochs).2

/-- The epochs of the window. -/
def flatEpochs (lastEpoch epochs : Nat) : List Nat :=
  List.range' (flatWindow lastEpoch epochs).1 (lastEpoch + 1 - (flatWindow lastEpoch epochs).1)

/-- The concentration that the query joins with a row. -/
def seenShare (validators : List ValidatorsRow) (row : ValidatorsRow) : Option Rat :=
  row.dcAso.map fun dcAso =>
    (dcStake validators row.epoch (some dcAso) : Rat) / clusterStake validators row.epoch

section Rows

variable {scan : Scan} {db : Database} {versions : List VersionRow} {lastEpoch epochs : Nat}
variable {result : List ValidatorAggregatedFlat} {flat : ValidatorAggregatedFlat}

/-- The groups before `HAVING`. -/
def flatWindowGroups (lastEpoch epochs : Nat) (rows : List FlatRow) : Dict String (List FlatRow) :=
  Dict.groups ((rows.filter fun row =>
    (flatWindow lastEpoch epochs).1 ≤ row.validator.epoch ∧
      row.validator.epoch ≤ (flatWindow lastEpoch epochs).2).map
        fun row => (row.validator.voteAccount, row))

section Groups

variable {dc : List DcGroup} {skipRates : List ClusterSkipRate} {voteAccount : String}
variable {rows : List FlatRow}

/-- A group has the rows of its vote account in the window, joined. -/
theorem perm_of_mem_flatWindowGroups (hdc : dcGroups db.validators = some dc)
    (hrates : clusterSkipRates db.validators = some skipRates)
    (hgroup : (voteAccount, rows) ∈ (flatWindowGroups lastEpoch epochs
      (flatRows scan dc skipRates (aggVersions scan versions) db.validators)).entries) :
    rows.Perm ((windowRows db.validators lastEpoch epochs voteAccount).map
      (joinedRow dc skipRates (aggVersions scan versions))) := by
  have hgroup := Dict.mem_groups hgroup
  rw [flatRows_eq scan versions hdc hrates, List.filter_map, List.map_map, List.filter_map,
    List.filter_map, List.map_map, List.filter_filter] at hgroup
  rw [hgroup]
  refine (((scan.perm _).filter _).map _).trans (List.Perm.of_eq ?_)
  refine congrArg (List.map _) (List.filter_congr fun row _ => ?_)
  exact (Bool.decide_and _ _).symm

/-- A vote account with a row in the window has a group. -/
theorem exists_flatWindowGroup (hdc : dcGroups db.validators = some dc)
    (hrates : clusterSkipRates db.validators = some skipRates) {row : ValidatorsRow}
    (hrow : row ∈ windowRows db.validators lastEpoch epochs voteAccount) :
    ∃ rows, (voteAccount, rows) ∈ (flatWindowGroups lastEpoch epochs
      (flatRows scan dc skipRates (aggVersions scan versions) db.validators)).entries := by
  obtain ⟨hmem, hcond⟩ := List.mem_filter.mp hrow
  obtain ⟨rfl, hfirst, hlast⟩ := of_decide_eq_true hcond
  have hkey : row.voteAccount ∈ (flatWindowGroups lastEpoch epochs
      (flatRows scan dc skipRates (aggVersions scan versions) db.validators)).keys := by
    rw [flatWindowGroups, Dict.mem_keys_groups, List.map_map, flatRows_eq scan versions hdc hrates]
    refine List.mem_map.mpr ⟨joinedRow dc skipRates (aggVersions scan versions) row, ?_, rfl⟩
    exact List.mem_filter.mpr ⟨List.mem_map_of_mem (scan.mem_order.mpr hmem),
      decide_eq_true ⟨hfirst, hlast⟩⟩
  obtain ⟨⟨voteAccount, rows⟩, hgroup, rfl⟩ := List.mem_map.mp hkey
  exact ⟨rows, hgroup⟩

/-- `HAVING`, on the rows of the table. -/
theorem havingFlat_iff
    (hrows : rows.Perm ((windowRows db.validators lastEpoch epochs voteAccount).map
      (joinedRow dc skipRates (aggVersions scan versions)))) :
    havingFlat epochs rows = true ↔
      (windowRows db.validators lastEpoch epochs voteAccount).length = epochs ∧
        7 ≤ ((windowRows db.validators lastEpoch epochs voteAccount).filter
          fun row => 0 < row.credits).length := by
  rw [havingFlat, decide_eq_true_iff, hrows.length_eq, List.length_map,
    (hrows.filter _).length_eq, List.filter_map, List.length_map]
  rfl

theorem voteAccount_aggregatedFlat (h : aggregatedFlat voteAccount rows = some flat) :
    flat.voteAccount = voteAccount := by
  obtain ⟨-, heq⟩ := Option.ite_none_right_eq_some.mp h
  rw [← Option.some.inj heq]

end Groups

/-- A validator of the answer is the aggregate of its rows of the window. -/
theorem exists_rows_of_mem
    (hload : loadValidatorsAggregatedFlat scan db versions lastEpoch epochs = some result)
    (hflat : flat ∈ result) :
    ∃ dc skipRates rows, dcGroups db.validators = some dc ∧
      rows.Perm ((windowRows db.validators lastEpoch epochs flat.voteAccount).map
        (joinedRow dc skipRates (aggVersions scan versions))) ∧
      havingFlat epochs rows = true ∧ aggregatedFlat flat.voteAccount rows = some flat := by
  obtain ⟨dc, hdc, hload⟩ := Option.bind_eq_some_iff.mp hload
  obtain ⟨skipRates, hrates, hload⟩ := Option.bind_eq_some_iff.mp hload
  obtain ⟨flats, hflats, hload⟩ := Option.bind_eq_some_iff.mp hload
  obtain rfl := Option.some.inj hload
  rw [List.mem_insertionSort] at hflat
  obtain ⟨⟨voteAccount, rows⟩, hgroup, haggregated⟩ := (mem_mapM hflats).mp hflat
  rw [Scan.mem_order] at hgroup
  obtain ⟨hgroup, hhaving⟩ := List.mem_filter.mp hgroup
  obtain rfl : flat.voteAccount = voteAccount := voteAccount_aggregatedFlat haggregated
  exact ⟨dc, skipRates, rows, hdc, perm_of_mem_flatWindowGroups hdc hrates hgroup, hhaving,
    haggregated⟩

/-- **Who is in the answer**: the vote accounts with as many rows in the window as it has
epochs, and with credits in seven of them. -/
theorem mem_loadValidatorsAggregatedFlat_iff
    (hload : loadValidatorsAggregatedFlat scan db versions lastEpoch epochs = some result)
    {voteAccount : String} :
    (∃ flat ∈ result, flat.voteAccount = voteAccount) ↔
      (windowRows db.validators lastEpoch epochs voteAccount).length = epochs ∧
        7 ≤ ((windowRows db.validators lastEpoch epochs voteAccount).filter
          fun row => 0 < row.credits).length := by
  constructor
  · rintro ⟨flat, hflat, rfl⟩
    obtain ⟨dc, skipRates, rows, -, hrows, hhaving, -⟩ := exists_rows_of_mem hload hflat
    exact (havingFlat_iff hrows).mp hhaving
  · intro hqualifies
    obtain ⟨dc, hdc, hload⟩ := Option.bind_eq_some_iff.mp hload
    obtain ⟨skipRates, hrates, hload⟩ := Option.bind_eq_some_iff.mp hload
    obtain ⟨flats, hflats, hload⟩ := Option.bind_eq_some_iff.mp hload
    obtain rfl := Option.some.inj hload
    -- seven rows are not no rows, so there is a group
    obtain ⟨row, hrow⟩ := List.exists_mem_of_length_pos (by omega :
      0 < ((windowRows db.validators lastEpoch epochs voteAccount).filter
        fun row => 0 < row.credits).length)
    obtain ⟨rows, hgroup⟩ := exists_flatWindowGroup hdc hrates (List.mem_filter.mp hrow).1
    have hrows := perm_of_mem_flatWindowGroups hdc hrates hgroup
    have hreturned : (voteAccount, rows) ∈ scan.order (flatGroups lastEpoch epochs
        (flatRows scan dc skipRates (aggVersions scan versions) db.validators)) :=
      scan.mem_order.mpr (List.mem_filter.mpr ⟨hgroup, (havingFlat_iff hrows).mpr hqualifies⟩)
    obtain ⟨flat, haggregated⟩ := exists_of_mapM hflats hreturned
    exact ⟨flat, (List.mem_insertionSort _).mpr ((mem_mapM hflats).mpr ⟨_, hreturned, haggregated⟩),
      voteAccount_aggregatedFlat haggregated⟩

/-- **What a validator that qualifies has**: a row for each epoch of the count, and the
average of what the query joins with them. -/
theorem loadValidatorsAggregatedFlat_spec
    (hload : loadValidatorsAggregatedFlat scan db versions lastEpoch epochs = some result)
    (hflat : flat ∈ result) :
    (∃ dc, dcGroups db.validators = some dc) ∧
      (windowRows db.validators lastEpoch epochs flat.voteAccount).length = epochs ∧
      7 ≤ epochs ∧
      flat.avgDcConcentration =
        (average ((windowRows db.validators lastEpoch epochs flat.voteAccount).filterMap
          (seenShare db.validators))).getD 0 := by
  obtain ⟨dc, skipRates, rows, hdc, hrows, hhaving, haggregated⟩ :=
    exists_rows_of_mem hload hflat
  obtain ⟨hcount, hcredits⟩ := (havingFlat_iff hrows).mp hhaving
  have havg : flat.avgDcConcentration =
      (average (rows.filterMap fun row => row.dc.bind DcGroup.dcConcentration)).getD 0 := by
    obtain ⟨-, heq⟩ := Option.ite_none_right_eq_some.mp haggregated
    rw [← Option.some.inj heq]
  refine ⟨⟨dc, hdc⟩, hcount,
    (hcredits.trans (List.length_filter_le _ _)).trans hcount.le, ?_⟩
  rw [havg, average_perm (hrows.filterMap _), List.filterMap_map]
  refine congrArg (fun shares => (average shares).getD 0)
    (List.filterMap_congr fun row hrow => ?_)
  exact find?_dcGroups hdc (List.mem_filter.mp hrow).1

/-! ### Extreme values and versions -/

/-- The version that the query joins with a vote account. -/
def lastVersion (scan : Scan) (versions : List VersionRow) (voteAccount : String) : String :=
  ((latest ChangeRow.voteAccount ChangeRow.createdAt
    (scan.order (versions.filter fun row => row.value.isSome)) voteAccount).bind
      ChangeRow.value).getD "0.0.0"

section Columns

variable {voteAccount : String} {rows : List FlatRow}

/-- The greatest commission fits into its `u8`, so it is that of the rows. -/
theorem maxCommission_le_iff (h : aggregatedFlat voteAccount rows = some flat) (hne : rows ≠ [])
    (bound : Rat) : (flat.maxCommission.toNat : Rat) ≤ bound ↔
      ∀ row ∈ rows, (flatCommission row.validator : Rat) ≤ bound := by
  obtain ⟨⟨hnonneg, hlt⟩, heq⟩ := Option.ite_none_right_eq_some.mp h
  rw [← Option.some.inj heq]
  cases hmax : ((rows.map FlatRow.validator).map flatCommission).max? with
  | none => simp [hne] at hmax
  | some commission =>
    rw [hmax, Option.getD_some] at hnonneg hlt
    have hbyte : (UInt8.ofNat commission.toNat).toNat = commission.toNat :=
      UInt8.toNat_ofNat_of_lt' (show commission.toNat < 256 by omega)
    dsimp only
    rw [Option.getD_some, hbyte, ← Int.cast_natCast, Int.toNat_of_nonneg hnonneg]
    rw [List.map_map] at hmax
    obtain ⟨hmem, hle⟩ := List.max?_eq_some_iff.mp hmax
    constructor
    · intro hbound row hrow
      have hrowLe : flatCommission row.validator ≤ commission :=
        hle _ (List.mem_map.mpr ⟨row, hrow, rfl⟩)
      exact le_trans (Int.cast_le.mpr hrowLe) hbound
    · intro hall
      obtain ⟨row, hrow, rfl⟩ := List.mem_map.mp hmem
      exact hall row hrow

theorem le_minimumStake_iff (h : aggregatedFlat voteAccount rows = some flat) (hne : rows ≠ [])
    (bound : Rat) : bound ≤ flat.minimumStake ↔
      ∀ row ∈ rows, bound ≤ (row.validator.activatedStake / 10 ^ 9 : Rat) := by
  obtain ⟨-, heq⟩ := Option.ite_none_right_eq_some.mp h
  rw [← Option.some.inj heq]
  dsimp only
  rw [List.map_map]
  cases hmin : (rows.map ((fun row : ValidatorsRow => (row.activatedStake / 10 ^ 9 : Rat)) ∘
      FlatRow.validator)).min? with
  | none => simp [hne] at hmin
  | some stake =>
    rw [Option.getD_some, List.le_min?_iff hmin, List.forall_mem_map]
    rfl

/-- The version is the same in all rows of a vote account. -/
theorem version_aggregatedFlat {dc : List DcGroup} {skipRates : List ClusterSkipRate}
    (h : aggregatedFlat voteAccount rows = some flat) (hne : rows ≠ [])
    (hrows : rows.Perm ((windowRows db.validators lastEpoch epochs voteAccount).map
      (joinedRow dc skipRates (aggVersions scan versions)))) :
    flat.version = lastVersion scan versions voteAccount := by
  obtain ⟨-, heq⟩ := Option.ite_none_right_eq_some.mp h
  rw [← Option.some.inj heq]
  cases rows with
  | nil => exact absurd rfl hne
  | cons first rest =>
    obtain ⟨row, hrow, rfl⟩ := List.mem_map.mp (hrows.subset List.mem_cons_self)
    obtain ⟨hvote, -⟩ := of_decide_eq_true (List.mem_filter.mp hrow).2
    show (((aggVersions scan versions).find? _).bind ChangeRow.value).getD "0.0.0" = _
    rw [hvote, aggVersions, find?_distinctOn]
    rfl

/-- **The criteria on the rows**: what the scoring compares with its bounds says the same of
every row of the window. -/
theorem columns_of_mem
    (hload : loadValidatorsAggregatedFlat scan db versions lastEpoch epochs = some result)
    (hflat : flat ∈ result) :
    flat.version = lastVersion scan versions flat.voteAccount ∧
      (∀ bound : Rat, (flat.maxCommission.toNat : Rat) ≤ bound ↔
        ∀ row ∈ windowRows db.validators lastEpoch epochs flat.voteAccount,
          (flatCommission row : Rat) ≤ bound) ∧
      ∀ bound : Rat, bound ≤ flat.minimumStake ↔
        ∀ row ∈ windowRows db.validators lastEpoch epochs flat.voteAccount,
          bound ≤ (row.activatedStake / 10 ^ 9 : Rat) := by
  obtain ⟨dc, skipRates, rows, -, hrows, hhaving, haggregated⟩ := exists_rows_of_mem hload hflat
  obtain ⟨-, hcredits⟩ := (havingFlat_iff hrows).mp hhaving
  have hne : rows ≠ [] := by
    rintro rfl
    have hnil := List.map_eq_nil_iff.mp hrows.nil_eq.symm
    rw [hnil] at hcredits
    exact absurd hcredits (by decide)
  have hall : ∀ p : ValidatorsRow → Prop, (∀ row ∈ rows, p row.validator) ↔
      ∀ row ∈ windowRows db.validators lastEpoch epochs flat.voteAccount, p row := by
    intro p
    simp only [hrows.mem_iff, List.forall_mem_map]
    rfl
  refine ⟨version_aggregatedFlat haggregated hne hrows, fun bound => ?_, fun bound => ?_⟩
  · rw [maxCommission_le_iff haggregated hne, hall fun row => (flatCommission row : Rat) ≤ bound]
  · rw [le_minimumStake_iff haggregated hne,
      hall fun row => bound ≤ (row.activatedStake / 10 ^ 9 : Rat)]

end Columns

end Rows

/-! ## The reported concentrations -/

/-- What `load_dc_concentration_stats` assigns to a provider in an epoch, in exact
arithmetic (`get?_dcEpochStats`). -/
def dcShare (validators : List ValidatorsRow) (epoch : Nat) (provider : String) : Rat :=
  (((validators.filter fun row =>
    row.epoch = epoch ∧ row.dcAso.getD "Unknown" = provider).map
      ValidatorsRow.activatedStake).sum : Rat) / clusterStake validators epoch

/-- The provider under which a validator is reported. -/
def providerIn (validators : List ValidatorsRow) (voteAccount : String) (epoch : Nat) : String :=
  ((validators.find? fun row => row.voteAccount = voteAccount ∧ row.epoch = epoch).bind
    ValidatorsRow.dcAso).getD "Unknown"

/-- The average over the window of the concentration of the provider. -/
def reportedConcentration (validators : List ValidatorsRow) (lastEpoch epochs : Nat)
    (voteAccount : String) : Rat :=
  ((flatEpochs lastEpoch epochs).map fun epoch =>
    dcShare validators epoch (providerIn validators voteAccount epoch)).sum /
      (flatEpochs lastEpoch epochs).length

/-- The two views agree on a validator, so that it never has a concentration below that of
the group it is reported in. -/
structure ViewsAgree (validators : List ValidatorsRow) (lastEpoch epochs : Nat)
    (flat : ValidatorAggregatedFlat) : Prop where
  equal : flat.avgDcConcentration =
    reportedConcentration validators lastEpoch epochs flat.voteAccount
  notLower : reportedConcentration validators lastEpoch epochs flat.voteAccount ≤
    flat.avgDcConcentration

section Reported

variable {validators : List ValidatorsRow} {stakes stakes' : DcStakes}

/-- What a row adds to the stake of a provider. -/
theorem get?_addRow {row : ValidatorsRow} (h : stakes.addRow row = some stakes')
    (provider : String) :
    stakes'.byAso.get? provider = (if row.dcAso.getD "Unknown" = provider then
        some (((stakes.byAso.get? provider).getD 0) + UInt64.ofNat row.activatedStake)
      else stakes.byAso.get? provider) ∧
    stakes'.totalActiveStake = stakes.totalActiveStake + UInt64.ofNat row.activatedStake := by
  obtain ⟨stake, hstake, h⟩ := Option.bind_eq_some_iff.mp h
  obtain rfl := Option.some.inj h
  obtain ⟨-, rfl⟩ := decimalToU64_eq_some_iff.mp hstake
  refine ⟨?_, rfl⟩
  show (addStake stakes.byAso _ _).get? provider = _
  unfold addStake
  rw [Dict.get?_insert]
  by_cases hk : row.dcAso.getD "Unknown" = provider
  · rw [if_pos hk.symm, if_pos hk, hk]
  · rw [if_neg (Ne.symm hk), if_neg hk]

/-- What the rows of an epoch add. -/
theorem get?_foldlM_addRow {rows : List ValidatorsRow}
    (h : rows.foldlM DcStakes.addRow stakes = some stakes') (provider : String) :
    (stakes'.byAso.get? provider).getD 0 = (stakes.byAso.get? provider).getD 0 + UInt64.ofNat
        ((rows.filter fun row => row.dcAso.getD "Unknown" = provider).map
          ValidatorsRow.activatedStake).sum ∧
      stakes'.totalActiveStake = stakes.totalActiveStake +
        UInt64.ofNat (rows.map ValidatorsRow.activatedStake).sum ∧
      (stakes'.byAso.get? provider = none ↔ stakes.byAso.get? provider = none ∧
        ∀ row ∈ rows, row.dcAso.getD "Unknown" ≠ provider) := by
  induction rows generalizing stakes with
  | nil =>
    obtain rfl := Option.some.inj h
    simp
  | cons row rows ih =>
    rw [List.foldlM_cons] at h
    obtain ⟨stakes₁, hrow, hrows⟩ := Option.bind_eq_some_iff.mp h
    obtain ⟨hget, htotal⟩ := get?_addRow hrow provider
    obtain ⟨hget', htotal', hnone⟩ := ih hrows
    rw [hget', htotal', hnone, hget, htotal]
    refine ⟨?_, ?_, ?_⟩
    · by_cases hk : row.dcAso.getD "Unknown" = provider
      · rw [if_pos hk, List.filter_cons_of_pos (by simpa using hk), List.map_cons, List.sum_cons,
          UInt64.ofNat_add, Option.getD_some, UInt64.add_assoc]
      · rw [if_neg hk, List.filter_cons_of_neg (by simpa using hk)]
    · rw [List.map_cons, List.sum_cons, UInt64.ofNat_add, UInt64.add_assoc]
    · by_cases hk : row.dcAso.getD "Unknown" = provider
      · simp [hk]
      · simp [hk]

theorem filter_provider (validators : List ValidatorsRow) (epoch : Nat) (provider : String) :
    ((validators.filter fun row => row.epoch = epoch).filter fun row =>
        row.dcAso.getD "Unknown" = provider) =
      validators.filter fun row => row.epoch = epoch ∧ row.dcAso.getD "Unknown" = provider := by
  rw [List.filter_filter]
  refine List.filter_congr fun row _ => ?_
  rw [Bool.and_comm]
  exact (Bool.decide_and _ _).symm

/-- **The statistics are exact** as long as the stakes of the epoch fit into a `u64`. -/
theorem get?_dcEpochStats (scan : Scan) {db : Database} {row : ValidatorsRow}
    (hrow : row ∈ db.validators) (hpos : clusterStake db.validators row.epoch ≠ 0)
    (hfits : clusterStake db.validators row.epoch < 2 ^ 64) :
    ∃ stats, dcEpochStats scan db row.epoch = some stats ∧
      stats.dcConcentrationByAso.get? (row.dcAso.getD "Unknown") =
        some (some (dcShare db.validators row.epoch (row.dcAso.getD "Unknown"))) := by
  have hperm := (scan.perm db.validators).filter fun r => r.epoch = row.epoch
  have hmem : row ∈ (scan.order db.validators).filter fun r => r.epoch = row.epoch :=
    List.mem_filter.mpr ⟨scan.mem_order.mpr hrow, decide_eq_true rfl⟩
  have hsome : ∃ stakes, ((scan.order db.validators).filter fun r =>
      r.epoch = row.epoch).foldlM DcStakes.addRow {} = some stakes := by
    refine Option.isSome_iff_exists.mp (isSome_foldlM (fun r hr stakes => ?_) _)
    have hle : r.activatedStake ≤ clusterStake db.validators row.epoch :=
      List.single_le_sum (fun _ _ => Nat.zero_le _) _
        (List.mem_map_of_mem (hperm.mem_iff.mp hr))
    unfold DcStakes.addRow
    rw [decimalToU64_natCast (hle.trans_lt hfits)]
    rfl
  obtain ⟨stakes, hstakes⟩ := hsome
  obtain ⟨hget, htotal, hnone⟩ := get?_foldlM_addRow hstakes (row.dcAso.getD "Unknown")
  refine ⟨stakes.stats row.epoch, by rw [dcEpochStats, hstakes]; rfl, ?_⟩
  obtain ⟨stake, hstake⟩ : ∃ stake, stakes.byAso.get? (row.dcAso.getD "Unknown") = some stake :=
    Option.ne_none_iff_exists'.mp fun h => (hnone.mp h).2 row hmem rfl
  -- neither the stake of the provider nor that of the epoch wraps around
  have htotal' : stakes.totalActiveStake.toNat = clusterStake db.validators row.epoch := by
    rw [htotal, (hperm.map ValidatorsRow.activatedStake).sum_eq]
    show (0 + UInt64.ofNat (clusterStake db.validators row.epoch)).toNat = _
    rw [UInt64.zero_add, UInt64.toNat_ofNat_of_lt' hfits]
  have hstake' : stake.toNat = ((db.validators.filter fun r => r.epoch = row.epoch ∧
      r.dcAso.getD "Unknown" = row.dcAso.getD "Unknown").map ValidatorsRow.activatedStake).sum := by
    have hfilter := filter_provider db.validators row.epoch (row.dcAso.getD "Unknown")
    have hle : (((db.validators.filter fun r => r.epoch = row.epoch).filter fun r =>
        r.dcAso.getD "Unknown" = row.dcAso.getD "Unknown").map ValidatorsRow.activatedStake).sum ≤
          clusterStake db.validators row.epoch :=
      (List.filter_sublist.map _).sum_le_sum fun _ _ => Nat.zero_le _
    have hsum := ((hperm.filter fun r =>
      r.dcAso.getD "Unknown" = row.dcAso.getD "Unknown").map ValidatorsRow.activatedStake).sum_eq
    rw [hstake, hsum] at hget
    rw [← hfilter, ← UInt64.toNat_ofNat_of_lt' (hle.trans_lt hfits)]
    show stake.toNat = _
    rw [show stake = (some stake).getD 0 from rfl, hget]
    exact congrArg UInt64.toNat (UInt64.zero_add _)
  have hne : stakes.totalActiveStake ≠ 0 := fun h => hpos (by rw [← htotal', h]; rfl)
  show (mapStakeToConcentration stakes.byAso stakes.totalActiveStake).get? _ = _
  unfold mapStakeToConcentration
  rw [Dict.get?_mapVal, hstake, Option.map_some, if_neg hne, hstake', htotal']
  rfl

end Reported

/-! ## When the views agree -/

/-- The part of the reported concentration that the query does not join with a row. -/
def unseenShare (validators : List ValidatorsRow) (row : ValidatorsRow) : Rat :=
  if row.dcAso = none then dcShare validators row.epoch "Unknown"
  else if row.dcAso = some "Unknown" then
    (dcStake validators row.epoch none : Rat) / clusterStake validators row.epoch
  else 0

/-- Every row has a provider, and where the provider has the name "Unknown", no stake is
without a provider. -/
structure Located (validators rows : List ValidatorsRow) : Prop where
  provider : ∀ row ∈ rows, row.dcAso ≠ none
  unknown : ∀ row ∈ rows, row.dcAso = some "Unknown" → dcStake validators row.epoch none = 0

/-- Rows without a provider whose unseen concentrations happen to be, for each of these rows,
the average of the concentrations of the other rows. -/
def Balanced (validators rows : List ValidatorsRow) : Prop :=
  let located := rows.filter fun row => row.dcAso.isSome
  let hidden := rows.filter fun row => row.dcAso.isNone
  let seen := (located.filterMap (seenShare validators)).sum
  let unseen := (rows.map (unseenShare validators)).sum
  hidden ≠ [] ∧ located.length * unseen = hidden.length * seen ∧ (located = [] → unseen = 0)

section Agree

variable {validators rows : List ValidatorsRow}

/-- Averaging over the located rows only. -/
theorem average_eq_mean_iff {K U : Rat} {k m : Nat} (hpos : 0 < k + m) (hK : k = 0 → K = 0) :
    (if k = 0 then 0 else K / k) = (K + U) / (k + m : Nat) ↔
      (k : Rat) * U = m * K ∧ (k = 0 → U = 0) := by
  have hn : ((k + m : Nat) : Rat) ≠ 0 := by exact_mod_cast hpos.ne'
  by_cases hk : k = 0
  · subst hk
    rw [if_pos rfl, eq_div_iff hn, hK rfl]
    constructor
    · intro h
      have hU : U = 0 := by linarith
      exact ⟨by simp [hU], fun _ => hU⟩
    · rintro ⟨-, hU⟩
      rw [hU rfl]
      ring
  · have hk' : (k : Rat) ≠ 0 := by exact_mod_cast hk
    rw [if_neg hk, div_eq_div_iff hk' hn, Nat.cast_add]
    constructor
    · intro h
      exact ⟨by linarith, fun h0 => absurd h0 hk⟩
    · rintro ⟨h, -⟩
      linarith

theorem sum_filter_or {p q : ValidatorsRow → Prop} [DecidablePred p] [DecidablePred q]
    (h : ∀ row, p row → ¬ q row) (validators : List ValidatorsRow) :
    ((validators.filter fun row => p row ∨ q row).map ValidatorsRow.activatedStake).sum =
      ((validators.filter fun row => p row).map ValidatorsRow.activatedStake).sum +
        ((validators.filter fun row => q row).map ValidatorsRow.activatedStake).sum := by
  induction validators with
  | nil => rfl
  | cons row validators ih =>
    by_cases hp : p row
    · rw [List.filter_cons_of_pos (by simp [hp]), List.filter_cons_of_pos (by simpa using hp),
        List.filter_cons_of_neg (by simpa using h row hp)]
      simp only [List.map_cons, List.sum_cons, ih, Nat.add_assoc]
    · by_cases hq : q row
      · rw [List.filter_cons_of_pos (by simp [hq]), List.filter_cons_of_neg (by simpa using hp),
          List.filter_cons_of_pos (by simpa using hq)]
        simp only [List.map_cons, List.sum_cons, ih, Nat.add_left_comm]
      · rw [List.filter_cons_of_neg (by simpa using ⟨hp, hq⟩),
          List.filter_cons_of_neg (by simpa using hp), List.filter_cons_of_neg (by simpa using hq)]
        exact ih

/-- The group "Unknown" of an epoch. -/
theorem dcShare_unknown (validators : List ValidatorsRow) (epoch : Nat) :
    dcShare validators epoch "Unknown" =
      (dcStake validators epoch (some "Unknown") : Rat) / clusterStake validators epoch +
        (dcStake validators epoch none : Rat) / clusterStake validators epoch := by
  have hsplit := sum_filter_or (p := fun row => row.epoch = epoch ∧ row.dcAso = some "Unknown")
    (q := fun row => row.epoch = epoch ∧ row.dcAso = none)
    (fun row hp hq => nomatch hp.2.symm.trans hq.2) validators
  have hfilter : (validators.filter fun row =>
      row.epoch = epoch ∧ row.dcAso.getD "Unknown" = "Unknown") =
      validators.filter fun row => (row.epoch = epoch ∧ row.dcAso = some "Unknown") ∨
        (row.epoch = epoch ∧ row.dcAso = none) := by
    refine List.filter_congr fun row _ => decide_eq_decide.mpr ?_
    cases row.dcAso with
    | none => simp
    | some dcAso => simp
  unfold dcShare dcStake
  rw [hfilter, ← add_div, hsplit, Nat.cast_add]

/-- The reported concentration of a row is what the query sees of it and what it does not. -/
theorem dcShare_eq (validators : List ValidatorsRow) (row : ValidatorsRow) :
    dcShare validators row.epoch (row.dcAso.getD "Unknown") =
      (seenShare validators row).getD 0 + unseenShare validators row := by
  unfold seenShare unseenShare
  cases haso : row.dcAso with
  | none => simp
  | some dcAso =>
    by_cases hunknown : dcAso = "Unknown"
    · subst hunknown
      simpa using dcShare_unknown validators row.epoch
    · have hfilter : (validators.filter fun r =>
          r.epoch = row.epoch ∧ r.dcAso.getD "Unknown" = dcAso) =
          validators.filter fun r => r.epoch = row.epoch ∧ r.dcAso = some dcAso := by
        refine List.filter_congr fun r _ => decide_eq_decide.mpr ?_
        cases r.dcAso with
        | none => simp [Ne.symm hunknown]
        | some _ => simp
      have hunseen : row.dcAso ≠ none ∧ row.dcAso ≠ some "Unknown" := by simp [haso, hunknown]
      rw [Option.getD_some, Option.map_some, Option.getD_some, ← haso, if_neg hunseen.1,
        if_neg hunseen.2, add_zero, dcShare, hfilter, haso, dcStake]

theorem unseenShare_nonneg (validators : List ValidatorsRow) (row : ValidatorsRow) :
    0 ≤ unseenShare validators row := by
  unfold unseenShare dcShare
  split
  · positivity
  · split
    · positivity
    · exact le_refl 0

theorem isSome_seenShare (validators : List ValidatorsRow) (row : ValidatorsRow) :
    (seenShare validators row).isSome = row.dcAso.isSome :=
  Option.isSome_map

/-- What the query sees comes from the located rows. -/
theorem filterMap_seenShare (validators rows : List ValidatorsRow) :
    (rows.filter fun row => row.dcAso.isSome).filterMap (seenShare validators) =
      rows.filterMap (seenShare validators) := by
  rw [List.filterMap_filter]
  refine List.filterMap_congr fun row _ => ?_
  cases haso : row.dcAso with
  | none => simp [seenShare, haso]
  | some dcAso => rfl

theorem length_filterMap_seenShare (validators rows : List ValidatorsRow) :
    (rows.filterMap (seenShare validators)).length =
      (rows.filter fun row => row.dcAso.isSome).length := by
  rw [List.length_filterMap_eq_countP, List.countP_eq_length_filter]
  simp only [isSome_seenShare]

theorem length_located_add (rows : List ValidatorsRow) :
    (rows.filter fun row => row.dcAso.isSome).length +
      (rows.filter fun row => row.dcAso.isNone).length = rows.length := by
  rw [← List.countP_eq_length_filter, ← List.countP_eq_length_filter,
    List.length_eq_countP_add_countP fun row : ValidatorsRow => row.dcAso.isSome]
  congr 1
  refine List.countP_congr fun row _ => ?_
  cases row.dcAso with
  | none => simp
  | some dcAso => simp

/-- The reported concentrations are what the query sees of the rows and what it does not. -/
theorem sum_dcShare (validators rows : List ValidatorsRow) :
    (rows.map fun row => dcShare validators row.epoch (row.dcAso.getD "Unknown")).sum =
      (rows.filterMap (seenShare validators)).sum + (rows.map (unseenShare validators)).sum := by
  rw [← sum_getD_eq, ← List.sum_map_add]
  exact congrArg List.sum (List.map_congr_left fun row _ => dcShare_eq validators row)

/-- One row for each epoch of the window. -/
theorem map_epoch_windowRows {lastEpoch epochs : Nat} {voteAccount : String}
    (hkey : PrimaryKey validators) (hpos : 0 < epochs)
    (hlength : (windowRows validators lastEpoch epochs voteAccount).length = epochs) :
    ((windowRows validators lastEpoch epochs voteAccount).map ValidatorsRow.epoch).Perm
      (flatEpochs lastEpoch epochs) := by
  have hmem : ∀ row ∈ windowRows validators lastEpoch epochs voteAccount,
      row.voteAccount = voteAccount ∧ (flatWindow lastEpoch epochs).1 ≤ row.epoch ∧
        row.epoch ≤ lastEpoch :=
    fun row hrow => of_decide_eq_true (List.mem_filter.mp hrow).2
  have hnd : ((windowRows validators lastEpoch epochs voteAccount).map
      ValidatorsRow.epoch).Nodup := by
    refine List.Nodup.of_map (fun epoch => (voteAccount, epoch)) ?_
    rw [List.map_map]
    have hpairs := (hkey.sublist (List.filter_sublist.map _) :
      ((windowRows validators lastEpoch epochs voteAccount).map
        fun row => (row.voteAccount, row.epoch)).Nodup)
    have hvote : (windowRows validators lastEpoch epochs voteAccount).map
          (fun row => (row.voteAccount, row.epoch)) =
        (windowRows validators lastEpoch epochs voteAccount).map
          ((fun epoch => (voteAccount, epoch)) ∘ ValidatorsRow.epoch) :=
      List.map_congr_left fun row hrow => Prod.ext (hmem row hrow).1 rfl
    rwa [hvote] at hpairs
  have hsubset : (windowRows validators lastEpoch epochs voteAccount).map ValidatorsRow.epoch ⊆
      flatEpochs lastEpoch epochs := by
    intro epoch hepoch
    obtain ⟨row, hrow, rfl⟩ := List.mem_map.mp hepoch
    obtain ⟨-, hfirst, hlast⟩ := hmem row hrow
    exact List.mem_range'_1.mpr ⟨hfirst, by omega⟩
  refine (List.subperm_of_subset hnd hsubset).perm_of_length_le ?_
  rw [List.length_map, hlength, flatEpochs, List.length_range', flatWindow]
  dsimp only
  omega

theorem providerIn_eq (hkey : PrimaryKey validators) {row : ValidatorsRow}
    (hrow : row ∈ validators) :
    providerIn validators row.voteAccount row.epoch = row.dcAso.getD "Unknown" := by
  have hfind : validators.find? (fun r => r.voteAccount = row.voteAccount ∧
      r.epoch = row.epoch) = some row := by
    cases hfind : validators.find? (fun r => r.voteAccount = row.voteAccount ∧
        r.epoch = row.epoch) with
    | none => exact absurd (decide_eq_true ⟨rfl, rfl⟩) (List.find?_eq_none.mp hfind row hrow)
    | some row' =>
      have hsame := List.find?_some hfind
      obtain ⟨hvote, hepoch⟩ := of_decide_eq_true hsame
      rw [hkey.eq_of_key (List.mem_of_find?_eq_some hfind) hrow hvote hepoch]
  unfold providerIn
  rw [hfind]
  rfl

theorem reportedConcentration_eq {lastEpoch epochs : Nat} {voteAccount : String}
    (hkey : PrimaryKey validators) (hpos : 0 < epochs)
    (hlength : (windowRows validators lastEpoch epochs voteAccount).length = epochs) :
    reportedConcentration validators lastEpoch epochs voteAccount =
      ((windowRows validators lastEpoch epochs voteAccount).map fun row =>
        dcShare validators row.epoch (row.dcAso.getD "Unknown")).sum /
          (windowRows validators lastEpoch epochs voteAccount).length := by
  have hperm := map_epoch_windowRows hkey hpos hlength
  unfold reportedConcentration
  rw [← hperm.length_eq, List.length_map, ← (hperm.map _).sum_eq, List.map_map]
  congr 2
  refine List.map_congr_left fun row hrow => ?_
  obtain ⟨hmem, hcond⟩ := List.mem_filter.mp hrow
  obtain ⟨rfl, -⟩ := of_decide_eq_true hcond
  show dcShare validators row.epoch (providerIn validators row.voteAccount row.epoch) = _
  rw [providerIn_eq hkey hmem]

/-- Rows that all have a provider see everything but the stake without one. -/
theorem located_iff (hpos : ∀ row ∈ rows, clusterStake validators row.epoch ≠ 0)
    (hall : (rows.filter fun row => row.dcAso.isNone) = []) :
    Located validators rows ↔ (rows.map (unseenShare validators)).sum = 0 := by
  have hprovider : ∀ row ∈ rows, row.dcAso ≠ none := fun row hrow hnone =>
    List.filter_eq_nil_iff.mp hall row hrow (by rw [hnone]; rfl)
  have hunseen : ∀ row ∈ rows, unseenShare validators row = 0 ↔
      (row.dcAso = some "Unknown" → dcStake validators row.epoch none = 0) := by
    intro row hrow
    unfold unseenShare
    rw [if_neg (hprovider row hrow)]
    by_cases hunknown : row.dcAso = some "Unknown"
    · rw [if_pos hunknown, div_eq_zero_iff, or_iff_left (Nat.cast_ne_zero.mpr (hpos row hrow)),
        Nat.cast_eq_zero]
      exact ⟨fun h _ => h, fun h => h hunknown⟩
    · rw [if_neg hunknown]
      exact ⟨fun _ h => absurd h hunknown, fun _ => rfl⟩
  constructor
  · rintro ⟨-, hunknown⟩
    refine List.sum_eq_zero fun share hshare => ?_
    obtain ⟨row, hrow, rfl⟩ := List.mem_map.mp hshare
    exact (hunseen row hrow).mpr (hunknown row hrow)
  · intro hsum
    refine ⟨hprovider, fun row hrow => (hunseen row hrow).mp ?_⟩
    refine List.all_zero_of_le_zero_le_of_sum_eq_zero (fun share hshare => ?_) hsum
      (List.mem_map_of_mem hrow)
    obtain ⟨row', -, rfl⟩ := List.mem_map.mp hshare
    exact unseenShare_nonneg validators row'

/-- The average over the rows that are seen is the mean of all exactly in these two cases. -/
theorem average_seen_iff (hpos : ∀ row ∈ rows, clusterStake validators row.epoch ≠ 0)
    (hne : rows ≠ []) :
    (average (rows.filterMap (seenShare validators))).getD 0 =
        (rows.map fun row => dcShare validators row.epoch (row.dcAso.getD "Unknown")).sum /
          rows.length ↔
      Located validators rows ∨ Balanced validators rows := by
  have hlocated := length_filterMap_seenShare validators rows
  have hcount := length_located_add rows
  have hzero : (rows.filter fun row => row.dcAso.isSome).length = 0 →
      (rows.filterMap (seenShare validators)).sum = 0 := by
    intro h
    rw [List.eq_nil_of_length_eq_zero (hlocated.trans h)]
    rfl
  have haverage : (average (rows.filterMap (seenShare validators))).getD 0 =
      if (rows.filter fun row => row.dcAso.isSome).length = 0 then 0
      else (rows.filterMap (seenShare validators)).sum /
        (rows.filter fun row => row.dcAso.isSome).length := by
    unfold average
    rw [← hlocated]
    by_cases hnil : rows.filterMap (seenShare validators) = []
    · rw [if_pos hnil, hnil]
      rfl
    · rw [if_neg hnil, if_neg fun h => hnil (List.eq_nil_of_length_eq_zero h)]
      rfl
  have hrows : 0 < rows.length := List.length_pos_of_ne_nil hne
  rw [haverage, sum_dcShare, ← hcount, average_eq_mean_iff (by omega) hzero]
  by_cases hall : (rows.filter fun row => row.dcAso.isNone) = []
  · -- all rows are located
    have hbalanced : ¬ Balanced validators rows := fun h => h.1 hall
    rw [or_iff_left hbalanced, located_iff hpos hall, hall]
    rw [hall, List.length_nil, Nat.add_zero] at hcount
    have hcast : ((rows.filter fun row => row.dcAso.isSome).length : Rat) ≠ 0 := by
      rw [hcount]
      exact Nat.cast_ne_zero.mpr hrows.ne'
    rw [List.length_nil, Nat.cast_zero, zero_mul, mul_eq_zero, or_iff_right hcast]
    exact and_iff_left_of_imp fun h _ => h
  · have hlocated : ¬ Located validators rows := by
      intro h
      obtain ⟨row, hrow⟩ := List.exists_mem_of_ne_nil _ hall
      obtain ⟨hmem, hnone⟩ := List.mem_filter.mp hrow
      exact h.provider row hmem (Option.isNone_iff_eq_none.mp hnone)
    rw [or_iff_right hlocated]
    unfold Balanced
    dsimp only
    rw [filterMap_seenShare, List.length_eq_zero_iff]
    exact (and_iff_right hall).symm

/-- **When the two views of the concentration agree**: for a validator that qualifies, exactly
if it is located in all epochs of the window or its concentrations happen to be balanced. The
exact concentrations are what `load_dc_concentration_stats` assigns as long as the stakes of
the epoch fit into a `u64`. -/
theorem avgDcConcentration_iff (scan scan' : Scan) (db : Database) (versions : List VersionRow)
    (lastEpoch epochs : Nat) (hkey : PrimaryKey db.validators)
    {result : List ValidatorAggregatedFlat}
    (hload : loadValidatorsAggregatedFlat scan db versions lastEpoch epochs = some result)
    {flat : ValidatorAggregatedFlat} (hflat : flat ∈ result) :
    (ViewsAgree db.validators lastEpoch epochs flat ↔
      Located db.validators (windowRows db.validators lastEpoch epochs flat.voteAccount) ∨
        Balanced db.validators (windowRows db.validators lastEpoch epochs flat.voteAccount)) ∧
    ∀ epoch ∈ flatEpochs lastEpoch epochs, clusterStake db.validators epoch < 2 ^ 64 →
      ∃ stats, dcEpochStats scan' db epoch = some stats ∧
        stats.dcConcentrationByAso.get? (providerIn db.validators flat.voteAccount epoch) =
          some (some (dcShare db.validators epoch
            (providerIn db.validators flat.voteAccount epoch))) := by
  obtain ⟨⟨dc, hdc⟩, hlength, hseven, havg⟩ := loadValidatorsAggregatedFlat_spec hload hflat
  have hpos : 0 < epochs := by omega
  have hstake : ∀ row ∈ windowRows db.validators lastEpoch epochs flat.voteAccount,
      clusterStake db.validators row.epoch ≠ 0 := fun row hrow =>
    clusterStake_ne_zero hdc (List.mem_filter.mp hrow).1
  have hreported := reportedConcentration_eq hkey hpos hlength
  have hne : windowRows db.validators lastEpoch epochs flat.voteAccount ≠ [] := fun hnil => by
    rw [hnil] at hlength
    exact hpos.ne hlength
  refine ⟨?_, fun epoch hepoch hfits => ?_⟩
  · rw [← average_seen_iff hstake hne, ← hreported, ← havg]
    exact ⟨fun h => h.equal, fun h => ⟨h, h.ge⟩⟩
  · obtain ⟨row, hrow, rfl⟩ :=
      List.mem_map.mp ((map_epoch_windowRows hkey hpos hlength).mem_iff.mpr hepoch)
    obtain ⟨hmem, hcond⟩ := List.mem_filter.mp hrow
    obtain ⟨hvote, -⟩ := of_decide_eq_true hcond
    rw [← hvote, providerIn_eq hkey hmem]
    exact get?_dcEpochStats scan' hmem (hstake row hrow) hfits

/-- A validator without a provider in the window has the concentration 0, whatever stake is
in its group. -/
theorem avgDcConcentration_hidden {scan : Scan} {db : Database} {versions : List VersionRow}
    {lastEpoch epochs : Nat} {result : List ValidatorAggregatedFlat}
    (hload : loadValidatorsAggregatedFlat scan db versions lastEpoch epochs = some result)
    {flat : ValidatorAggregatedFlat} (hflat : flat ∈ result)
    (hhidden : ∀ row ∈ windowRows db.validators lastEpoch epochs flat.voteAccount,
      row.dcAso = none) : flat.avgDcConcentration = 0 := by
  obtain ⟨-, -, -, havg⟩ := loadValidatorsAggregatedFlat_spec hload hflat
  have hnil : (windowRows db.validators lastEpoch epochs flat.voteAccount).filterMap
      (seenShare db.validators) = [] := by
    refine List.filterMap_eq_nil_iff.mpr fun row hrow => ?_
    rw [seenShare, hhidden row hrow]
    rfl
  rw [havg, hnil]
  rfl

end Agree

/-- What `load_dc_concentration_stats` returns for an epoch is the body of its loop. -/
theorem mem_loadDcConcentrationStats {scan : Scan} {epochs : Nat} {db : Database}
    {loaded : List DCConcentrationStats} (h : loadDcConcentrationStats scan epochs db = some loaded)
    {stats : DCConcentrationStats} (hstats : stats ∈ loaded) :
    dcEpochStats scan db stats.epoch = some stats := by
  obtain ⟨epoch, -, hepoch⟩ := (mem_mapM h).mp hstats
  rw [epoch_dcEpochStats hepoch]
  exact hepoch

/-! ### Seven epochs of one validator -/

/-- The validator of `singleValidators` in the epochs 501 to 507. -/
def sevenEpochs (dataCenter : Option ValidatorDataCenter) : Database where
  validators := (List.range' 501 7).flatMap fun epoch =>
    let snapshot := singleValidators 0 10
    upserted .sequential { snapshot with
      epoch := epoch
      validators := snapshot.validators.map fun v => { v with dataCenter := dataCenter } } []
  epochs := []
  commissions := []
  uptimes := []
  clusterInfo := []

theorem sevenEpochs_key (dataCenter : Option ValidatorDataCenter) :
    PrimaryKey (sevenEpochs dataCenter).validators := by
  have hkeys : (sevenEpochs dataCenter).validators.map (fun row => (row.voteAccount, row.epoch)) =
      (List.range' 501 7).map fun epoch => ("vote", epoch) := rfl
  unfold PrimaryKey
  rw [hkeys]
  decide

/-- With its provider the validator has the concentration of the provider. -/
theorem avgDcConcentration_iff_located :
    ∃ result, loadValidatorsAggregatedFlat .sequential (sevenEpochs (some (.new frankfurt))) []
        507 7 = some result ∧
      ∃ flat ∈ result, ViewsAgree (sevenEpochs (some (.new frankfurt))).validators 507 7 flat := by
  obtain ⟨result, hload⟩ := Option.isSome_iff_exists.mp (by decide :
    (loadValidatorsAggregatedFlat .sequential (sevenEpochs (some (.new frankfurt))) []
      507 7).isSome)
  have hvote : (loadValidatorsAggregatedFlat .sequential (sevenEpochs (some (.new frankfurt))) []
      507 7).map (List.map ValidatorAggregatedFlat.voteAccount) = some ["vote"] := by
    decide
  rw [hload] at hvote
  obtain ⟨flat, rfl, hflatVote⟩ := List.map_eq_singleton_iff.mp (Option.some.inj hvote)
  refine ⟨[flat], hload, flat, List.mem_singleton_self _, ?_⟩
  refine (avgDcConcentration_iff .sequential .sequential _ [] 507 7 (sevenEpochs_key _) hload
    (List.mem_singleton_self _)).1.mpr (Or.inl ⟨?_, ?_⟩)
  · rw [hflatVote]
    decide
  · rw [hflatVote]
    decide

/-- Without a provider the validator is reported in a group with all stake, and the average
is 0. -/
theorem avgDcConcentration_below_group :
    ¬ ∀ (scan : Scan) (db : Database) (versions : List VersionRow) (lastEpoch epochs : Nat),
      PrimaryKey db.validators → ∀ result,
        loadValidatorsAggregatedFlat scan db versions lastEpoch epochs = some result →
          ∀ flat ∈ result, ViewsAgree db.validators lastEpoch epochs flat := by
  intro h
  obtain ⟨result, hload⟩ := Option.isSome_iff_exists.mp (by decide :
    (loadValidatorsAggregatedFlat .sequential (sevenEpochs none) [] 507 7).isSome)
  have hrun : (loadValidatorsAggregatedFlat .sequential (sevenEpochs none) [] 507 7).map
      (List.map fun flat => (flat.voteAccount, flat.avgDcConcentration)) =
        some [("vote", 0)] := by
    decide
  rw [hload] at hrun
  obtain ⟨flat, rfl, hflat⟩ := List.map_eq_singleton_iff.mp (Option.some.inj hrun)
  obtain ⟨hvote, havg⟩ := Prod.mk.inj hflat
  have hlower := (h .sequential (sevenEpochs none) [] 507 7 (sevenEpochs_key _) _ hload flat
    (List.mem_singleton_self _)).notLower
  rw [hvote, havg] at hlower
  exact absurd hlower (by decide +kernel)

end DelegationStrategy.Store
