import DelegationStrategy.Lib.FullJoin
import DelegationStrategy.Store.EpochIntervals
import DelegationStrategy.Store.LoadValidators
import Mathlib.Algebra.BigOperators.Ring.Finset
import Mathlib.Algebra.BigOperators.Ring.List
import Mathlib.Tactic.FieldSimp
import Mathlib.Tactic.Ring

/-!
# The yields of an epoch

`get_apy_calculators` (`store/src/utils.rs`) joins `epochs` with `validators` and keeps for
each epoch its supply, its duration, its inflation and the sum of credits weighted by stake.
`InflationApyCalculator::estimate_yields` shares the rewards of an epoch out by these weights.

- `yields_addUp`: what the stakers and the operators of an epoch's validators are promised
  adds up to the inflation of the epoch, whatever the commissions are, if the epoch has credits
  and a duration;
- `yields_ofClosedEpochs`: while epochs are closed in any order, the query never fails on
  numbers that fit, and `load_validators` has yields for exactly the rows of closed epochs.

The floating point numbers of the code are exact here, and `powf` is a parameter.
-/

namespace DelegationStrategy.Store

open DelegationStrategy.Lib DelegationStrategy.Collect

/-! ## `estimate_yields` -/

/-- `SECONDS_IN_YEAR`. -/
def secondsInYear : Rat := 1461 / 4 * 24 * 3600

/-- `IDEAL_SLOT_DURATION_MS`. -/
def idealSlotDurationMs : Nat := 400

/-- `SLOTS_IN_EPOCH`. -/
def slotsInEpoch : Nat := 432000

/-- `SECONDS_IN_IDEAL_EPOCH`. -/
def secondsInIdealEpoch : Nat := slotsInEpoch * idealSlotDurationMs / 1000

/-- `IDEAL_EPOCHS_PER_YEAR`. -/
def idealEpochsPerYear : Rat := secondsInYear / secondsInIdealEpoch

structure InflationApyCalculator where
  supply : Nat
  duration : Nat
  inflation : Rat
  totalWeightedCredits : Nat
  deriving DecidableEq, Repr

namespace InflationApyCalculator

variable (c : InflationApyCalculator)

/-- `commission.clamp(0, 100) as f64 / 100.0`. -/
def commissionShare (commission : UInt8) : Rat := (min commission.toNat 100 : Nat) / 100

/-- `cluster_rewards_per_ideal_epoch`. -/
def clusterRewardsPerIdealEpoch : Rat := c.supply * c.inflation / idealEpochsPerYear

/-- `actual_epochs_per_year`. -/
def actualEpochsPerYear : Rat := secondsInYear / c.duration

/-- `stake_fraction_per_epoch`. -/
def stakeFractionPerEpoch (credits : Nat) (commission : UInt8) : Rat :=
  (1 - commissionShare commission) * c.clusterRewardsPerIdealEpoch * credits /
    c.totalWeightedCredits

/-- `estimate_yields`: the APR and the APY. -/
def estimateYields (powf : Rat → Rat → Rat) (c : InflationApyCalculator) (credits : Nat)
    (commission : UInt8) : Rat × Rat :=
  if c.totalWeightedCredits = 0 ∨ c.duration = 0 then (0, 0)
  else
    let fraction := c.stakeFractionPerEpoch credits commission
    (fraction * c.actualEpochsPerYear, powf (1 + fraction) c.actualEpochsPerYear - 1)

end InflationApyCalculator

/-! ## `get_apy_calculators` -/

/-- `SUM(validators.credits * validators.activated_stake)` in an epoch. -/
def totalWeightedCredits (rows : List ValidatorsRow) : Nat :=
  (rows.map fun row => row.credits * row.activatedStake).sum

/-- `::INTEGER` raises an error outside of 32 bits. -/
def durationColumn (row : EpochsRow) : Option Int :=
  if -2 ^ 31 ≤ apyDuration row ∧ apyDuration row < 2 ^ 31 then some (apyDuration row) else none

/-- A `NUMERIC` that a `Decimal` can hold, as a `u128`. -/
def decimalToU128 (n : Nat) : Option Nat := if n < 2 ^ 96 then some n else none

/-- The entry of an epoch; `none` if the query or a conversion fails. -/
def apyCalculator (db : Database) (row : EpochsRow) : Option (Nat × InflationApyCalculator) := do
  let _ ← durationColumn row
  let epoch ← decimalToU64 row.epoch
  let supply ← decimalToU64 row.supply
  let duration ← readDuration row
  let totalWeightedCredits ←
    decimalToU128 (totalWeightedCredits (rowsOfEpoch row.epoch db.validators))
  some (epoch,
    { supply := supply
      duration := duration
      inflation := row.inflation
      totalWeightedCredits := totalWeightedCredits })

/-- `epochs INNER JOIN validators … GROUP BY epochs.epoch`: the groups are the rows of `epochs`
with at least one row to join. -/
def joinedEpochs (scan : Scan) (db : Database) : List EpochsRow :=
  (scan.order db.epochs).filter fun row => rowsOfEpoch row.epoch db.validators ≠ []

/-- `get_apy_calculators`. -/
def getApyCalculators (scan : Scan) (db : Database) :
    Option (Dict Nat InflationApyCalculator) :=
  ((joinedEpochs scan db).mapM (apyCalculator db)).map Dict.ofList

/-- What `load_validators` looks up in its loop. -/
def yieldsOfEpoch (powf : Rat → Rat → Rat) (scan : Scan) (db : Database) :
    Option (Nat → Option (Nat → UInt8 → Rat × Rat)) :=
  (getApyCalculators scan db).map fun calculators epoch =>
    (calculators.get? epoch).map (InflationApyCalculator.estimateYields powf)

/-! ## The entries of the query -/

section Entries

variable {scan : Scan} {db : Database} {calculators : Dict Nat InflationApyCalculator}

theorem mem_joinedEpochs {row : EpochsRow} :
    row ∈ joinedEpochs scan db ↔ row ∈ db.epochs ∧ ∃ v ∈ db.validators, v.epoch = row.epoch := by
  unfold joinedEpochs
  rw [List.mem_filter, scan.mem_order, decide_eq_true_iff]
  refine and_congr_right fun _ => ⟨fun hne => ?_, ?_⟩
  · obtain ⟨v, hv⟩ := List.exists_mem_of_ne_nil _ hne
    exact ⟨v, mem_rowsOfEpoch.mp hv⟩
  · rintro ⟨v, hv⟩
    exact List.ne_nil_of_mem (mem_rowsOfEpoch.mpr hv)

/-- The fields of an entry are those of its row, which the conversions keep. -/
theorem apyCalculator_eq_some {row : EpochsRow} {entry : Nat × InflationApyCalculator}
    (h : apyCalculator db row = some entry) :
    entry.1 = row.epoch ∧ entry.2.supply = row.supply ∧ entry.2.inflation = row.inflation ∧
      readDuration row = some entry.2.duration ∧
      entry.2.totalWeightedCredits =
        totalWeightedCredits (rowsOfEpoch row.epoch db.validators) := by
  obtain ⟨_, -, h⟩ := Option.bind_eq_some_iff.mp h
  obtain ⟨epoch, hepoch, h⟩ := Option.bind_eq_some_iff.mp h
  obtain ⟨supply, hsupply, h⟩ := Option.bind_eq_some_iff.mp h
  obtain ⟨duration, hduration, h⟩ := Option.bind_eq_some_iff.mp h
  obtain ⟨total, htotal, h⟩ := Option.bind_eq_some_iff.mp h
  obtain rfl := Option.some.inj h
  refine ⟨(decimalToU64_eq_some_iff.mp hepoch).2, (decimalToU64_eq_some_iff.mp hsupply).2, rfl,
    hduration, ?_⟩
  unfold decimalToU128 at htotal
  split at htotal
  · exact (Option.some.inj htotal).symm
  · cases htotal

/-- An entry of the result is that of a row of `epochs`. -/
theorem row_of_getApyCalculators (h : getApyCalculators scan db = some calculators) {epoch : Nat}
    {c : InflationApyCalculator} (hc : calculators.get? epoch = some c) :
    ∃ row ∈ joinedEpochs scan db, apyCalculator db row = some (epoch, c) := by
  obtain ⟨entries, hentries, rfl⟩ := Option.map_eq_some_iff.mp h
  have hmem := Dict.mem_of_mem_ofList (Dict.mem_of_get? hc)
  exact (mem_mapM hentries).mp hmem

/-- Every row that is joined has its entry. -/
theorem isSome_of_getApyCalculators (h : getApyCalculators scan db = some calculators)
    {row : EpochsRow} (hrow : row ∈ joinedEpochs scan db) :
    (calculators.get? row.epoch).isSome := by
  obtain ⟨entries, hentries, rfl⟩ := Option.map_eq_some_iff.mp h
  obtain ⟨entry, hentry⟩ := exists_of_mapM hentries hrow
  have hkey : row.epoch ∈ (Dict.ofList entries).keys := by
    rw [Dict.mem_keys_ofList]
    refine List.mem_map.mpr ⟨entry, (mem_mapM hentries).mpr ⟨row, hrow, hentry⟩, ?_⟩
    exact (apyCalculator_eq_some hentry).1
  rw [Option.isSome_iff_ne_none]
  exact fun hnone => Dict.get?_eq_none_iff.mp hnone hkey

/-- **The entries** are those of the epochs that are closed and have validators. -/
theorem isSome_get?_iff (h : getApyCalculators scan db = some calculators) (epoch : Nat) :
    (calculators.get? epoch).isSome ↔
      db.Recorded epoch ∧ ∃ v ∈ db.validators, v.epoch = epoch := by
  constructor
  · intro hsome
    obtain ⟨c, hc⟩ := Option.isSome_iff_exists.mp hsome
    obtain ⟨row, hrow, hentry⟩ := row_of_getApyCalculators h hc
    obtain rfl : epoch = row.epoch := (apyCalculator_eq_some hentry).1
    obtain ⟨hmem, hjoined⟩ := mem_joinedEpochs.mp hrow
    exact ⟨List.mem_map_of_mem hmem, hjoined⟩
  · rintro ⟨hrecorded, hjoined⟩
    obtain ⟨row, hrow, rfl⟩ := List.mem_map.mp hrecorded
    exact isSome_of_getApyCalculators h (mem_joinedEpochs.mpr ⟨hrow, hjoined⟩)

end Entries

/-! ## The rewards of an epoch -/

namespace InflationApyCalculator

variable {c : InflationApyCalculator}

/-- The rewards of a year, when every epoch pays out the rewards of an ideal one. -/
def rewardsPerYear (c : InflationApyCalculator) : Rat :=
  c.supply * c.inflation * (secondsInIdealEpoch / c.duration)

theorem rewardsPerYear_eq (c : InflationApyCalculator) :
    c.clusterRewardsPerIdealEpoch * c.actualEpochsPerYear = c.rewardsPerYear := by
  unfold clusterRewardsPerIdealEpoch actualEpochsPerYear rewardsPerYear idealEpochsPerYear
  have hyear : secondsInYear ≠ 0 := by
    unfold secondsInYear
    norm_num
  have hepoch : (secondsInIdealEpoch : ℚ) ≠ 0 := by
    unfold secondsInIdealEpoch slotsInEpoch idealSlotDurationMs
    norm_num
  field_simp

/-- What a validator earns for its stakers and for itself in a year, for each lamport. -/
theorem apr_add_commission (powf : Rat → Rat → Rat) (htotal : c.totalWeightedCredits ≠ 0)
    (hduration : c.duration ≠ 0) (credits : Nat) (commission : UInt8) :
    (c.estimateYields powf credits commission).1 +
        commissionShare commission * (c.estimateYields powf credits 0).1 =
      credits * (c.rewardsPerYear / c.totalWeightedCredits) := by
  have hpaid : ¬ (c.totalWeightedCredits = 0 ∨ c.duration = 0) := by
    rintro (h | h)
    · exact htotal h
    · exact hduration h
  have hzero : commissionShare 0 = 0 := by
    unfold commissionShare
    norm_num
  unfold estimateYields
  rw [if_neg hpaid, if_neg hpaid, ← rewardsPerYear_eq]
  show c.stakeFractionPerEpoch credits commission * c.actualEpochsPerYear +
      commissionShare commission * (c.stakeFractionPerEpoch credits 0 * c.actualEpochsPerYear) = _
  unfold stakeFractionPerEpoch
  rw [hzero]
  ring

end InflationApyCalculator

theorem cast_totalWeightedCredits (rows : List ValidatorsRow) :
    (totalWeightedCredits rows : ℚ) =
      (rows.map fun row => (row.activatedStake : ℚ) * row.credits).sum := by
  unfold totalWeightedCredits
  rw [Nat.cast_list_sum, List.map_map]
  congr 1
  refine List.map_congr_left fun row _ => ?_
  show ((row.credits * row.activatedStake : Nat) : ℚ) = _
  push_cast
  ring

/-- **The yields of an epoch add up** to its inflation: what its validators earn in a year for
their stakers and by their commissions is what the cluster pays out. Without credits or without
a duration `estimate_yields` returns zeros. -/
theorem yields_addUp (powf : Rat → Rat → Rat) (scan : Scan) (db : Database)
    (calculators : Dict Nat InflationApyCalculator)
    (h : getApyCalculators scan db = some calculators) (epoch : Nat) (c : InflationApyCalculator)
    (hc : calculators.get? epoch = some c) (htotal : c.totalWeightedCredits ≠ 0)
    (hduration : c.duration ≠ 0) (commission : ValidatorsRow → UInt8) :
    ((rowsOfEpoch epoch db.validators).map fun row => (row.activatedStake : ℚ) *
        ((c.estimateYields powf row.credits (commission row)).1 +
          InflationApyCalculator.commissionShare (commission row) *
            (c.estimateYields powf row.credits 0).1)).sum =
      c.supply * c.inflation * (secondsInIdealEpoch / c.duration) := by
  obtain ⟨row, -, hentry⟩ := row_of_getApyCalculators h hc
  obtain ⟨hepoch, -, -, -, hweights⟩ := apyCalculator_eq_some hentry
  obtain rfl : epoch = row.epoch := hepoch
  have hcast : (c.totalWeightedCredits : ℚ) ≠ 0 := Nat.cast_ne_zero.mpr htotal
  calc _ = ((rowsOfEpoch row.epoch db.validators).map fun row =>
        (row.activatedStake : ℚ) * row.credits *
          (c.rewardsPerYear / c.totalWeightedCredits)).sum := by
        congr 1
        refine List.map_congr_left fun v _ => ?_
        rw [InflationApyCalculator.apr_add_commission powf htotal hduration, ← mul_assoc]
    _ = c.totalWeightedCredits * (c.rewardsPerYear / c.totalWeightedCredits) := by
        rw [List.sum_map_mul_right, ← cast_totalWeightedCredits, ← hweights]
    _ = c.rewardsPerYear := mul_div_cancel₀ _ hcast

/-- A closed epoch of two days. -/
def closedEpoch : EpochsRow :=
  ⟨500, 0, 2 * 24 * 60 * minute, 2000, 500000000, 1 / 20, 3 / 20⟩

/-- It has one validator. -/
def closedDatabase : Database where
  validators := openDatabase.validators.map fun row => { row with credits := 6000000 }
  epochs := [closedEpoch]
  commissions := []
  uptimes := []
  clusterInfo := []

def closedCalculator : InflationApyCalculator where
  supply := 500000000
  duration := 172800
  inflation := 1 / 20
  totalWeightedCredits := totalWeightedCredits closedDatabase.validators

theorem closedEpoch_duration : apyDuration closedEpoch = 172800 := by
  norm_num [apyDuration, numericToInteger, roundHalfAway, roundHalfUp, seconds, minute, closedEpoch]

theorem closedDatabase_calculators : getApyCalculators .sequential closedDatabase =
    some (Dict.ofList [(500, closedCalculator)]) := by
  have hjoined : joinedEpochs .sequential closedDatabase = [closedEpoch] := rfl
  have hentry : apyCalculator closedDatabase closedEpoch = some (500, closedCalculator) := by
    unfold apyCalculator durationColumn readDuration
    rw [closedEpoch_duration]
    rfl
  unfold getApyCalculators
  rw [hjoined, List.mapM_cons, hentry]
  rfl

theorem yields_addUp_closedDatabase :
    ((rowsOfEpoch 500 closedDatabase.validators).map fun row => (row.activatedStake : ℚ) *
      ((closedCalculator.estimateYields (fun x _ => x) row.credits 7).1 +
        InflationApyCalculator.commissionShare 7 *
          (closedCalculator.estimateYields (fun x _ => x) row.credits 0).1)).sum =
      closedCalculator.supply * closedCalculator.inflation *
        (secondsInIdealEpoch / closedCalculator.duration) :=
  yields_addUp _ .sequential closedDatabase _ closedDatabase_calculators 500 _ rfl (by decide)
    (by decide) fun _ => 7

/-! ## Runs -/

/-- The numbers of the database fit the types they are read into. -/
structure Fits (db : Database) : Prop where
  epoch : ∀ row ∈ db.epochs, row.epoch < 2 ^ 64
  supply : ∀ row ∈ db.epochs, row.supply < 2 ^ 64
  duration : ∀ row ∈ db.epochs, apyDuration row < 2 ^ 31
  weights : ∀ row ∈ db.epochs,
    totalWeightedCredits (rowsOfEpoch row.epoch db.validators) < 2 ^ 96

inductive YieldsStep where
  | epochs (step : EpochStep)
  /-- Whatever the other commands make of `validators`. -/
  | replaceValidators (validators : List ValidatorsRow)

def yieldsStep (db : Database) : YieldsStep → Option Database
  | .epochs step => epochStep db step
  | .replaceValidators validators => some { db with validators := validators }

/-- The rows that a step adds to `cluster_info` belong to the history. -/
def YieldsStep.AddsOnly (history : List ClusterInfoRow) : YieldsStep → Prop
  | .epochs step => Store.AddsOnly history step
  | .replaceValidators _ => True

/-- The tables of the epochs after a step are those of a run of `epochs_tiled`. -/
theorem epochsInv_yieldsStep {history : List ClusterInfoRow} {db db' : Database}
    {step : YieldsStep} (hinv : EpochsInv history db) (hadds : step.AddsOnly history)
    (h : yieldsStep db step = some db') : EpochsInv history db' := by
  cases step with
  | epochs step => exact epochsInv_step hinv hadds h
  | replaceValidators validators =>
    obtain rfl := Option.some.inj h
    exact ⟨hinv.clusterInfo, hinv.origin, hinv.distinct, hinv.adjacent⟩

/-- An interval that is not negative has all its conversions. -/
theorem isSome_apyCalculator {db : Database} (hfits : Fits db) {row : EpochsRow}
    (hrow : row ∈ db.epochs) (hle : row.startAt ≤ row.endAt) :
    (apyCalculator db row).isSome := by
  have hnonneg := apyDuration_nonneg hle
  have hcolumn : durationColumn row = some (apyDuration row) := by
    refine if_pos ⟨?_, hfits.duration row hrow⟩
    exact le_trans (by norm_num) hnonneg
  have hread : readDuration row = some (apyDuration row).toNat := if_pos hnonneg
  have hepoch := decimalToU64_eq_some_iff.mpr ⟨hfits.epoch row hrow, rfl⟩
  have hsupply := decimalToU64_eq_some_iff.mpr ⟨hfits.supply row hrow, rfl⟩
  have hweights : decimalToU128 (totalWeightedCredits (rowsOfEpoch row.epoch db.validators)) =
      some (totalWeightedCredits (rowsOfEpoch row.epoch db.validators)) :=
    if_pos (hfits.weights row hrow)
  unfold apyCalculator
  rw [hcolumn, hepoch, hsupply, hread, hweights]
  rfl

/-- The query does not fail on intervals that tile the time line. -/
theorem isSome_getApyCalculators {db : Database} (htiled : Tiled db) (hfits : Fits db)
    (scan : Scan) : (getApyCalculators scan db).isSome := by
  unfold getApyCalculators
  rw [Option.isSome_map, isSome_mapM]
  intro row hrow
  have hmem := (mem_joinedEpochs.mp hrow).1
  exact isSome_apyCalculator hfits hmem (htiled.ordered row hmem)

/-- **Yields of the closed epochs**: over a chronological history, in whichever order its epochs
are closed and whatever the other commands write to `validators` in between,
`get_apy_calculators` succeeds on numbers that fit, and the loop of `load_validators` finds
yields for the rows of the closed epochs and for no others. -/
theorem yields_ofClosedEpochs (history : List ClusterInfoRow) (hchrono : Chronological history)
    (db : Database) (hempty : db.epochs = []) (hrows : ∀ c ∈ db.clusterInfo, c ∈ history)
    (steps : List YieldsStep) (hadds : ∀ a ∈ steps, a.AddsOnly history) :
    StatesAll yieldsStep (fun db => Fits db → ∀ powf scan,
      ∃ yields, yieldsOfEpoch powf scan db = some yields ∧
        ∀ row ∈ db.validators, (yields row.epoch).isSome ↔ db.Recorded row.epoch) db steps := by
  have hinit : EpochsInv history db := by
    refine ⟨hrows, ?_, ?_, ?_⟩
    · simp [hempty]
    · simp [hempty]
    · simp [hempty]
  have hok : StepsAll yieldsStep (fun _ a => a.AddsOnly history) db steps :=
    StepsAll.of_forall fun a ha _ => hadds a ha
  refine (statesAll_of_stepsAll (fun _ _ _ hinv ha hstep => epochsInv_yieldsStep hinv ha hstep)
    hinit hok).mono fun s hinv hfits powf scan => ?_
  have htiled := tiled_of_inv hinv hchrono
  obtain ⟨calculators, hcalculators⟩ :=
    Option.isSome_iff_exists.mp (isSome_getApyCalculators htiled hfits scan)
  refine ⟨_, congrArg (Option.map _) hcalculators, fun row hrow => ?_⟩
  rw [Option.isSome_map, isSome_get?_iff hcalculators]
  exact and_iff_left ⟨row, hrow, rfl⟩

/-- A validator with a row in each of the epochs. -/
def validatorInEpochs (epochs : List Nat) : List ValidatorsRow :=
  epochs.flatMap fun epoch => openDatabase.validators.map fun row => { row with epoch := epoch }

/-- Epochs 11 and 12 are over, and none is closed. -/
def overDatabase : Database :=
  { openDatabase with validators := validatorInEpochs [11, 12], clusterInfo := twoEpochs }

/-- Epoch 12 is closed before epoch 11, and the row of epoch 13 appears in between. -/
def closings : List YieldsStep :=
  [.epochs (.createEpochRecord 12 ⟨500000000, 5, 15⟩),
    .replaceValidators (validatorInEpochs [11, 12, 13]),
    .epochs (.createEpochRecord 11 ⟨500000000, 5, 15⟩)]

theorem yields_ofClosedEpochs_closings : ∃ db yields,
    exec yieldsStep overDatabase closings = some db ∧
      db.validators.map ValidatorsRow.epoch = [11, 12, 13] ∧
      yieldsOfEpoch (fun x _ => x) .sequential db = some yields ∧
      (yields 11).isSome ∧ (yields 12).isSome ∧ ¬ (yields 13).isSome := by
  have hall := yields_ofClosedEpochs twoEpochs (by unfold Chronological; decide) overDatabase rfl
    (fun _ h => h) closings (by simp [closings, YieldsStep.AddsOnly, AddsOnly])
  obtain ⟨yields, hyields, hiff⟩ := hall.last rfl
    ⟨by decide +kernel, by decide +kernel, by decide +kernel, by decide +kernel⟩
    (fun x _ => x) .sequential
  have hepochs : (validatorInEpochs [11, 12, 13]).map ValidatorsRow.epoch = [11, 12, 13] := rfl
  have hof : ∀ epoch ∈ [11, 12, 13], (yields epoch).isSome ↔ epoch ∈ [12, 11] := by
    intro epoch hepoch
    rw [← hepochs] at hepoch
    obtain ⟨row, hrow, rfl⟩ := List.mem_map.mp hepoch
    exact hiff row hrow
  refine ⟨_, yields, rfl, rfl, hyields, ?_, ?_, ?_⟩
  · exact (hof 11 (by decide)).mpr (by decide)
  · exact (hof 12 (by decide)).mpr (by decide)
  · exact fun h => absurd ((hof 13 (by decide)).mp h) (by decide)

end DelegationStrategy.Store
