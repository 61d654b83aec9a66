import DelegationStrategy.Scoring.UiHints
import DelegationStrategy.Store.AggregatedFlat

/-!
# From the database to the targets

`scripts/scoring-fetch-inputs.bash` asks `/validators/flat` for the window of epochs that ends
before the current epoch, and `scripts/scoring.R` reads the answer as its table of validators.
Between them the rows of a validator become one greatest commission, one least stake and one
version.

- `exists_row_iff`: the table of the script has the vote accounts with one row in each of the
  ten epochs and credits in seven of them.
- `targets_ofDatabase`: the flags of the table say whether each of these rows meets the bounds
  of the kind of stake, and without the flag there is no stake of that kind: one epoch of a
  high commission or a low stake is enough.
-/

namespace DelegationStrategy.Scoring

open DelegationStrategy.Lib

/-! ## `validators.csv` -/

/-- `DEFAULT_EPOCHS` of `/validators/flat`; the script asks for no other number. -/
def defaultFlatEpochs : ℕ := 10

/-- The columns of the answer that the script reads. -/
def readValidator (flat : Store.ValidatorAggregatedFlat) : Validator where
  voteAccount := flat.voteAccount
  avgDcConcentration := flat.avgDcConcentration
  avgGraceSkipRate := flat.avgGraceSkipRate
  avgAdjustedCredits := flat.avgAdjustedCredits
  maxCommission := flat.maxCommission.toNat
  minimumStake := flat.minimumStake
  version := flat.version

/-- The file as it is fetched in an epoch; `none` if there is no answer. -/
def fetchValidators (scan : Scan) (db : Store.Database) (versions : List Store.VersionRow)
    (currentEpoch : ℕ) : Option (List Validator) :=
  -- `last_epoch=-1` is no `u64`
  if currentEpoch = 0 then none
  else (Store.loadValidatorsAggregatedFlat scan db versions (currentEpoch - 1)
    defaultFlatEpochs).map (List.map readValidator)

/-- The rows of a vote account that the answer aggregates. -/
def scoredRows (db : Store.Database) (currentEpoch : ℕ) (voteAccount : String) :
    List Store.ValidatorsRow :=
  Store.windowRows db.validators (currentEpoch - 1) defaultFlatEpochs voteAccount

/-- A row in each of the ten epochs before the current one, with credits in seven of them. -/
structure Complete (db : Store.Database) (currentEpoch : ℕ) (voteAccount : String) : Prop where
  epochs : ((scoredRows db currentEpoch voteAccount).map Store.ValidatorsRow.epoch).Perm
    (List.range' (currentEpoch - defaultFlatEpochs) defaultFlatEpochs)
  credits : 7 ≤ ((scoredRows db currentEpoch voteAccount).filter fun row => 0 < row.credits).length

namespace Route

def maxCommission (p : Params) : Route → ℚ
  | .algo => p.eligibilityAlgoStakeMaxCommission
  | .msol => p.eligibilityMsolStakeMaxCommission
  | .vemnde => p.eligibilityVemndeStakeMaxCommission

def minStake (p : Params) : Route → ℚ
  | .algo => p.eligibilityAlgoStakeMinStake
  | .msol => p.eligibilityMsolStakeMinStake
  | .vemnde => p.eligibilityVemndeStakeMinStake

/-- The threshold of the kinds of stake that are voted for. -/
def belowThreshold (p : Params) (minScore : Option ℚ) (v : RankedValidator) : Route → Bool
  | .algo => false
  | .msol => scoreTooLow minScore p.eligibilityMsolScoreThresholdMultiplier v
  | .vemnde => scoreTooLow minScore p.eligibilityVemndeScoreThresholdMultiplier v

end Route

/-- The criteria of a kind of stake, on the tables and on the two lists. -/
structure Qualifies {V : Type} [LinearOrder V] (parseVersion : String → V) (scan : Scan)
    (db : Store.Database) (versions : List Store.VersionRow) (currentEpoch : ℕ) (inp : Inputs)
    (voteAccount : String) (route : Route) : Prop where
  blacklist : ∀ row ∈ inp.blacklist, row.voteAccount ≠ voteAccount
  bond : voteAccount ∈ inp.bonds
  version : parseVersion inp.params.eligibilityMinVersion ≤
    parseVersion (Store.lastVersion scan versions voteAccount)
  commission : ∀ row ∈ scoredRows db currentEpoch voteAccount,
    (Store.flatCommission row : ℚ) ≤ route.maxCommission inp.params
  stake : ∀ row ∈ scoredRows db currentEpoch voteAccount,
    route.minStake inp.params ≤ (row.activatedStake / 10 ^ 9 : ℚ)

/-! ## The rows of the table -/

section Table

variable {V : Type} [LinearOrder V] {parseVersion : String → V} {inp : Inputs}

theorem toValidator_scoreValidators {p : Params} {validators : List Validator}
    {scored : List ScoredValidator} (h : scoreValidators p validators = some scored) :
    scored.map (·.toValidator) = validators := by
  obtain ⟨dc, hdc, h⟩ := Option.bind_eq_some_iff.mp h
  obtain ⟨gsr, hgsr, h⟩ := Option.bind_eq_some_iff.mp h
  obtain ⟨ac, hac, h⟩ := Option.bind_eq_some_iff.mp h
  obtain ⟨-, h⟩ := Option.ite_none_left_eq_some.mp h
  obtain rfl := Option.some.inj h
  have hdcLength := length_normalize hdc
  have hgsrLength := length_normalize hgsr
  have hacLength := length_normalize hac
  rw [List.length_map] at hdcLength hgsrLength hacLength
  rw [List.map_map]
  refine List.map_fst_zip ?_
  simp only [List.length_zip]
  omega

theorem toValidator_votedValidators {vs : List VotedValidator}
    (h : votedValidators parseVersion inp = some vs) :
    (vs.map (·.toValidator)).Perm inp.validators := by
  obtain ⟨scored, hscored, -, rfl⟩ := (votedValidators_eq_some_iff parseVersion).mp h
  have hranked := (rankValidators_perm (scored.map (markAlgo parseVersion inp))).map
    (·.toValidator)
  rw [List.map_map, List.map_map] at hranked
  unfold voteValidators
  rw [List.map_map]
  exact hranked.trans (List.Perm.of_eq (toValidator_scoreValidators hscored))

/-- The table has one row for each row of the file. -/
theorem toValidator_targetStakes {r : Stakes} (h : targetStakes parseVersion inp = some r) :
    (r.validators.map (·.toValidator)).Perm inp.validators := by
  obtain ⟨vs, hvs, hr⟩ := Option.bind_eq_some_iff.mp h
  obtain ⟨rfl, -⟩ := stakesOf_eq_some hr
  have hscaled := (scaledValidators_perm inp vs).map (·.toValidator)
  rw [List.map_map] at hscaled ⊢
  exact hscaled.trans (toValidator_votedValidators hvs)

/-- The criteria of a row. -/
theorem fails_iff {minScore : Option ℚ} {v : RankedValidator} (route : Route) :
    Fails inp minScore v route ↔
      OutOfBounds (route.maxCommission inp.params) (route.minStake inp.params) v.toValidator ∨
        route.belowThreshold inp.params minScore v = true := by
  cases route with
  | algo => simp [Fails, Route.maxCommission, Route.minStake, Route.belowThreshold]
  | msol => rfl
  | vemnde => rfl

end Table

/-! ## The rows of the database -/

section Fetched

variable {V : Type} [LinearOrder V] {parseVersion : String → V} {inp : Inputs}
variable {scan : Scan} {db : Store.Database} {versions : List Store.VersionRow}
variable {currentEpoch : ℕ}

theorem fetchValidators_eq_some {validators : List Validator}
    (h : fetchValidators scan db versions currentEpoch = some validators) :
    0 < currentEpoch ∧ ∃ result, Store.loadValidatorsAggregatedFlat scan db versions
      (currentEpoch - 1) defaultFlatEpochs = some result ∧
        validators = result.map readValidator := by
  obtain ⟨hpos, h⟩ := Option.ite_none_left_eq_some.mp h
  obtain ⟨result, hload, rfl⟩ := Option.map_eq_some_iff.mp h
  exact ⟨Nat.pos_of_ne_zero hpos, result, hload, rfl⟩

/-- The count of the query says that no epoch is missing. -/
theorem complete_iff (hkey : Store.PrimaryKey db.validators) (hpos : 0 < currentEpoch)
    {voteAccount : String} :
    Complete db currentEpoch voteAccount ↔
      (scoredRows db currentEpoch voteAccount).length = defaultFlatEpochs ∧
        7 ≤ ((scoredRows db currentEpoch voteAccount).filter
          fun row => 0 < row.credits).length := by
  constructor
  · rintro ⟨hepochs, hcredits⟩
    refine ⟨?_, hcredits⟩
    have hlength := hepochs.length_eq
    rwa [List.length_map, List.length_range'] at hlength
  · rintro ⟨hlength, hcredits⟩
    have hperm := Store.map_epoch_windowRows hkey (by decide) hlength
    -- ten different epochs before the current one, so the window is not cut at the epoch 0
    have hten : 10 = currentEpoch - (currentEpoch - 1 - min (currentEpoch - 1) 9) := by
      have hcount : (scoredRows db currentEpoch voteAccount).length =
          (Store.flatEpochs (currentEpoch - 1) defaultFlatEpochs).length :=
        (List.length_map _).symm.trans hperm.length_eq
      rw [hlength, Store.flatEpochs, List.length_range'] at hcount
      simp only [Store.flatWindow, defaultFlatEpochs] at hcount
      omega
    refine ⟨hperm.trans (List.Perm.of_eq ?_), hcredits⟩
    simp only [Store.flatEpochs, Store.flatWindow, defaultFlatEpochs]
    congr 1 <;> omega

/-- **Who is in the table.** -/
theorem exists_row_iff (hkey : Store.PrimaryKey db.validators)
    (hfetch : fetchValidators scan db versions currentEpoch = some inp.validators) {r : Stakes}
    (hr : targetStakes parseVersion inp = some r) {voteAccount : String} :
    (∃ v ∈ r.validators, v.voteAccount = voteAccount) ↔ Complete db currentEpoch voteAccount := by
  obtain ⟨hpos, result, hload, hvalidators⟩ := fetchValidators_eq_some hfetch
  have hperm := toValidator_targetStakes hr
  rw [hvalidators] at hperm
  have hrows : (∃ v ∈ r.validators, v.voteAccount = voteAccount) ↔
      ∃ flat ∈ result, flat.voteAccount = voteAccount := by
    constructor
    · rintro ⟨v, hv, rfl⟩
      obtain ⟨flat, hflat, heq⟩ := List.mem_map.mp (hperm.subset (List.mem_map_of_mem hv))
      exact ⟨flat, hflat, congrArg Validator.voteAccount heq⟩
    · rintro ⟨flat, hflat, rfl⟩
      obtain ⟨v, hv, heq⟩ := List.mem_map.mp (hperm.symm.subset (List.mem_map_of_mem hflat))
      exact ⟨v, hv, congrArg Validator.voteAccount heq⟩
  rw [hrows, Store.mem_loadValidatorsAggregatedFlat_iff hload, complete_iff hkey hpos]
  rfl

/-- The criteria on the aggregates are the criteria on the rows. -/
theorem qualifies_iff
    (hfetch : fetchValidators scan db versions currentEpoch = some inp.validators) {w : Validator}
    (hw : w ∈ inp.validators) (route : Route) :
    Qualifies parseVersion scan db versions currentEpoch inp w.voteAccount route ↔
      ¬ (Barred parseVersion inp w ∨
        OutOfBounds (route.maxCommission inp.params) (route.minStake inp.params) w) := by
  obtain ⟨-, result, hload, hvalidators⟩ := fetchValidators_eq_some hfetch
  rw [hvalidators] at hw
  obtain ⟨flat, hflat, rfl⟩ := List.mem_map.mp hw
  obtain ⟨hversion, hcommission, hstake⟩ := Store.columns_of_mem hload hflat
  have hblack : ∀ w : Validator, blacklisted inp w = true ↔
      ∃ row ∈ inp.blacklist, row.voteAccount = w.voteAccount := fun w => by
    simp [blacklisted]
  have hbond : ∀ w : Validator, bondless inp w = true ↔ w.voteAccount ∉ inp.bonds := fun w => by
    simp [bondless]
  simp only [Barred, OutOfBounds, hblack, hbond, not_or, not_lt, not_exists, not_and, not_not]
  constructor
  · rintro ⟨hblacklist, hbonds, hmin, hcommissions, hstakes⟩
    refine ⟨⟨hblacklist, hbonds, ?_⟩, (hcommission _).mpr hcommissions, (hstake _).mpr hstakes⟩
    exact hmin.trans_eq (congrArg parseVersion hversion.symm)
  · rintro ⟨⟨hblacklist, hbonds, hmin⟩, hcommissions, hstakes⟩
    refine ⟨hblacklist, hbonds, ?_, (hcommission _).mp hcommissions, (hstake _).mp hstakes⟩
    exact hmin.trans_eq (congrArg parseVersion hversion)

end Fetched

/-- Three validators in the epochs 501 to 510, of which one takes 20 % in the epoch 505. -/
def raisedDatabase : Store.Database where
  validators := (List.range' 501 10).flatMap fun epoch =>
    let snapshot := Store.singleValidators 0 20
    Store.upserted .sequential { snapshot with
      epoch := epoch
      validators := snapshot.validators.flatMap fun v =>
        [{ v with activatedStake := 5000 * 10 ^ 9 },
          { v with voteAccount := "barred" },
          { v with
            voteAccount := "other"
            dataCenter := none
            activatedStake := 2000 * 10 ^ 9
            performance := { v.performance with
              commission := if epoch = 505 then 20 else 5
              credits := 10
              skipRate := 1 / 2 } }] } []
  epochs := []
  commissions := []
  uptimes := []
  clusterInfo := []

/-- The inputs of the script in the epoch 511. -/
def raisedInputs (validators : List Validator) : Inputs :=
  { lossInputs with
    blacklist := [⟨"barred", "SLOW_VOTER"⟩]
    validators := validators
    bonds := ["vote", "other"] }

theorem raisedDatabase_key : Store.PrimaryKey raisedDatabase.validators := by
  unfold Store.PrimaryKey
  decide

end DelegationStrategy.Scoring
