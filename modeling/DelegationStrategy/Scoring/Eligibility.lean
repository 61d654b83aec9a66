import DelegationStrategy.Lib.Query
import Mathlib.Algebra.Order.Ring.Rat
import Mathlib.Algebra.Order.BigOperators.Group.List
import Mathlib.Data.List.Sort

/-!
# Scores, ranks and eligibility

The first half of `scripts/scoring.R`: from the input files to a table in which
every validator has its score, its rank, its votes and its eligibility for each
of the three kinds of stake. The numbers of the script are taken as exact
rationals, and the table is the list of its rows; each stage of the script adds
columns, so each stage is a structure that extends the one before it.

- A column without a spread makes `normalize` divide by zero, as do weights that
  sum to zero. The scores are then not numbers, and the script stops at its last
  check; `scoreValidators` returns `none`.
- `parse_version` of the package `semver` is the parameter `parseVersion`, into
  a linear order of versions.
- `min` of an empty algo set is infinite; here the minimum is an `Option`, and
  `none` the infinity.
- The column `ui_hints` is created by the first code of the blacklist. When no listed
  validator is on it, `validators$ui_hints` cannot be assigned and the script stops;
  `votedValidators` returns `none`. The texts of the column are in `Scoring.UiHints`.
- The columns `rank_*` of the single components are left out: no later column is
  computed from them.
-/

namespace DelegationStrategy.Scoring

open DelegationStrategy.Lib

/-! ## Input files -/

/-- `params.env`. -/
structure Params where
  totalStake : ℚ
  marinadeValidatorsCount : ℕ
  weightAdjustedCredits : ℚ
  weightGraceSkipRate : ℚ
  weightDcConcentration : ℚ
  eligibilityAlgoStakeMaxCommission : ℚ
  eligibilityAlgoStakeMinStake : ℚ
  eligibilityVemndeStakeMaxCommission : ℚ
  eligibilityVemndeStakeMinStake : ℚ
  eligibilityVemndeScoreThresholdMultiplier : ℚ
  eligibilityMsolStakeMaxCommission : ℚ
  eligibilityMsolStakeMinStake : ℚ
  eligibilityMsolScoreThresholdMultiplier : ℚ
  eligibilityMinVersion : String
  vemndeValidatorCap : ℚ
  delStratPubkey : String
  stakeControlVemnde : ℚ
  stakeControlMsol : ℚ

/-- The columns of `validators.csv` that the script reads. -/
structure Validator where
  voteAccount : String
  avgDcConcentration : ℚ
  avgGraceSkipRate : ℚ
  avgAdjustedCredits : ℚ
  maxCommission : ℚ
  minimumStake : ℚ
  version : String

/-- A row of `blacklist.csv`. -/
structure BlacklistRow where
  voteAccount : String
  code : String

/-- `vemnde-votes.csv` or `msol-votes.csv`. The file is written with the amounts
grouped by vote account, so an account has one row; amounts are not negative. -/
structure Votes where
  byAccount : Dict String ℚ
  nonneg : ∀ e ∈ byAccount.entries, 0 ≤ e.2

namespace Votes

/-- The sum of the votes column. -/
def total (votes : Votes) : ℚ := (votes.byAccount.entries.map Prod.snd).sum

/-- The votes for an account, zero when it has no row. -/
def of (votes : Votes) (voteAccount : String) : ℚ :=
  (votes.byAccount.get? voteAccount).getD 0

theorem of_nonneg (votes : Votes) (voteAccount : String) : 0 ≤ votes.of voteAccount := by
  unfold of
  cases h : votes.byAccount.get? voteAccount with
  | none => exact le_rfl
  | some amount => exact votes.nonneg _ (Dict.mem_of_get? h)

end Votes

/-- Everything the script reads. -/
structure Inputs where
  params : Params
  blacklist : List BlacklistRow
  validators : List Validator
  msolVotes : Votes
  vemndeVotes : Votes
  bonds : List String

/-! ## Scores -/

/-- Min-max normalization of a column. -/
def normalize (xs : List ℚ) : Option (List ℚ) :=
  match xs.min?, xs.max? with
  | some lo, some hi =>
    if hi - lo = 0 then none else some (xs.map fun x => (x - lo) / (hi - lo))
  | _, _ => none

structure ScoredValidator extends Validator where
  normalizedDcConcentration : ℚ
  normalizedGraceSkipRate : ℚ
  normalizedAdjustedCredits : ℚ
  score : ℚ

/-- The algo staking formula. -/
def score (p : Params) (dcConcentration graceSkipRate adjustedCredits : ℚ) : ℚ :=
  (0 + dcConcentration * p.weightDcConcentration
    + graceSkipRate * p.weightGraceSkipRate
    + adjustedCredits * p.weightAdjustedCredits)
    / (p.weightAdjustedCredits + p.weightGraceSkipRate + p.weightDcConcentration)

/-- The normalized columns and the score of every validator. -/
def scoreValidators (p : Params) (validators : List Validator) :
    Option (List ScoredValidator) := do
  let dc ← normalize (validators.map fun v => 1 - v.avgDcConcentration)
  let gsr ← normalize (validators.map fun v => 1 - v.avgGraceSkipRate)
  let ac ← normalize (validators.map fun v => v.avgAdjustedCredits)
  if p.weightAdjustedCredits + p.weightGraceSkipRate + p.weightDcConcentration = 0 then none
  else some ((validators.zip (dc.zip (gsr.zip ac))).map fun (v, d, g, a) =>
    { v with
      normalizedDcConcentration := d
      normalizedGraceSkipRate := g
      normalizedAdjustedCredits := a
      score := score p d g a })

/-! ## Eligibility and rank -/

variable {V : Type} [LinearOrder V] (parseVersion : String → V)

def blacklisted (inp : Inputs) (v : Validator) : Bool :=
  inp.blacklist.any fun row => row.voteAccount = v.voteAccount

def bondless (inp : Inputs) (v : Validator) : Bool :=
  !inp.bonds.contains v.voteAccount

/-- The criteria that all three kinds of stake share, with the bounds of one of
them. -/
def eligible (inp : Inputs) (maxCommission minStake : ℚ) (v : Validator) : Bool :=
  !blacklisted inp v
    && !decide (maxCommission < v.maxCommission)
    && !decide (v.minimumStake < minStake)
    && !decide (parseVersion v.version < parseVersion inp.params.eligibilityMinVersion)
    && !bondless inp v

def eligibleStakeAlgo (inp : Inputs) (v : Validator) : Bool :=
  eligible parseVersion inp inp.params.eligibilityAlgoStakeMaxCommission
    inp.params.eligibilityAlgoStakeMinStake v

structure AlgoValidator extends ScoredValidator where
  blacklisted : Bool
  eligibleStakeAlgo : Bool

def markAlgo (inp : Inputs) (v : ScoredValidator) : AlgoValidator :=
  { v with
    blacklisted := blacklisted inp v.toValidator
    eligibleStakeAlgo := eligibleStakeAlgo parseVersion inp v.toValidator }

structure RankedValidator extends AlgoValidator where
  rank : ℕ

/-- `rank(-x, ties.method = "min")`: one more than the number of greater scores. -/
def rankMin (scores : List ℚ) (x : ℚ) : ℕ := 1 + scores.countP fun y => x < y

/-- The ranks, and the rows sorted by them; the sort is stable. -/
def rankValidators (vs : List AlgoValidator) : List RankedValidator :=
  (vs.map fun v => { v with rank := rankMin (vs.map (·.score)) v.score }).insertionSort
    fun a b => a.rank ≤ b.rank

/-! ## The algo stake set -/

/-- The eligible validators of the best ranks. -/
def validatorsAlgoSet (count : ℕ) (vs : List RankedValidator) : List RankedValidator :=
  (vs.filter (·.eligibleStakeAlgo)).take count

/-- The worst score among them; `none` is the minimum of nothing, infinity. -/
def minScoreInAlgoSet (count : ℕ) (vs : List RankedValidator) : Option ℚ :=
  ((validatorsAlgoSet count vs).map (·.score)).min?

/-- Who receives algo stake: the eligible with at least that score. -/
def inAlgoStakeSet (minScore : Option ℚ) (v : RankedValidator) : Bool :=
  v.eligibleStakeAlgo && match minScore with
    | none => false
    | some m => decide (m ≤ v.score)

/-- The score is below the multiple of the worst score in the algo set. A
positive multiple of infinity is above every score, another one is not. -/
def scoreTooLow (minScore : Option ℚ) (multiplier : ℚ) (v : RankedValidator) : Bool :=
  match minScore with
  | none => decide (0 < multiplier)
  | some m => decide (v.score < m * multiplier)

/-! ## Votes -/

structure VotedValidator extends RankedValidator where
  inAlgoStakeSet : Bool
  msolVotes : ℚ
  vemndeVotes : ℚ
  eligibleStakeMsol : Bool
  eligibleStakeVemnde : Bool

def eligibleStakeMsol (inp : Inputs) (minScore : Option ℚ) (v : RankedValidator) : Bool :=
  eligible parseVersion inp inp.params.eligibilityMsolStakeMaxCommission
    inp.params.eligibilityMsolStakeMinStake v.toValidator
    && !scoreTooLow minScore inp.params.eligibilityMsolScoreThresholdMultiplier v

def eligibleStakeVemnde (inp : Inputs) (minScore : Option ℚ) (v : RankedValidator) : Bool :=
  eligible parseVersion inp inp.params.eligibilityVemndeStakeMaxCommission
    inp.params.eligibilityVemndeStakeMinStake v.toValidator
    && !scoreTooLow minScore inp.params.eligibilityVemndeScoreThresholdMultiplier v

/-- The votes of a validator and what they may direct stake to. -/
def markVotes (inp : Inputs) (minScore : Option ℚ) (v : RankedValidator) : VotedValidator :=
  { v with
    inAlgoStakeSet := inAlgoStakeSet minScore v
    msolVotes := inp.msolVotes.of v.voteAccount
    vemndeVotes := inp.vemndeVotes.of v.voteAccount
    eligibleStakeMsol := eligibleStakeMsol parseVersion inp minScore v
    eligibleStakeVemnde := eligibleStakeVemnde parseVersion inp minScore v }

def voteValidators (inp : Inputs) (ranked : List RankedValidator) : List VotedValidator :=
  ranked.map (markVotes parseVersion inp
    (minScoreInAlgoSet inp.params.marinadeValidatorsCount ranked))

/-- The table before stake is computed, in the order of the ranks. -/
def votedValidators (inp : Inputs) : Option (List VotedValidator) := do
  let scored ← scoreValidators inp.params inp.validators
  -- `as.list(NULL)` has no rows to be assigned to the table
  if inp.validators.any (blacklisted inp) then
    some (voteValidators parseVersion inp
      (rankValidators (scored.map (markAlgo parseVersion inp))))
  else none

/-! ## The table keeps its rows -/

theorem length_normalize {xs ys : List ℚ} (h : normalize xs = some ys) :
    ys.length = xs.length := by
  unfold normalize at h
  cases hlo : xs.min? with
  | none => rw [hlo] at h; cases h
  | some lo =>
    cases hhi : xs.max? with
    | none => rw [hlo, hhi] at h; cases h
    | some hi =>
      rw [hlo, hhi] at h
      dsimp only at h
      by_cases hspread : hi - lo = 0
      · rw [if_pos hspread] at h
        cases h
      · rw [if_neg hspread] at h
        cases h
        exact List.length_map _

/-- A column with a spread is normalized. -/
theorem normalize_eq_some {xs : List ℚ} {lo hi : ℚ} (hlo : lo ∈ xs) (hhi : hi ∈ xs)
    (hbounds : ∀ x ∈ xs, lo ≤ x ∧ x ≤ hi) (hspread : lo < hi) :
    normalize xs = some (xs.map fun x => (x - lo) / (hi - lo)) := by
  have hmin : xs.min? = some lo :=
    List.min?_eq_some_iff.mpr ⟨hlo, fun x hx => (hbounds x hx).1⟩
  have hmax : xs.max? = some hi :=
    List.max?_eq_some_iff.mpr ⟨hhi, fun x hx => (hbounds x hx).2⟩
  unfold normalize
  rw [hmin, hmax]
  exact if_neg (sub_pos.mpr hspread).ne'

/-- Every validator has its three normalized components and a score. -/
theorem length_scoreValidators {p : Params} {validators : List Validator}
    {scored : List ScoredValidator} (h : scoreValidators p validators = some scored) :
    scored.length = validators.length := by
  unfold scoreValidators at h
  obtain ⟨dc, hdc, h⟩ := Option.bind_eq_some_iff.mp h
  obtain ⟨gsr, hgsr, h⟩ := Option.bind_eq_some_iff.mp h
  obtain ⟨ac, hac, h⟩ := Option.bind_eq_some_iff.mp h
  split at h
  · cases h
  · cases h
    have h₁ := length_normalize hdc
    have h₂ := length_normalize hgsr
    have h₃ := length_normalize hac
    rw [List.length_map] at h₁ h₂ h₃
    simp only [List.length_map, List.length_zip]
    omega

/-- Ranking only adds a column and reorders the rows. -/
theorem rankValidators_perm (vs : List AlgoValidator) :
    (rankValidators vs).Perm
      (vs.map fun v => { v with rank := rankMin (vs.map (·.score)) v.score }) :=
  List.perm_insertionSort _ _

/-- When all eligible validators have one score, it is the worst of the algo set. -/
theorem minScoreInAlgoSet_eq {count : ℕ} {vs : List RankedValidator} {s : ℚ} (hcount : 0 < count)
    (hs : ∀ v ∈ vs, v.eligibleStakeAlgo → v.score = s) (hex : ∃ v ∈ vs, v.eligibleStakeAlgo) :
    minScoreInAlgoSet count vs = some s := by
  obtain ⟨v, hv, hel⟩ := hex
  have hmem : v ∈ vs.filter (·.eligibleStakeAlgo) := List.mem_filter.mpr ⟨hv, hel⟩
  have hscore : ∀ x ∈ (validatorsAlgoSet count vs).map (·.score), x = s := by
    intro x hx
    obtain ⟨w, hw, rfl⟩ := List.mem_map.mp hx
    obtain ⟨hwmem, hwel⟩ := List.mem_filter.mp (List.mem_of_mem_take hw)
    exact hs w hwmem hwel
  have hhead : s ∈ (validatorsAlgoSet count vs).map (·.score) := by
    unfold validatorsAlgoSet at hscore ⊢
    cases hrows : vs.filter (·.eligibleStakeAlgo) with
    | nil =>
      rw [hrows] at hmem
      cases hmem
    | cons w rows =>
      obtain ⟨n, rfl⟩ := Nat.exists_eq_succ_of_ne_zero hcount.ne'
      rw [hrows, List.take_succ_cons, List.map_cons] at hscore
      rw [List.take_succ_cons, List.map_cons, hscore w.score List.mem_cons_self]
      exact List.mem_cons_self
  exact List.min?_eq_some_iff.mpr ⟨hhead, fun x hx => (hscore x hx).ge⟩

theorem length_rankValidators (vs : List AlgoValidator) :
    (rankValidators vs).length = vs.length := by
  rw [(rankValidators_perm vs).length_eq, List.length_map]

/-- The script gets to the votes when every score is a number and a listed validator is on
the blacklist. -/
theorem votedValidators_eq_some_iff {inp : Inputs} {vs : List VotedValidator} :
    votedValidators parseVersion inp = some vs ↔
      ∃ scored, scoreValidators inp.params inp.validators = some scored ∧
        inp.validators.any (blacklisted inp) = true ∧
        vs = voteValidators parseVersion inp
          (rankValidators (scored.map (markAlgo parseVersion inp))) := by
  constructor
  · intro h
    obtain ⟨scored, hscored, h⟩ := Option.bind_eq_some_iff.mp h
    obtain ⟨hlisted, h⟩ := Option.ite_none_right_eq_some.mp h
    exact ⟨scored, hscored, hlisted, (Option.some.inj h).symm⟩
  · rintro ⟨scored, hscored, hlisted, rfl⟩
    exact Option.bind_eq_some_iff.mpr ⟨scored, hscored, if_pos hlisted⟩

theorem length_votedValidators {inp : Inputs} {vs : List VotedValidator}
    (h : votedValidators parseVersion inp = some vs) : vs.length = inp.validators.length := by
  obtain ⟨scored, hscored, -, rfl⟩ := (votedValidators_eq_some_iff parseVersion).mp h
  rw [voteValidators, List.length_map, length_rankValidators, List.length_map,
    length_scoreValidators hscored]

/-- Votes come from a file of votes, so none is negative. -/
theorem votes_nonneg_of_mem {inp : Inputs} {vs : List VotedValidator}
    (h : votedValidators parseVersion inp = some vs) {v : VotedValidator} (hv : v ∈ vs) :
    0 ≤ v.msolVotes ∧ 0 ≤ v.vemndeVotes := by
  obtain ⟨scored, -, -, rfl⟩ := (votedValidators_eq_some_iff parseVersion).mp h
  obtain ⟨r, _, rfl⟩ := List.mem_map.mp hv
  exact ⟨Votes.of_nonneg _ _, Votes.of_nonneg _ _⟩

end DelegationStrategy.Scoring
