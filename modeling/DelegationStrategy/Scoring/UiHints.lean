import DelegationStrategy.Lib.Delimited
import DelegationStrategy.Scoring.Ineligible
import DelegationStrategy.Store.ScoreRoundTrip

/-!
# Hints

`scripts/scoring.R` notes in the column `ui_hints` why a validator does not get a kind of stake:
the codes of the blacklist, a missing bond, and for each kind the criteria that it fails. The
column is pasted into one text, `store_scoring` cuts the text, and `load_scores` serves the
pieces next to the flags and the targets that were computed apart from them.

- `eligibleStake_iff`: in the table a validator is eligible for a kind of stake exactly if none
  of its hints speaks against that kind.
- `loadScores_explained`: the same is true of the records of an uploaded run.
-/

namespace DelegationStrategy.Scoring

open DelegationStrategy.Lib

/-! ## The column -/

/-- `if (condition) { … list(c(…, hint)) }`. -/
def hintIf (condition : Prop) [Decidable condition] (hint : String) : List String :=
  if condition then [hint] else []

section Column

variable {V : Type} [LinearOrder V] (parseVersion : String → V) (inp : Inputs)

/-- The codes of the `blacklist_reasons`. -/
def blacklistHints (v : Validator) : List String :=
  (inp.blacklist.filter fun row => row.voteAccount = v.voteAccount).map BlacklistRow.code

def bondHints (v : Validator) : List String := hintIf (bondless inp v) "NOT_ELIGIBLE_NO_BOND"

def algoHints (v : Validator) : List String :=
  hintIf (inp.params.eligibilityAlgoStakeMaxCommission < v.maxCommission)
      "NOT_ELIGIBLE_ALGO_STAKE_MAX_COMMISSION_OVER_10" ++
    hintIf (v.minimumStake < inp.params.eligibilityAlgoStakeMinStake)
      "NOT_ELIGIBLE_ALGO_STAKE_MIN_STAKE_BELOW_1000" ++
    hintIf (parseVersion v.version < parseVersion inp.params.eligibilityMinVersion)
      "NOT_ELIGIBLE_VERSION_TOO_LOW"

/-- The loops of the two kinds of stake that have a score threshold, with the bounds and the
texts of one of them. -/
def votedHints (maxCommission minStake multiplier : ℚ)
    (maxCommissionHint minStakeHint scoreHint : String) (minScore : Option ℚ)
    (v : RankedValidator) : List String :=
  hintIf (maxCommission < v.maxCommission) maxCommissionHint ++
    hintIf (v.minimumStake < minStake) minStakeHint ++
    hintIf (scoreTooLow minScore multiplier v) scoreHint

def msolHints : Option ℚ → RankedValidator → List String :=
  votedHints inp.params.eligibilityMsolStakeMaxCommission inp.params.eligibilityMsolStakeMinStake
    inp.params.eligibilityMsolScoreThresholdMultiplier
    "NOT_ELIGIBLE_MSOL_STAKE_MAX_COMMISSION_OVER_10" "NOT_ELIGIBLE_MSOL_STAKE_MIN_STAKE_BELOW_100"
    "NOT_ELIGIBLE_MSOL_STAKE_SCORE_TOO_LOW"

def vemndeHints : Option ℚ → RankedValidator → List String :=
  votedHints inp.params.eligibilityVemndeStakeMaxCommission
    inp.params.eligibilityVemndeStakeMinStake inp.params.eligibilityVemndeScoreThresholdMultiplier
    "NOT_ELIGIBLE_VEMNDE_STAKE_MAX_COMMISSION_OVER_10"
    "NOT_ELIGIBLE_VEMNDE_STAKE_MIN_STAKE_BELOW_100" "NOT_ELIGIBLE_VEMNDE_STAKE_SCORE_TOO_LOW"

/-- The column of a row when the script ends. -/
def uiHints (minScore : Option ℚ) (v : RankedValidator) : List String :=
  blacklistHints inp v.toValidator ++ bondHints inp v.toValidator ++
    algoHints parseVersion inp v.toValidator ++ msolHints inp minScore v ++
    vemndeHints inp minScore v

structure HintedValidator extends TargetValidator where
  uiHints : List String

/-- The table before its checks. -/
def hintedValidators : Option (List HintedValidator) := do
  let r ← targetStakes parseVersion inp
  some (r.validators.map fun v => { v with
    uiHints := uiHints parseVersion inp (runMinScore parseVersion inp) v.toRankedValidator })

end Column

/-- `paste` with `collapse = ','`. -/
def paste (hints : List String) : String := ",".intercalate hints

/-! ## The kinds of stake -/

/-- The three ways to a stake. -/
inductive Route where
  | algo
  | msol
  | vemnde
  deriving DecidableEq, Repr

namespace Route

/-- The hints that concern one kind of stake only. -/
def hints : Route → List String
  | .algo => ["NOT_ELIGIBLE_ALGO_STAKE_MAX_COMMISSION_OVER_10",
      "NOT_ELIGIBLE_ALGO_STAKE_MIN_STAKE_BELOW_1000"]
  | .msol => ["NOT_ELIGIBLE_MSOL_STAKE_MAX_COMMISSION_OVER_10",
      "NOT_ELIGIBLE_MSOL_STAKE_MIN_STAKE_BELOW_100", "NOT_ELIGIBLE_MSOL_STAKE_SCORE_TOO_LOW"]
  | .vemnde => ["NOT_ELIGIBLE_VEMNDE_STAKE_MAX_COMMISSION_OVER_10",
      "NOT_ELIGIBLE_VEMNDE_STAKE_MIN_STAKE_BELOW_100",
      "NOT_ELIGIBLE_VEMNDE_STAKE_SCORE_TOO_LOW"]

/-- A hint speaks against a kind of stake unless it concerns another one only. -/
def BlockedBy (route : Route) (hint : String) : Prop :=
  ∀ other, other ≠ route → hint ∉ other.hints

end Route

/-- The flag of a row. -/
def VotedValidator.eligibleStake (v : VotedValidator) : Route → Bool
  | .algo => v.eligibleStakeAlgo
  | .msol => v.eligibleStakeMsol
  | .vemnde => v.eligibleStakeVemnde

def TargetValidator.targetStakeOf (v : TargetValidator) : Route → ℤ
  | .algo => v.targetStakeAlgo
  | .msol => v.targetStakeMsol
  | .vemnde => v.targetStakeVemnde

/-- A code of the blacklist that is no hint of the script, and that can be pasted and cut. -/
structure OwnCode (code : String) : Prop where
  ne_empty : code ≠ ""
  noComma : ',' ∉ code.toList
  notHint : ∀ route : Route, code ∉ route.hints

/-! ## Hints and flags -/

theorem mem_hintIf {condition : Prop} [Decidable condition] {hint text : String} :
    hint ∈ hintIf condition text ↔ condition ∧ hint = text := by
  unfold hintIf
  by_cases h : condition
  · simp [h]
  · simp [h]

theorem Route.hints_disjoint {route other : Route} (h : other ≠ route) :
    ∀ hint ∈ route.hints, hint ∉ other.hints := by
  cases route <;> cases other <;> first | exact absurd rfl h | decide

/-- A hint of one kind of stake speaks against that kind only. -/
theorem Route.blockedBy_of_mem {route other : Route} {hint : String} (h : hint ∈ other.hints) :
    route.BlockedBy hint ↔ route = other := by
  constructor
  · intro hblocked
    by_contra hne
    exact hblocked other (Ne.symm hne) h
  · rintro rfl third hthird
    exact Route.hints_disjoint hthird hint h

section Flags

variable {V : Type} [LinearOrder V] (parseVersion : String → V) (inp : Inputs)

/-- The hints that speak against every kind of stake. -/
def generalHints (v : Validator) : List String :=
  blacklistHints inp v ++ bondHints inp v ++
    hintIf (parseVersion v.version < parseVersion inp.params.eligibilityMinVersion)
      "NOT_ELIGIBLE_VERSION_TOO_LOW"

/-- The hints that speak against one kind. -/
def routeHints (minScore : Option ℚ) (v : RankedValidator) : Route → List String
  | .algo => hintIf (inp.params.eligibilityAlgoStakeMaxCommission < v.maxCommission)
        "NOT_ELIGIBLE_ALGO_STAKE_MAX_COMMISSION_OVER_10" ++
      hintIf (v.minimumStake < inp.params.eligibilityAlgoStakeMinStake)
        "NOT_ELIGIBLE_ALGO_STAKE_MIN_STAKE_BELOW_1000"
  | .msol => msolHints inp minScore v
  | .vemnde => vemndeHints inp minScore v

/-- A validator fails a criterion that is particular to a kind of stake. -/
def Fails (minScore : Option ℚ) (v : RankedValidator) : Route → Prop
  | .algo => OutOfBounds inp.params.eligibilityAlgoStakeMaxCommission
      inp.params.eligibilityAlgoStakeMinStake v.toValidator
  | .msol => OutOfBounds inp.params.eligibilityMsolStakeMaxCommission
      inp.params.eligibilityMsolStakeMinStake v.toValidator ∨
        scoreTooLow minScore inp.params.eligibilityMsolScoreThresholdMultiplier v = true
  | .vemnde => OutOfBounds inp.params.eligibilityVemndeStakeMaxCommission
      inp.params.eligibilityVemndeStakeMinStake v.toValidator ∨
        scoreTooLow minScore inp.params.eligibilityVemndeScoreThresholdMultiplier v = true

variable {parseVersion inp} {minScore : Option ℚ} {v : RankedValidator} {hint : String}

/-- The column is made of the two sorts. -/
theorem mem_uiHints : hint ∈ uiHints parseVersion inp minScore v ↔
    hint ∈ generalHints parseVersion inp v.toValidator ∨
      ∃ route, hint ∈ routeHints inp minScore v route := by
  have hroutes : (∃ route, hint ∈ routeHints inp minScore v route) ↔
      hint ∈ routeHints inp minScore v .algo ∨ hint ∈ routeHints inp minScore v .msol ∨
        hint ∈ routeHints inp minScore v .vemnde := by
    constructor
    · rintro ⟨route, h⟩
      cases route <;> simp [h]
    · rintro (h | h | h)
      · exact ⟨_, h⟩
      · exact ⟨_, h⟩
      · exact ⟨_, h⟩
  rw [hroutes]
  simp only [uiHints, algoHints, generalHints, routeHints, List.mem_append]
  tauto

theorem exists_generalHint :
    (∃ hint, hint ∈ generalHints parseVersion inp v.toValidator) ↔
      Barred parseVersion inp v.toValidator := by
  simp only [generalHints, blacklistHints, bondHints, List.mem_append, List.mem_map, mem_hintIf,
    List.mem_filter, decide_eq_true_eq, Barred, blacklisted, List.any_eq_true]
  constructor
  · rintro ⟨hint, (⟨row, ⟨hrow, hvote⟩, -⟩ | ⟨hbond, -⟩) | ⟨hversion, -⟩⟩
    · exact Or.inl ⟨row, hrow, hvote⟩
    · exact Or.inr (Or.inl hbond)
    · exact Or.inr (Or.inr hversion)
  · rintro (⟨row, hrow, hvote⟩ | hbond | hversion)
    · exact ⟨_, Or.inl (Or.inl ⟨row, ⟨hrow, hvote⟩, rfl⟩)⟩
    · exact ⟨_, Or.inl (Or.inr ⟨hbond, rfl⟩)⟩
    · exact ⟨_, Or.inr ⟨hversion, rfl⟩⟩

theorem exists_votedHint {maxCommission minStake multiplier : ℚ} {text text' text'' : String} :
    (∃ hint, hint ∈ votedHints maxCommission minStake multiplier text text' text'' minScore v) ↔
      OutOfBounds maxCommission minStake v.toValidator ∨
        scoreTooLow minScore multiplier v = true := by
  simp only [votedHints, List.mem_append, mem_hintIf, OutOfBounds]
  constructor
  · rintro ⟨hint, (⟨hcommission, -⟩ | ⟨hstake, -⟩) | ⟨hscore, -⟩⟩
    · exact Or.inl (Or.inl hcommission)
    · exact Or.inl (Or.inr hstake)
    · exact Or.inr hscore
  · rintro ((hcommission | hstake) | hscore)
    · exact ⟨_, Or.inl (Or.inl ⟨hcommission, rfl⟩)⟩
    · exact ⟨_, Or.inl (Or.inr ⟨hstake, rfl⟩)⟩
    · exact ⟨_, Or.inr ⟨hscore, rfl⟩⟩

theorem exists_routeHint (route : Route) :
    (∃ hint, hint ∈ routeHints inp minScore v route) ↔ Fails inp minScore v route := by
  cases route with
  | algo =>
    simp only [routeHints, Fails, OutOfBounds, List.mem_append, mem_hintIf]
    constructor
    · rintro ⟨hint, ⟨hcommission, -⟩ | ⟨hstake, -⟩⟩
      · exact Or.inl hcommission
      · exact Or.inr hstake
    · rintro (hcommission | hstake)
      · exact ⟨_, Or.inl ⟨hcommission, rfl⟩⟩
      · exact ⟨_, Or.inr ⟨hstake, rfl⟩⟩
  | msol => exact exists_votedHint
  | vemnde => exact exists_votedHint

theorem routeHints_subset {route : Route} (h : hint ∈ routeHints inp minScore v route) :
    hint ∈ route.hints := by
  cases route <;>
    simp only [routeHints, msolHints, vemndeHints, votedHints, List.mem_append, mem_hintIf] at h <;>
    simp only [Route.hints, List.mem_cons, List.not_mem_nil, or_false] <;> tauto

theorem generalHint_notMem (hcodes : ∀ row ∈ inp.blacklist, OwnCode row.code)
    (h : hint ∈ generalHints parseVersion inp v.toValidator) (route : Route) :
    hint ∉ route.hints := by
  simp only [generalHints, blacklistHints, bondHints, List.mem_append, List.mem_map, mem_hintIf,
    List.mem_filter] at h
  obtain (⟨row, ⟨hrow, -⟩, rfl⟩ | ⟨-, rfl⟩) | ⟨-, rfl⟩ := h
  · exact (hcodes row hrow).notHint route
  · cases route <;> decide
  · cases route <;> decide

/-- A row has a hint against a kind of stake if it fails a criterion of that kind. -/
theorem exists_blockedBy (hcodes : ∀ row ∈ inp.blacklist, OwnCode row.code) (route : Route) :
    (∃ hint ∈ uiHints parseVersion inp minScore v, route.BlockedBy hint) ↔
      Barred parseVersion inp v.toValidator ∨ Fails inp minScore v route := by
  rw [← exists_generalHint, ← exists_routeHint]
  constructor
  · rintro ⟨hint, hhint, hblocked⟩
    rcases mem_uiHints.mp hhint with hgeneral | ⟨other, hother⟩
    · exact Or.inl ⟨hint, hgeneral⟩
    · obtain rfl := (Route.blockedBy_of_mem (routeHints_subset hother)).mp hblocked
      exact Or.inr ⟨hint, hother⟩
  · rintro (⟨hint, hgeneral⟩ | ⟨hint, hroute⟩)
    · exact ⟨hint, mem_uiHints.mpr (Or.inl hgeneral), fun other _ =>
        generalHint_notMem hcodes hgeneral other⟩
    · exact ⟨hint, mem_uiHints.mpr (Or.inr ⟨route, hroute⟩),
        (Route.blockedBy_of_mem (routeHints_subset hroute)).mpr rfl⟩

/-- Every hint speaks against some kind of stake. -/
theorem exists_route_blockedBy (hcodes : ∀ row ∈ inp.blacklist, OwnCode row.code)
    (h : hint ∈ uiHints parseVersion inp minScore v) : ∃ route : Route, route.BlockedBy hint := by
  rcases mem_uiHints.mp h with hgeneral | ⟨route, hroute⟩
  · exact ⟨.algo, fun other _ => generalHint_notMem hcodes hgeneral other⟩
  · exact ⟨route, (Route.blockedBy_of_mem (routeHints_subset hroute)).mpr rfl⟩

theorem eligible_iff {maxCommission minStake : ℚ} {w : Validator} :
    eligible parseVersion inp maxCommission minStake w = true ↔
      ¬ (Barred parseVersion inp w ∨ OutOfBounds maxCommission minStake w) := by
  simp only [eligible, Barred, OutOfBounds, Bool.and_eq_true, Bool.not_eq_true',
    decide_eq_false_iff_not, not_or, Bool.not_eq_true]
  constructor
  · rintro ⟨⟨⟨⟨hblack, hcommission⟩, hstake⟩, hversion⟩, hbond⟩
    exact ⟨⟨hblack, hbond, hversion⟩, hcommission, hstake⟩
  · rintro ⟨⟨hblack, hbond, hversion⟩, hcommission, hstake⟩
    exact ⟨⟨⟨⟨hblack, hcommission⟩, hstake⟩, hversion⟩, hbond⟩

/-- The flags of a voted row say whether it fails a criterion. -/
theorem eligibleStake_iff_fails {vs : List VotedValidator}
    (h : votedValidators parseVersion inp = some vs) {w : VotedValidator} (hw : w ∈ vs)
    (route : Route) : w.eligibleStake route = true ↔
      ¬ (Barred parseVersion inp w.toValidator ∨
        Fails inp (runMinScore parseVersion inp) w.toRankedValidator route) := by
  obtain ⟨r, rfl, halgo⟩ := mem_votedValidators parseVersion h hw
  have hscored : ∀ {maxCommission minStake multiplier : ℚ},
      (eligible parseVersion inp maxCommission minStake r.toValidator &&
        !scoreTooLow (runMinScore parseVersion inp) multiplier r) = true ↔
        ¬ (Barred parseVersion inp r.toValidator ∨
          OutOfBounds maxCommission minStake r.toValidator ∨
          scoreTooLow (runMinScore parseVersion inp) multiplier r = true) := by
    intro maxCommission minStake multiplier
    simp only [Bool.and_eq_true, eligible_iff, Bool.not_eq_true', not_or, Bool.not_eq_true,
      and_assoc]
  cases route with
  | algo =>
    show r.eligibleStakeAlgo = true ↔ _
    rw [halgo]
    exact eligible_iff
  | msol => exact hscored
  | vemnde => exact hscored

/-- A row of the table is a row of the targets with its hints. -/
theorem mem_hintedValidators {table : List HintedValidator}
    (h : hintedValidators parseVersion inp = some table) {w : HintedValidator} (hw : w ∈ table) :
    ∃ r, targetStakes parseVersion inp = some r ∧ w.toTargetValidator ∈ r.validators ∧
      w.uiHints = uiHints parseVersion inp (runMinScore parseVersion inp) w.toRankedValidator := by
  obtain ⟨r, hr, h⟩ := Option.bind_eq_some_iff.mp h
  obtain rfl := Option.some.inj h
  obtain ⟨v, hv, rfl⟩ := List.mem_map.mp hw
  exact ⟨r, hr, hv, rfl⟩

/-- A row of the targets is a voted row. -/
theorem toVotedValidator_mem {r : Stakes} (h : targetStakes parseVersion inp = some r)
    {w : TargetValidator} (hw : w ∈ r.validators) :
    ∃ vs, votedValidators parseVersion inp = some vs ∧ w.toVotedValidator ∈ vs := by
  obtain ⟨vs, hvs, hr⟩ := Option.bind_eq_some_iff.mp h
  obtain ⟨rfl, -⟩ := stakesOf_eq_some hr
  obtain ⟨scaled, hscaled, rfl⟩ := List.mem_map.mp hw
  exact ⟨vs, hvs, (scaledValidators_perm inp vs).subset (List.mem_map_of_mem hscaled)⟩

/-- **The hints explain the flags**: a validator is eligible for a kind of stake exactly if none
of its hints speaks against that kind. -/
theorem eligibleStake_iff (hcodes : ∀ row ∈ inp.blacklist, OwnCode row.code)
    {table : List HintedValidator} (h : hintedValidators parseVersion inp = some table)
    {w : HintedValidator} (hw : w ∈ table) (route : Route) :
    w.eligibleStake route = true ↔ ∀ hint ∈ w.uiHints, ¬ route.BlockedBy hint := by
  obtain ⟨r, hr, hmem, hhints⟩ := mem_hintedValidators h hw
  obtain ⟨vs, hvs, hvoted⟩ := toVotedValidator_mem hr hmem
  rw [eligibleStake_iff_fails hvs hvoted, hhints]
  rw [← exists_blockedBy hcodes, not_exists]
  simp only [not_and]

/-- A row that fails a criterion of a kind of stake gets none of that kind. -/
theorem targetStakeOf_eq_zero_of_fails {r : Stakes} (h : targetStakes parseVersion inp = some r)
    {w : TargetValidator} (hw : w ∈ r.validators) {route : Route}
    (hfails : Barred parseVersion inp w.toValidator ∨
      Fails inp (runMinScore parseVersion inp) w.toRankedValidator route) :
    w.targetStakeOf route = 0 := by
  have hcriteria := respectsCriteria_of_mem parseVersion h hw
  rcases hfails with hbarred | hfails
  · obtain ⟨-, halgo, hmsol, hvemnde⟩ := hcriteria.barred hbarred
    cases route with
    | algo => exact halgo
    | msol => exact hmsol
    | vemnde => exact hvemnde
  · cases route with
    | algo => exact hcriteria.algo (Or.inl hfails)
    | msol => exact hcriteria.msol hfails
    | vemnde => exact hcriteria.vemnde hfails

/-- A kind of stake that a hint speaks against is not given. -/
theorem targetStakeOf_eq_zero (hcodes : ∀ row ∈ inp.blacklist, OwnCode row.code)
    {table : List HintedValidator} (h : hintedValidators parseVersion inp = some table)
    {w : HintedValidator} (hw : w ∈ table) {route : Route}
    (hblocked : ∃ hint ∈ w.uiHints, route.BlockedBy hint) : w.targetStakeOf route = 0 := by
  obtain ⟨r, hr, hmem, hhints⟩ := mem_hintedValidators h hw
  rw [hhints, exists_blockedBy hcodes] at hblocked
  exact targetStakeOf_eq_zero_of_fails hr hmem hblocked

end Flags

/-! ## Uploaded and loaded -/

/-- Texts that can be pasted and cut again. -/
theorem parseUiHints_paste {hints : List String}
    (h : ∀ hint ∈ hints, hint ≠ "" ∧ ',' ∉ hint.toList) :
    Store.parseUiHints (paste hints) = hints := by
  cases hints with
  | nil => rfl
  | cons hint hints =>
    have hne : paste (hint :: hints) ≠ "" := by
      intro hempty
      have htext : (paste (hint :: hints)).toList = [] := by rw [hempty]; rfl
      have hhint : hint.toList = [] := by
        cases hints with
        | nil => simpa [paste] using htext
        | cons second hints => simp [paste, String.intercalate_cons_cons] at htext
      exact (h hint List.mem_cons_self).1 (String.toList_eq_nil_iff.mp hhint)
    rw [Store.parseUiHints, if_neg hne]
    exact splitOn_intercalate ',' (fun piece hpiece => (h piece hpiece).2) (List.cons_ne_nil _ _)

/-- The hints of a row can be pasted and cut. -/
theorem uiHints_cuttable {V : Type} [LinearOrder V] {parseVersion : String → V} {inp : Inputs}
    {minScore : Option ℚ} {v : RankedValidator}
    (hcodes : ∀ row ∈ inp.blacklist, OwnCode row.code) :
    ∀ hint ∈ uiHints parseVersion inp minScore v, hint ≠ "" ∧ ',' ∉ hint.toList := by
  intro hint hhint
  rcases mem_uiHints.mp hhint with hgeneral | ⟨route, hroute⟩
  · simp only [generalHints, blacklistHints, bondHints, List.mem_append, List.mem_map, mem_hintIf,
      List.mem_filter] at hgeneral
    obtain (⟨row, ⟨hrow, -⟩, rfl⟩ | ⟨-, rfl⟩) | ⟨-, rfl⟩ := hgeneral
    · exact ⟨(hcodes row hrow).ne_empty, (hcodes row hrow).noComma⟩
    · decide
    · decide
  · have hall : ∀ route : Route, ∀ hint ∈ route.hints, hint ≠ "" ∧ ',' ∉ hint.toList := by
      intro route
      cases route <;> decide
    exact hall route hint (routeHints_subset hroute)

/-- The columns of `scores.csv` that come from a row of the table. -/
structure Publishes (w : HintedValidator) (row : Store.ValidatorScoringCsvRow) : Prop where
  voteAccount : row.voteAccount = w.voteAccount
  uiHints : row.uiHints = paste w.uiHints
  eligibleStakeAlgo : row.eligibleStakeAlgo = w.eligibleStakeAlgo
  eligibleStakeVemnde : row.eligibleStakeVemnde = w.eligibleStakeVemnde
  eligibleStakeMsol : row.eligibleStakeMsol = w.eligibleStakeMsol
  targetStakeAlgo : row.targetStakeAlgo = w.targetStakeAlgo
  targetStakeVemnde : row.targetStakeVemnde = w.targetStakeVemnde
  targetStakeMsol : row.targetStakeMsol = w.targetStakeMsol

/-- The flag of a record. -/
def eligibleStakeOf (record : Store.ValidatorScoreRecord) : Route → Bool
  | .algo => record.eligibleStakeAlgo
  | .msol => record.eligibleStakeMsol
  | .vemnde => record.eligibleStakeVemnde

def targetStakeOf (record : Store.ValidatorScoreRecord) : Route → ℕ
  | .algo => record.targetStakeAlgo
  | .msol => record.targetStakeMsol
  | .vemnde => record.targetStakeVemnde

/-- The hints of a record say for which kinds of stake it is eligible, and a kind that they
speak against is not given. -/
structure Explained (record : Store.ValidatorScoreRecord) : Prop where
  eligible : ∀ route, eligibleStakeOf record route = true ↔
    ∀ hint ∈ record.uiHints, ¬ route.BlockedBy hint
  target : ∀ route, (∃ hint ∈ record.uiHints, route.BlockedBy hint) →
    targetStakeOf record route = 0
  noHints : record.uiHints = [] ↔ ∀ route, eligibleStakeOf record route = true

section Records

variable {V : Type} [LinearOrder V] {parseVersion : String → V} {inp : Inputs}
variable {table : List HintedValidator} {upload : Store.ScoringUpload}
variable {tables : Store.ScoringTables} {record : Store.ValidatorScoreRecord}

/-- The record of an uploaded row has the flags, the hints and the targets of the table. -/
theorem record_of_publishes {f64ToString : ℚ → String} {row : Store.ValidatorScoringCsvRow}
    {w : HintedValidator} {scoringRunId scoreId : ℕ}
    (hcuttable : ∀ hint ∈ w.uiHints, hint ≠ "" ∧ ',' ∉ hint.toList)
    (hdistinct : (upload.scores.map Store.ValidatorScoringCsvRow.voteAccount).Nodup)
    (hrow : row ∈ upload.scores) (hpublishes : Publishes w row)
    (h : Store.scoreRecord tables
      (Store.scoreRow f64ToString upload scoringRunId scoreId row) = some record) :
    record.uiHints = w.uiHints ∧
      ∀ route, eligibleStakeOf record route = w.eligibleStake route ∧
        (w.targetStakeOf route = 0 → targetStakeOf record route = 0) := by
  obtain ⟨hdecimals, -, -, -, -, hhints, -, -, -, halgo, hvemnde, hmsol, -⟩ :=
    Store.scoreRecord_eq_some_iff.mp h
  simp only [Store.ScoreRow.decimals, Store.ValidatorScoreRecord.decimals, List.map_cons,
    List.map_nil, List.cons.injEq, and_true] at hdecimals
  obtain ⟨-, -, hstakeAlgo, hstakeVemnde, hstakeMsol⟩ := hdecimals
  have hzero : ∀ {stake : ℚ} {target : ℤ} {n : ℕ}, stake = target →
      Store.decimalToU64 stake = some n → target = 0 → n = 0 := by
    rintro stake target n rfl hn rfl
    have hdecimal : Store.decimalToU64 ((0 : ℤ) : ℚ) = some 0 := by decide
    rw [hdecimal] at hn
    exact (Option.some.inj hn).symm
  constructor
  · rw [hhints]
    show Store.lookup _ upload.scores row = _
    rw [Store.lookup_of_mem _ hdistinct hrow, hpublishes.uiHints, parseUiHints_paste hcuttable]
  · intro route
    cases route with
    | algo =>
      exact ⟨halgo.trans hpublishes.eligibleStakeAlgo, hzero hpublishes.targetStakeAlgo hstakeAlgo⟩
    | msol =>
      exact ⟨hmsol.trans hpublishes.eligibleStakeMsol, hzero hpublishes.targetStakeMsol hstakeMsol⟩
    | vemnde =>
      exact ⟨hvemnde.trans hpublishes.eligibleStakeVemnde,
        hzero hpublishes.targetStakeVemnde hstakeVemnde⟩

/-- **The served hints explain the served flags**: of an uploaded run the API has a record for
every row, with the hints of the script, and each record is explained by its hints, if the codes
of the blacklist are no hints of the script and can be pasted and cut. -/
theorem loadScores_explained {V : Type} [LinearOrder V] (parseVersion : String → V) (inp : Inputs)
    (table : List HintedValidator) (htable : hintedValidators parseVersion inp = some table)
    (hcodes : ∀ row ∈ inp.blacklist, OwnCode row.code) (f64ToString : ℚ → String)
    (fault : ℕ → Option DbError) (upload : Store.ScoringUpload)
    (tables tables' : Store.ScoringTables)
    (hdistinct : (upload.scores.map Store.ValidatorScoringCsvRow.voteAccount).Nodup)
    (hupload : ∀ row ∈ upload.scores, ∃ w ∈ table, Publishes w row)
    (hstore : Store.storeScoring f64ToString fault upload tables = (tables', .ok ()))
    (scan : Scan) (records : Dict String Store.ValidatorScoreRecord)
    (hload : Store.loadScores scan tables' tables.nextScoringRunId = some records) :
    (∀ voteAccount, voteAccount ∈ records.keys ↔
      voteAccount ∈ upload.scores.map Store.ValidatorScoringCsvRow.voteAccount) ∧
    ∀ entry ∈ records.entries, Explained entry.2 ∧
      ∃ w ∈ table, entry.1 = w.voteAccount ∧ entry.2.uiHints = w.uiHints := by
  obtain ⟨hkeys, hentries⟩ := Store.loadScores_of_next (Store.storeScoring_ok hstore) hload
  refine ⟨hkeys, fun entry hentry => ?_⟩
  obtain ⟨scored, hscored, hkey, hrecord⟩ := hentries entry hentry
  obtain ⟨⟨row, scoreId⟩, hmem, rfl⟩ := List.mem_map.mp hscored
  have hrow := List.fst_mem_of_mem_zipIdx hmem
  obtain ⟨w, hw, hpublishes⟩ := hupload row hrow
  obtain ⟨-, -, -, hcolumn⟩ := mem_hintedValidators htable hw
  have hcuttable : ∀ hint ∈ w.uiHints, hint ≠ "" ∧ ',' ∉ hint.toList := by
    rw [hcolumn]
    exact uiHints_cuttable hcodes
  obtain ⟨hhints, hroutes⟩ := record_of_publishes hcuttable hdistinct hrow hpublishes hrecord
  have heligible : ∀ route, eligibleStakeOf entry.2 route = true ↔
      ∀ hint ∈ entry.2.uiHints, ¬ route.BlockedBy hint := by
    intro route
    rw [(hroutes route).1, hhints]
    exact eligibleStake_iff hcodes htable hw route
  refine ⟨⟨heligible, fun route hblocked => ?_, ?_⟩, w, hw, ?_, hhints⟩
  · rw [hhints] at hblocked
    exact (hroutes route).2 (targetStakeOf_eq_zero hcodes htable hw hblocked)
  · constructor
    · intro hnone route
      rw [heligible route, hnone]
      exact fun hint hhint => absurd hhint List.not_mem_nil
    · intro hall
      refine List.eq_nil_iff_forall_not_mem.mpr fun hint hhint => ?_
      have hscript := hhint
      rw [hhints, hcolumn] at hscript
      obtain ⟨route, hblocked⟩ := exists_route_blockedBy hcodes hscript
      exact (heligible route).mp (hall route) hint hhint hblocked
  · exact hkey.trans hpublishes.voteAccount

end Records

/-- Two validators, of which one is blacklisted and has neither a bond nor enough stake. -/
def hintedInputs : Inputs :=
  { lossInputs with
    blacklist := [⟨account 100, "SLOW_VOTER"⟩]
    validators := [lossValidator 0, lossValidator 100]
    bonds := [account 0] }

/-- A row of `scores.csv` for a row of the table, with its rank as the ranks of the components. -/
def publishedRow (w : HintedValidator) : Store.ValidatorScoringCsvRow where
  voteAccount := w.voteAccount
  score := w.score
  rank := w.rank
  vemndeVotes := w.vemndeVotes
  msolVotes := w.msolVotes
  uiHints := paste w.uiHints
  eligibleStakeAlgo := w.eligibleStakeAlgo
  eligibleStakeVemnde := w.eligibleStakeVemnde
  eligibleStakeMsol := w.eligibleStakeMsol
  normalizedDcConcentration := w.normalizedDcConcentration
  normalizedGraceSkipRate := w.normalizedGraceSkipRate
  normalizedAdjustedCredits := w.normalizedAdjustedCredits
  avgDcConcentration := w.avgDcConcentration
  avgGraceSkipRate := w.avgGraceSkipRate
  avgAdjustedCredits := w.avgAdjustedCredits
  rankDcConcentration := w.rank
  rankGraceSkipRate := w.rank
  rankAdjustedCredits := w.rank
  targetStakeAlgo := w.targetStakeAlgo
  targetStakeVemnde := w.targetStakeVemnde
  targetStakeMsol := w.targetStakeMsol

theorem publishes_publishedRow (w : HintedValidator) : Publishes w (publishedRow w) :=
  ⟨rfl, rfl, rfl, rfl, rfl, rfl, rfl, rfl⟩

/-- The upload of a table. -/
def publishedUpload (table : List HintedValidator) : Store.ScoringUpload :=
  { Store.singleUpload "" with scores := table.map publishedRow }

/-- The records of both validators are explained. -/
theorem loadScores_explained_two : ∃ table records,
    hintedValidators (fun _ => 0 : String → ℕ) hintedInputs = some table ∧
      Store.loadScores .sequential (Store.storeScoring (fun _ => "") (fun _ => none)
        (publishedUpload table) .empty).1 1 = some records ∧
      records.keys = [account 0, account 100] ∧
      ∀ entry ∈ records.entries, Explained entry.2 := by
  obtain ⟨table, htable⟩ := Option.isSome_iff_exists.mp
    (show (hintedValidators (fun _ => 0 : String → ℕ) hintedInputs).isSome = true by decide +kernel)
  have hrun : ∃ records, table.map (·.voteAccount) = [account 0, account 100] ∧
      (Store.storeScoring (fun _ => "") (fun _ => none) (publishedUpload table) .empty).2 =
        .ok () ∧
      Store.loadScores .sequential (Store.storeScoring (fun _ => "") (fun _ => none)
        (publishedUpload table) .empty).1 1 = some records ∧
      records.keys = [account 0, account 100] := by
    have h : (hintedValidators (fun _ => 0 : String → ℕ) hintedInputs).any (fun table =>
        table.map (·.voteAccount) = [account 0, account 100] ∧
        (Store.storeScoring (fun _ => "") (fun _ => none) (publishedUpload table) .empty).2 =
          .ok () ∧
        (Store.loadScores .sequential (Store.storeScoring (fun _ => "") (fun _ => none)
          (publishedUpload table) .empty).1 1).any fun records =>
            records.keys = [account 0, account 100]) = true := by
      decide +kernel
    rw [htable, Option.any_some, decide_eq_true_iff, Option.any_eq_true] at h
    obtain ⟨hvotes, hok, records, hload, hkeys⟩ := h
    exact ⟨records, hvotes, hok, hload, of_decide_eq_true hkeys⟩
  obtain ⟨records, hvotes, hok, hload, hkeys⟩ := hrun
  have hcodes : ∀ row ∈ hintedInputs.blacklist, OwnCode row.code := by
    intro row hrow
    obtain rfl := List.mem_singleton.mp hrow
    exact ⟨by decide, by decide, fun route => by cases route <;> decide⟩
  have hdistinct : ((publishedUpload table).scores.map
      Store.ValidatorScoringCsvRow.voteAccount).Nodup := by
    show ((table.map publishedRow).map _).Nodup
    rw [List.map_map]
    show (table.map (·.voteAccount)).Nodup
    rw [hvotes]
    decide
  have hupload : ∀ row ∈ (publishedUpload table).scores, ∃ w ∈ table, Publishes w row := by
    intro row hrow
    obtain ⟨w, hw, rfl⟩ := List.mem_map.mp hrow
    exact ⟨w, hw, publishes_publishedRow w⟩
  exact ⟨table, records, htable, hload, hkeys, fun entry hentry =>
    ((loadScores_explained (fun _ => 0 : String → ℕ) hintedInputs table htable hcodes
      (fun _ => "") (fun _ => none) (publishedUpload table) .empty _ hdistinct hupload
      (Prod.ext rfl hok) .sequential records hload).2 entry hentry).1⟩

end DelegationStrategy.Scoring
