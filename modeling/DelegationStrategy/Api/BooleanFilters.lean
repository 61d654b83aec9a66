import DelegationStrategy.Api.Pagination

/-!
# The boolean options of `/validators`

Six options of the query are booleans. Five of them keep the validators for which a test has
the value of the option, so the two values split the list. `query_sfdp` does not look at its
value: both keep the validators with stake of the foundation.
-/

namespace DelegationStrategy.Api

open DelegationStrategy.Lib DelegationStrategy.Collect DelegationStrategy.Store

/-- The boolean options. -/
inductive BoolOption where
  | superminority
  | score
  | marinadeStake
  | withNames
  | sfdp
  | incidentFree
  deriving DecidableEq, Repr

/-- The query with another value of the option. -/
def BoolOption.set (q : Option Bool) (config : GetValidatorsConfig) :
    BoolOption → GetValidatorsConfig
  | .superminority => { config with querySuperminority := q }
  | .score => { config with queryScore := q }
  | .marinadeStake => { config with queryMarinadeStake := q }
  | .withNames => { config with queryWithNames := q }
  | .sfdp => { config with querySfdp := q }
  | .incidentFree => { config with queryIncidentFree := q }

/-- The test that the option is about. -/
def BoolOption.test (v : ValidatorRecord) : BoolOption → Bool
  | .superminority => v.superminority
  | .score => 0 < v.score.getD 0
  | .marinadeStake => 0 < v.marinadeStake
  | .withNames => v.infoName.isSome
  | .sfdp => 0 < v.foundationStake
  | .incidentFree => v.incidents.isEmpty

section Options

variable (toLowercase : String → String) (option : BoolOption) (config : GetValidatorsConfig)
  (cached : Dict String ValidatorRecord)

/-- **What an option adds**: the test has the value of the option, but for `query_sfdp`. -/
theorem matchesParams_set (q : Bool) (e : String × ValidatorRecord) :
    matchesParams toLowercase (option.set (some q) config) e =
      (matchesParams toLowercase (option.set none config) e &&
        if option = .sfdp then option.test e.2 else option.test e.2 == q) := by
  rw [Bool.eq_iff_iff]
  cases option <;> simp [matchesParams, BoolOption.set, BoolOption.test] <;> tauto

/-- Passes the base filter and the other options. -/
def passes (e : String × ValidatorRecord) : Bool :=
  hasRequiredStats (lastEpochOf cached) e.2 && hasCreditsOrStake (lastEpochOf cached) e.2 &&
    matchesParams toLowercase (option.set none config) e

def passing : List (String × ValidatorRecord) :=
  cached.entries.filter (passes toLowercase option config cached)

theorem filterValidators_none (scan : Scan) :
    (filterValidators toLowercase scan (option.set none config) cached).Perm
      ((passing toLowercase option config cached).map Prod.snd) :=
  (scan.perm _).map Prod.snd

theorem filterValidators_some (scan : Scan) (q : Bool) :
    (filterValidators toLowercase scan (option.set (some q) config) cached).Perm
      (((passing toLowercase option config cached).map Prod.snd).filter fun v =>
        if option = .sfdp then option.test v else option.test v == q) := by
  refine ((scan.perm _).map Prod.snd).trans (List.Perm.of_eq ?_)
  rw [List.filter_map, passing, List.filter_filter]
  congr 1
  refine List.filter_congr ?_
  intro e _
  rw [passes, matchesParams_set, Function.comp_apply, ← Bool.and_assoc, Bool.and_comm]

/-- The two values of the option split the list that is returned without it. -/
def Splits : Prop :=
  ∀ scanTrue scanFalse scan : Scan,
    let withTrue := filterValidators toLowercase scanTrue (option.set (some true) config) cached
    let withFalse := filterValidators toLowercase scanFalse (option.set (some false) config) cached
    withTrue.Disjoint withFalse ∧
      (withTrue ++ withFalse).Perm
        (filterValidators toLowercase scan (option.set none config) cached)

variable {toLowercase option config cached}

/-- An option that looks at its value splits the list. -/
theorem splits_of_ne (h : option ≠ .sfdp) : Splits toLowercase option config cached := by
  intro scanTrue scanFalse scan
  have htrue := filterValidators_some toLowercase option config cached scanTrue true
  have hfalse := filterValidators_some toLowercase option config cached scanFalse false
  have hall := filterValidators_none toLowercase option config cached scan
  simp only [h, if_false, beq_true, beq_false] at htrue hfalse
  constructor
  · intro v hvtrue hvfalse
    have hv := (List.mem_filter.mp (htrue.subset hvtrue)).2
    have hv' := (List.mem_filter.mp (hfalse.subset hvfalse)).2
    simp [hv] at hv'
  · exact (htrue.append hfalse).trans ((List.filter_append_perm _ _).trans hall.symm)

/-- Both values of `query_sfdp` return the same validators, so they split only the empty
list. -/
theorem splits_sfdp_iff :
    Splits toLowercase .sfdp config cached ↔ passing toLowercase .sfdp config cached = [] := by
  have hvalue := filterValidators_some toLowercase .sfdp config cached
  have hall := filterValidators_none toLowercase .sfdp config cached
  simp only [if_true] at hvalue
  constructor
  · intro h
    obtain ⟨hdisjoint, hperm⟩ := h .sequential .sequential .sequential
    have hsame := (hvalue .sequential true).trans (hvalue .sequential false).symm
    have hnone : filterValidators toLowercase .sequential
        (BoolOption.set (some true) config .sfdp) cached = [] :=
      List.eq_nil_iff_forall_not_mem.mpr fun v hv => hdisjoint hv (hsame.subset hv)
    rw [hnone] at hsame hperm
    rw [hsame.symm.eq_nil] at hperm
    exact List.map_eq_nil_iff.mp (hperm.trans (hall .sequential)).symm.eq_nil
  · intro hempty scanTrue scanFalse scan
    simp only [hempty, List.map_nil, List.filter_nil] at hvalue hall
    rw [(hvalue scanTrue true).eq_nil, (hvalue scanFalse false).eq_nil, (hall scan).eq_nil]
    exact ⟨List.disjoint_nil_left _, List.Perm.refl _⟩

/-- A returned validator has stats with stake or credits for the last epochs. -/
theorem base_of_mem_filterValidators {scan : Scan} {v : ValidatorRecord}
    (h : v ∈ filterValidators toLowercase scan config cached) {epoch : Nat}
    (hepoch : lastEpochOf cached - 1 ≤ epoch ∧ epoch ≤ lastEpochOf cached) :
    ∃ stats ∈ v.epochStats, stats.epoch = epoch ∧
      (0 < stats.activatedStake ∨ 0 < stats.credits) := by
  obtain ⟨e, he, rfl⟩ := List.mem_map.mp h
  have hkept := (List.mem_filter.mp (scan.mem_order.mp he)).2
  simp only [Bool.and_eq_true] at hkept
  have hrange : epoch ∈ epochsRange
      (lastEpochOf cached - minRequiredEpochsWithCreditsOrStake) (lastEpochOf cached) := by
    simp [epochsRange, minRequiredEpochsWithCreditsOrStake, List.mem_range'_1]
    omega
  have hany := List.all_eq_true.mp hkept.1.2 epoch hrange
  cases hfind : e.2.epochStats.find? fun stats => stats.epoch = epoch with
  | none => simp [hfind] at hany
  | some stats =>
    rw [hfind] at hany
    exact ⟨stats, List.mem_of_find?_eq_some hfind, by simpa using List.find?_some hfind,
      by simpa using hany⟩

/-- **Boolean filters**: every returned validator has stake or credits in the last epoch and
in the one before; and an option splits the list exactly if it is not `query_sfdp`, or
nothing passes the base filter and the other options. -/
theorem booleanFilters_iff (toLowercase : String → String) (option : BoolOption)
    (config : GetValidatorsConfig) (cached : Dict String ValidatorRecord) :
    (∀ scan, ∀ v ∈ filterValidators toLowercase scan config cached,
      ∀ epoch, lastEpochOf cached - 1 ≤ epoch ∧ epoch ≤ lastEpochOf cached →
        ∃ stats ∈ v.epochStats, stats.epoch = epoch ∧
          (0 < stats.activatedStake ∨ 0 < stats.credits)) ∧
      (Splits toLowercase option config cached ↔
        (option = .sfdp → ∀ e ∈ cached.entries, ¬ passes toLowercase option config cached e)) := by
  constructor
  · intro scan v hv epoch hepoch
    exact base_of_mem_filterValidators hv hepoch
  · by_cases h : option = .sfdp
    · subst h
      rw [splits_sfdp_iff, passing, List.filter_eq_nil_iff]
      exact ⟨fun hnone _ => hnone, fun hnone => hnone rfl⟩
    · exact iff_of_true (splits_of_ne h) fun heq => absurd heq h

end Options

/-- No validator has stake of the foundation: both values of `query_sfdp` return nothing. -/
theorem sfdp_does_not_split :
    ¬ ∀ (toLowercase : String → String) (option : BoolOption) (config : GetValidatorsConfig)
      (cached : Dict String ValidatorRecord), Splits toLowercase option config cached := by
  intro h
  have hperm := (h id .sfdp ({} : QueryParams).config tiedValidators .sequential .sequential
    .sequential).2
  have hnone : ∀ q, filterValidators id .sequential
      (BoolOption.set (some q) ({} : QueryParams).config .sfdp) tiedValidators = [] := by
    decide
  rw [hnone, hnone] at hperm
  exact absurd hperm.symm.eq_nil (by decide)

end DelegationStrategy.Api
