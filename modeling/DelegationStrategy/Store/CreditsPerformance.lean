import DelegationStrategy.Store.UnstakeHints

/-!
# Divisions of the credits performance

`voters_credits_performance_in_epoch` (`store/src/scoring.rs`) divides twice: the average of
`activated_stake * credits` by the average of `activated_stake`, and the credits by this
quotient. `COALESCE` replaces a `NULL`, and a divisor of zero is an error; the quotients are
rounded, but none of them to zero.

The query answers exactly if no validator has a row in the epoch or one has both stake and
credits (`answersSafely_iff`). At the start of an epoch nobody has credits, and then the
unstake hints are not loaded either (`loadUnstakeHints_eq_none`).
-/

namespace DelegationStrategy.Store

open DelegationStrategy.Lib DelegationStrategy.Collect

section Divisions

variable {scan : Scan} {db : Database} {epoch : Nat}

/-- Somebody with stake has voted. -/
def VotedWithStake (db : Database) (epoch : Nat) : Prop :=
  ∃ row ∈ rowsOfEpoch epoch db.validators, 0 < row.activatedStake ∧ 0 < row.credits

instance : Decidable (VotedWithStake db epoch) := List.decidableBEx _ _

/-- The query returns a performance for each row, and 0 where there is nothing to compare
with. -/
def AnswersSafely (db : Database) (epoch : Nat) (answer : Option (Dict String Rat)) : Prop :=
  ∃ performances, answer = some performances ∧
    (∀ row ∈ rowsOfEpoch epoch db.validators, row.voteAccount ∈ performances.keys) ∧
    (stakeWeightedAvgCredits db epoch = 0 → ∀ e ∈ performances.entries, e.2 = 0)

/-! ## The divisors -/

/-- The inner divisor: somebody has stake. -/
theorem totalStake_eq_zero_iff :
    totalStake db epoch = 0 ↔ ∀ row ∈ rowsOfEpoch epoch db.validators, row.activatedStake = 0 := by
  rw [totalStake, List.sum_eq_zero_iff, List.forall_mem_map]

theorem totalStakeCredits_eq_zero_iff :
    totalStakeCredits db epoch = 0 ↔
      ∀ row ∈ rowsOfEpoch epoch db.validators, row.activatedStake * row.credits = 0 := by
  rw [totalStakeCredits, List.sum_eq_zero_iff, List.forall_mem_map]

/-- The outer divisor: somebody with stake has credits. -/
theorem stakeWeightedAvgCredits_eq_zero_iff :
    stakeWeightedAvgCredits db epoch = 0 ↔ ¬ VotedWithStake db epoch := by
  unfold VotedWithStake
  rw [stakeWeightedAvgCredits_eq, Numeric.value_ofNat, Numeric.value_ofNat, div_eq_zero_iff,
    Nat.cast_eq_zero, Nat.cast_eq_zero, totalStakeCredits_eq_zero_iff, totalStake_eq_zero_iff]
  constructor
  · rintro hzero ⟨row, hrow, hstake, hcredits⟩
    rcases hzero with hproduct | hnone
    · exact absurd (hproduct row hrow) (Nat.mul_pos hstake hcredits).ne'
    · exact absurd (hnone row hrow) hstake.ne'
  · intro hnobody
    refine Or.inl fun row hrow => ?_
    by_contra hne
    have hpos : 0 < row.activatedStake * row.credits := Nat.pos_of_ne_zero hne
    exact hnobody ⟨row, hrow, Nat.pos_of_mul_pos_right hpos, Nat.pos_of_mul_pos_left hpos⟩

/-- Rounding does not make the outer divisor zero. -/
theorem roundedAvgCredits_eq_zero_iff (hne : rowsOfEpoch epoch db.validators ≠ [])
    (hstake : totalStake db epoch ≠ 0) :
    (roundedAvgCredits db epoch).digits = 0 ↔ ¬ VotedWithStake db epoch := by
  have hpos : 0 < (Numeric.ofNat (totalStake db epoch)).value := by
    simpa using Nat.pos_of_ne_zero hstake
  have hcount := count_pos hne
  have hdividend : 0 ≤ ((Numeric.ofNat (totalStakeCredits db epoch)).div
      (.ofNat (rowsOfEpoch epoch db.validators).length)).value :=
    Numeric.value_div_nonneg (by simp) hcount
  rw [← stakeWeightedAvgCredits_eq_zero_iff, stakeWeightedAvgCredits_eq, div_eq_zero_iff,
    or_iff_left hpos.ne', roundedAvgCredits,
    Numeric.digits_div_eq_zero_iff hdividend (Numeric.value_div_pos hpos hcount),
    Numeric.value_eq_zero_iff, Numeric.digits_div_eq_zero_iff (by simp) hcount]

theorem creditsStats_of_nil (h : rowsOfEpoch epoch db.validators = []) :
    creditsStats epoch db = some none := by
  unfold creditsStats
  rw [h]
  rfl

/-! ## The query -/

/-- Nobody has stake and credits: the query fails at one of the divisions. -/
theorem votersCreditsPerformance_eq_none (hne : rowsOfEpoch epoch db.validators ≠ [])
    (h : ¬ VotedWithStake db epoch) : votersCreditsPerformanceInEpoch scan epoch db = none := by
  unfold votersCreditsPerformanceInEpoch
  rw [creditsStats_of_ne_nil hne]
  split
  · rfl
  · -- the average is zero, and the first row is divided by it
    rename_i hstake
    have hzero := (roundedAvgCredits_eq_zero_iff hne hstake).mpr h
    obtain ⟨row, hrow⟩ := List.exists_mem_of_ne_nil _ hne
    have hscanned : row ∈ rowsOfEpoch epoch (scan.order db.validators) := by
      obtain ⟨hmem, hepoch⟩ := mem_rowsOfEpoch.mp hrow
      exact mem_rowsOfEpoch.mpr ⟨scan.mem_order.mpr hmem, hepoch⟩
    rw [Option.eq_none_iff_forall_ne_some]
    intro performances hrun
    obtain ⟨stats, hstats, hrun⟩ := Option.bind_eq_some_iff.mp hrun
    obtain rfl := Option.some.inj hstats
    obtain ⟨converted, hconverted, -⟩ := Option.bind_eq_some_iff.mp hrun
    obtain ⟨e, he⟩ := exists_of_mapM hconverted hscanned
    obtain ⟨performance, hperformance, -⟩ := Option.map_eq_some_iff.mp he
    obtain ⟨quotient, hdiv, -⟩ := Option.map_eq_some_iff.mp hperformance
    exact (Numeric.sqlDiv_eq_some hdiv).1 hzero

/-- Somebody has stake and credits: both divisors are positive. -/
theorem votersCreditsPerformance_eq_some (h : VotedWithStake db epoch) :
    votersCreditsPerformanceInEpoch scan epoch db =
      some (Dict.ofList ((rowsOfEpoch epoch (scan.order db.validators)).map fun row =>
        (row.voteAccount,
          ((Numeric.ofNat row.credits).div (roundedAvgCredits db epoch)).toDouble))) := by
  obtain ⟨staked, hstaked, hstake, -⟩ := id h
  have hne : rowsOfEpoch epoch db.validators ≠ [] := List.ne_nil_of_mem hstaked
  have hdivisor : totalStake db epoch ≠ 0 := fun hzero =>
    hstake.ne' (totalStake_eq_zero_iff.mp hzero staked hstaked)
  have haverage : (roundedAvgCredits db epoch).digits ≠ 0 := fun hzero =>
    (roundedAvgCredits_eq_zero_iff hne hdivisor).mp hzero h
  have hrow : ∀ row : ValidatorsRow,
      creditsPerformance (some (roundedAvgCredits db epoch)) row =
        some ((Numeric.ofNat row.credits).div (roundedAvgCredits db epoch)).toDouble := by
    intro row
    unfold creditsPerformance
    show (if _ then _ else _ : Option (Option Numeric)).map _ = _
    rw [if_neg haverage]
    rfl
  unfold votersCreditsPerformanceInEpoch
  rw [creditsStats_of_ne_nil hne, if_neg hdivisor]
  simp only [hrow, Option.map_some, Option.bind_eq_bind, Option.bind_some]
  rw [show (fun row : ValidatorsRow => some (row.voteAccount,
    ((Numeric.ofNat row.credits).div (roundedAvgCredits db epoch)).toDouble)) =
      fun row => pure _ from rfl, List.mapM_pure]
  rfl

/-- **The query answers** exactly if the epoch has no rows, or somebody with stake has voted. -/
theorem answersSafely_iff (scan : Scan) (db : Database) (epoch : Nat) :
    AnswersSafely db epoch (votersCreditsPerformanceInEpoch scan epoch db) ↔
      rowsOfEpoch epoch db.validators = [] ∨ VotedWithStake db epoch := by
  constructor
  · rintro ⟨performances, hrun, -⟩
    by_contra hneither
    rw [not_or] at hneither
    rw [votersCreditsPerformance_eq_none hneither.1 hneither.2] at hrun
    cases hrun
  · rintro (hnil | hvoted)
    · have hscanned : rowsOfEpoch epoch (scan.order db.validators) = [] := by
        refine List.eq_nil_iff_forall_not_mem.mpr fun row hrow => ?_
        obtain ⟨hmem, hepoch⟩ := mem_rowsOfEpoch.mp hrow
        have hin := mem_rowsOfEpoch.mpr ⟨scan.mem_order.mp hmem, hepoch⟩
        rw [hnil] at hin
        cases hin
      refine ⟨Dict.empty, ?_, fun row hrow => ?_, fun _ e he => nomatch he⟩
      · unfold votersCreditsPerformanceInEpoch
        rw [creditsStats_of_nil hnil, hscanned]
        rfl
      · rw [hnil] at hrow
        cases hrow
    · refine ⟨_, votersCreditsPerformance_eq_some hvoted, fun row hrow => ?_, fun hzero => ?_⟩
      · obtain ⟨hmem, hepoch⟩ := mem_rowsOfEpoch.mp hrow
        rw [Dict.mem_keys_ofList, List.map_map]
        exact List.mem_map.mpr
          ⟨row, mem_rowsOfEpoch.mpr ⟨scan.mem_order.mpr hmem, hepoch⟩, rfl⟩
      · exact absurd hvoted (stakeWeightedAvgCredits_eq_zero_iff.mp hzero)

/-- **The hints** of an epoch in which nobody with stake has voted are not loaded. -/
theorem loadUnstakeHints_eq_none (hne : rowsOfEpoch epoch db.validators ≠ [])
    (h : ¬ VotedWithStake db epoch) (blacklistFile : Option (List BlacklistRecord)) :
    loadUnstakeHints scan blacklistFile epoch db = none := by
  unfold loadUnstakeHints
  rw [votersCreditsPerformance_eq_none hne h]
  cases voterMaxCommissionInEpoch scan epoch db with
  | none => rfl
  | some commissions => cases commissionsInPreviousEpoch scan epoch db <;> rfl

end Divisions

/-! ## The start of an epoch -/

/-- `store_validators` ran before anybody had credits. -/
def startDatabase : Database :=
  executeAll [⟨.storeValidators .sequential (singleValidators 0 0), fun _ => none⟩]
    ⟨[], [], [], [], []⟩

/-- One validator with stake and no credits: the query and the hints fail. -/
theorem startDatabase_fails :
    (rowsOfEpoch 500 startDatabase.validators).map (fun row =>
        (row.voteAccount, row.activatedStake, row.credits)) = [("vote", 1000, 0)] ∧
      votersCreditsPerformanceInEpoch .sequential 500 startDatabase = none ∧
      loadUnstakeHints .sequential (some []) 500 startDatabase = none ∧
      ¬ AnswersSafely startDatabase 500
        (votersCreditsPerformanceInEpoch .sequential 500 startDatabase) := by
  have hrows : (rowsOfEpoch 500 startDatabase.validators).map (fun row =>
      (row.voteAccount, row.activatedStake, row.credits)) = [("vote", 1000, 0)] := by
    decide
  have hnone : votersCreditsPerformanceInEpoch .sequential 500 startDatabase = none := by
    have hfails : (votersCreditsPerformanceInEpoch .sequential 500 startDatabase).isNone := by
      decide +kernel
    exact Option.isNone_iff_eq_none.mp hfails
  refine ⟨hrows, hnone, loadUnstakeHints_eq_none (fun hnil => ?_) (by decide) _, ?_⟩
  · rw [hnil] at hrows
    cases hrows
  · rintro ⟨performances, hrun, -⟩
    rw [hnone] at hrun
    cases hrun

end DelegationStrategy.Store
