import DelegationStrategy.Store.Scoring
import DelegationStrategy.Store.ValidatorRecords

/-!
# The staking report

`get_planned_stakes` (`api/src/handlers/reports_staking.rs`) reads the last epoch from the
database, and the scores and the validators from the cache. It skips a validator without
the flag `has_last_epoch_stats`, and logs an error and skips one that has the flag but no
stats for the epoch it has read.

The report is complete exactly if it never runs into this error (`complete_iff`).
-/

namespace DelegationStrategy.Api

open DelegationStrategy.Lib DelegationStrategy.Store

structure StakingChange where
  voteAccount : String
  identity : String
  score : Rat
  currentStake : Nat
  nextStake : Nat
  deriving DecidableEq, Repr

def lamportsPerSol : Nat := 1000000000

/-- The cached validator of a vote account, if it has the flag. -/
def flagged (validators : Dict String ValidatorRecord) (voteAccount : String) :
    Option ValidatorRecord :=
  (validators.get? voteAccount).filter ValidatorRecord.hasLastEpochStats

/-- `should_have * LAMPORTS_PER_SOL`, in the arithmetic of `u64`. -/
def nextStake (scoreRecord : ValidatorScoreRecord) : Nat :=
  let shouldHave := (scoreRecord.targetStakeAlgo + scoreRecord.targetStakeVemnde +
    scoreRecord.targetStakeMsol) % 2 ^ 64
  shouldHave * lamportsPerSol % 2 ^ 64

/-- What the loop pushes for a score; `none` if `unwrap` panics. -/
def stakingChange (lastEpoch : Nat) (validators : Dict String ValidatorRecord)
    (e : String × ValidatorScoreRecord) : Option (List StakingChange) :=
  match flagged validators e.1 with
  | some validator =>
    match (validator.epochStats.filter fun stats => stats.epoch = lastEpoch).getLast? with
    | some currentEpochStats =>
      (decimalToU64 currentEpochStats.marinadeStake).map fun currentStake =>
        [{ voteAccount := validator.voteAccount
           identity := validator.identity
           score := e.2.score
           currentStake := currentStake
           nextStake := nextStake e.2 }]
    -- `error!`: no stats for the epoch
    | none => some []
  | none => some []

/-- `get_planned_stakes` from what it has read; `none` if it panics. -/
def getPlannedStakes (lastEpoch : Nat) (scores : Dict String ValidatorScoreRecord)
    (validators : Dict String ValidatorRecord) : Option (List StakingChange) :=
  scores.entries.foldlM (fun records e =>
    (stakingChange lastEpoch validators e).map fun pushed => records ++ pushed) []

/-! ## Completeness -/

/-- The loop pushes a record: the validator has the flag, and stats for the epoch. -/
def isPlanned (lastEpoch : Nat) (validators : Dict String ValidatorRecord)
    (e : String × ValidatorScoreRecord) : Bool :=
  (flagged validators e.1).any fun validator =>
    lastEpoch ∈ validator.epochStats.map ValidatorEpochStats.epoch

/-- The report has one record for every vote account with a score whose validator has the
flag. -/
def Complete (scores : Dict String ValidatorScoreRecord)
    (validators : Dict String ValidatorRecord) (planned : Option (List StakingChange)) : Prop :=
  ∃ changes, planned = some changes ∧ changes.map StakingChange.voteAccount =
    (scores.entries.filter fun e => (flagged validators e.1).isSome).map Prod.fst

/-- The validators with a score and the flag have stats for the epoch. -/
def Covered (lastEpoch : Nat) (scores : Dict String ValidatorScoreRecord)
    (validators : Dict String ValidatorRecord) : Prop :=
  ∀ e ∈ scores.entries, ∀ validator, flagged validators e.1 = some validator →
    lastEpoch ∈ validator.epochStats.map ValidatorEpochStats.epoch

section Report

variable {lastEpoch loadEpoch : Nat} {validators : Dict String ValidatorRecord}

theorem flagged_eq_some {voteAccount : String} {validator : ValidatorRecord}
    (h : flagged validators voteAccount = some validator) :
    (voteAccount, validator) ∈ validators.entries ∧ validator.hasLastEpochStats = true := by
  obtain ⟨hget, hflag⟩ := Option.filter_eq_some_iff.mp h
  exact ⟨Dict.mem_of_get? hget, hflag⟩

/-- **An iteration of the loop** pushes a record if the validator has the flag and the
stats. -/
theorem stakingChange_spec (lastEpoch : Nat) (hrecords : RecordsOf loadEpoch validators)
    (e : String × ValidatorScoreRecord) :
    ∃ pushed, stakingChange lastEpoch validators e = some pushed ∧
      pushed.map StakingChange.voteAccount =
        if isPlanned lastEpoch validators e then [e.1] else [] := by
  unfold stakingChange isPlanned
  cases hflagged : flagged validators e.1 with
  | none => exact ⟨[], rfl, rfl⟩
  | some validator =>
    obtain ⟨hentry, -⟩ := flagged_eq_some hflagged
    obtain ⟨hvote, -, hfit⟩ := hrecords _ hentry
    dsimp only [Option.any_some]
    cases hlast : (validator.epochStats.filter fun stats => stats.epoch = lastEpoch).getLast? with
    | none =>
      rw [List.getLast?_eq_none_iff, List.filter_eq_nil_iff] at hlast
      refine ⟨[], rfl, (if_neg fun hmem => ?_).symm⟩
      obtain ⟨stats, hstats, heq⟩ := List.mem_map.mp (of_decide_eq_true hmem)
      exact hlast stats hstats (decide_eq_true heq)
    | some stats =>
      obtain ⟨hstats, hepoch⟩ := List.mem_filter.mp
        (List.mem_of_mem_getLast? (Option.mem_def.mpr hlast))
      dsimp only
      rw [decimalToU64_natCast (hfit stats hstats)]
      refine ⟨_, rfl, ?_⟩
      rw [if_pos (decide_eq_true (List.mem_map.mpr ⟨stats, hstats, of_decide_eq_true hepoch⟩))]
      exact congrArg (fun a => [a]) hvote

/-- The rest of the loop, after it has pushed some records. -/
theorem foldlM_stakingChange (lastEpoch : Nat) (hrecords : RecordsOf loadEpoch validators)
    (entries : List (String × ValidatorScoreRecord)) (records : List StakingChange) :
    ∃ changes, entries.foldlM (fun records e =>
        (stakingChange lastEpoch validators e).map fun pushed => records ++ pushed) records =
          some (records ++ changes) ∧
      changes.map StakingChange.voteAccount =
        (entries.filter (isPlanned lastEpoch validators)).map Prod.fst := by
  induction entries generalizing records with
  | nil => exact ⟨[], by rw [List.append_nil]; rfl, rfl⟩
  | cons e entries ih =>
    obtain ⟨pushed, hpush, haccount⟩ := stakingChange_spec lastEpoch hrecords e
    obtain ⟨changes, hrun, haccounts⟩ := ih (records ++ pushed)
    refine ⟨pushed ++ changes, ?_, ?_⟩
    · rw [List.foldlM_cons, hpush, ← List.append_assoc]
      exact hrun
    · rw [List.map_append, haccount, haccounts]
      by_cases hplanned : isPlanned lastEpoch validators e = true
      · rw [if_pos hplanned, List.filter_cons_of_pos hplanned]
        rfl
      · rw [if_neg hplanned, List.filter_cons_of_neg hplanned]
        rfl

/-- **The report is complete** exactly if the validators with a score and the flag have
stats for the epoch that was read. -/
theorem complete_iff (hrecords : RecordsOf loadEpoch validators)
    (scores : Dict String ValidatorScoreRecord) :
    Complete scores validators (getPlannedStakes lastEpoch scores validators) ↔
      Covered lastEpoch scores validators := by
  obtain ⟨changes, hrun, haccounts⟩ :=
    foldlM_stakingChange lastEpoch hrecords scores.entries []
  have hcomplete : Complete scores validators (getPlannedStakes lastEpoch scores validators) ↔
      changes.map StakingChange.voteAccount =
        (scores.entries.filter fun e => (flagged validators e.1).isSome).map Prod.fst := by
    unfold Complete getPlannedStakes
    rw [hrun, List.nil_append]
    constructor
    · rintro ⟨_, ⟨⟩, h⟩
      exact h
    · exact fun h => ⟨changes, rfl, h⟩
  have hless : ∀ e, isPlanned lastEpoch validators e → (flagged validators e.1).isSome :=
    fun e h => Option.isSome_of_any h
  rw [hcomplete, haccounts, map_filter_eq_iff hless]
  unfold Covered isPlanned
  refine forall₂_congr fun e _ => ?_
  cases flagged validators e.1 <;> simp

/-- **A report of the epoch of the load** is complete. -/
theorem covered_of_records (hrecords : RecordsOf lastEpoch validators)
    (scores : Dict String ValidatorScoreRecord) : Covered lastEpoch scores validators := by
  intro e _ validator hflagged
  obtain ⟨hentry, hflag⟩ := flagged_eq_some hflagged
  exact (hrecords _ hentry).flag.mp hflag

end Report

end DelegationStrategy.Api
