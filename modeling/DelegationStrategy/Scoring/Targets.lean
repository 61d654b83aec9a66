import DelegationStrategy.Lib.WaterFill
import DelegationStrategy.Scoring.Eligibility

/-!
# From votes to target stakes

The second half of `scripts/scoring.R`: the valid votes, the capped veMNDE power,
the loop that hands out the overflow of the cap, the pools of stake and the
target stakes.

- The loop walks an index over a column that it changes (`overflowLoop`).
  `Scoring.Overflow` shows that it is the pass `distribute` of `Lib.WaterFill`
  over the weights the index has not reached.
- A target is a rounded share of a pool. The shares are definitions of their own
  (`vemndeStake`, `msolStake`, `algoStake`), so that a statement can compare a
  target with the stake before rounding.
- The last checks of the script run after the targets are computed, on them;
  `targetStakes` is the table before the checks and `scoringRun` what is written
  to the two files after them.
-/

namespace DelegationStrategy.Scoring

open DelegationStrategy.Lib

/-- R's `round`, in exact arithmetic. -/
def round (x : ℚ) : ℤ := roundHalfEven x

theorem isRounding_round : IsRounding round := isRounding_roundHalfEven

theorem round_of_eq {x : ℚ} {n : ℤ} (h : x = n) : round x = n := by
  rw [h]
  exact isRounding_round.round_intCast n

/-- A column of zeros and ones, as a number. -/
def indicator (b : Bool) : ℚ := if b then 1 else 0

/-! ## Stake control -/

def delStratVemnde (inp : Inputs) : ℚ := inp.vemndeVotes.of inp.params.delStratPubkey

def delStratMsol (inp : Inputs) : ℚ := inp.msolVotes.of inp.params.delStratPubkey

/-- The part of all votes that went to the delegation strategy itself. -/
def delStratStakeControl (delStrat total : ℚ) : ℚ := if 0 < total then delStrat / total else 0

def stakeControlVemnde (inp : Inputs) : ℚ :=
  inp.params.stakeControlVemnde *
    (1 - delStratStakeControl (delStratVemnde inp) inp.vemndeVotes.total)

def stakeControlMsol (inp : Inputs) : ℚ :=
  inp.params.stakeControlMsol *
    (1 - delStratStakeControl (delStratMsol inp) inp.msolVotes.total)

def stakeControlAlgo (inp : Inputs) : ℚ := 1 - stakeControlVemnde inp - stakeControlMsol inp

/-! ## Power -/

def msolValidVotes (v : VotedValidator) : ℤ := round (v.msolVotes * indicator v.eligibleStakeMsol)

def vemndeValidVotes (v : VotedValidator) : ℤ :=
  round (v.vemndeVotes * indicator v.eligibleStakeVemnde)

def msolValidVotesTotal (vs : List VotedValidator) : ℤ := (vs.map msolValidVotes).sum

def vemndeValidVotesTotal (vs : List VotedValidator) : ℤ := (vs.map vemndeValidVotes).sum

def msolPower (total : ℤ) (v : VotedValidator) : ℚ :=
  if 0 < total then (msolValidVotes v : ℚ) / total else 0

/-- The most votes that may count for one validator. -/
def vemndePowerCap (inp : Inputs) (vs : List VotedValidator) : ℤ :=
  round ((vemndeValidVotesTotal vs + delStratVemnde inp) * inp.params.vemndeValidatorCap)

structure PoweredValidator extends VotedValidator where
  msolPower : ℚ
  vemndePower : ℤ

def powerValidator (msolTotal cap : ℤ) (v : VotedValidator) : PoweredValidator :=
  { v with
    msolPower := msolPower msolTotal v
    vemndePower := min (vemndeValidVotes v) cap }

/-- The rows with the capped power, the greatest power first; the sort is stable. -/
def powerValidators (inp : Inputs) (vs : List VotedValidator) : List PoweredValidator :=
  (vs.map (powerValidator (msolValidVotesTotal vs) (vemndePowerCap inp vs))).insertionSort
    fun a b => b.vemndePower ≤ a.vemndePower

/-- The votes that the cap truncated. -/
def vemndeOverflow (inp : Inputs) (vs : List VotedValidator) : ℤ :=
  vemndeValidVotesTotal vs -
    ((vs.map fun v => min (vemndeValidVotes v) (vemndePowerCap inp vs)).sum)

/-! ## The overflow loop -/

/-- The column the loop works on, and the votes still to be handed out. -/
structure OverflowState where
  vemndePower : List ℤ
  vemndeOverflow : ℤ

/-- The weights from index `v` on; the rest counts as zero. -/
def movingWeights (v : ℕ) (power : List ℤ) : List ℤ :=
  power.mapIdx fun i p => if v ≤ i then p else 0

/-- One iteration; `none` breaks the loop. -/
def overflowStep (cap : ℤ) (v : ℕ) (s : OverflowState) : Option OverflowState :=
  let weights := movingWeights v s.vemndePower
  if weights.sum = 0 then none
  else
    let capped := increase round cap s.vemndeOverflow (weights.getD v 0) weights.sum
    some {
      vemndePower := s.vemndePower.mapIdx fun i p => p + if i = v then capped else 0
      vemndeOverflow := s.vemndeOverflow - capped }

/-- The iterations from index `v` on, `n` at most. -/
def overflowLoop (cap : ℤ) : ℕ → ℕ → OverflowState → OverflowState
  | 0, _, s => s
  | n + 1, v, s =>
    match overflowStep cap v s with
    | none => s
    | some s' => overflowLoop cap n (v + 1) s'

/-- The loop over all rows, from the capped power and its overflow. -/
def redistribute (inp : Inputs) (vs : List VotedValidator) : OverflowState :=
  let power := (powerValidators inp vs).map (·.vemndePower)
  overflowLoop (vemndePowerCap inp vs) power.length 0
    { vemndePower := power, vemndeOverflow := vemndeOverflow inp vs }

/-! ## Scaling -/

/-- The overflow as a part of power and overflow together. -/
def vemndeOverflowPower (s : OverflowState) : ℚ :=
  if 0 < s.vemndePower.sum then
    (s.vemndeOverflow : ℚ) / (s.vemndePower.sum + s.vemndeOverflow : ℤ)
  else 1

def scalePower (s : OverflowState) (power : ℤ) : ℚ :=
  if 0 < s.vemndePower.sum then (power : ℚ) / (s.vemndePower.sum + s.vemndeOverflow : ℤ)
  else power

structure ScaledValidator extends VotedValidator where
  msolPower : ℚ
  vemndePower : ℚ

/-- The rows with the column that the loop left, scaled. -/
def scaleValidators (rows : List PoweredValidator) (s : OverflowState) : List ScaledValidator :=
  (rows.zip s.vemndePower).map fun (v, power) =>
    { v.toVotedValidator with msolPower := v.msolPower, vemndePower := scalePower s power }

/-! ## Pools -/

/-- The stake that each kind of power directs. -/
structure Pools where
  stakeControlVemndeSol : ℚ
  stakeControlVemndeOverflowSol : ℚ
  stakeControlMsolSol : ℚ
  stakeControlMsolUnusedSol : ℚ
  stakeControlAlgoSol : ℚ

def pools (inp : Inputs) (msolTotal : ℤ) (overflowPower : ℚ) : Pools :=
  let totalStake := inp.params.totalStake
  let vemndeOverflowSol := overflowPower * totalStake * stakeControlVemnde inp
  let msolUnusedSol := if 0 < msolTotal then 0 else totalStake * stakeControlMsol inp
  { stakeControlVemndeSol := totalStake * stakeControlVemnde inp * (1 - overflowPower)
    stakeControlVemndeOverflowSol := vemndeOverflowSol
    stakeControlMsolSol := if 0 < msolTotal then totalStake * stakeControlMsol inp else 0
    stakeControlMsolUnusedSol := msolUnusedSol
    stakeControlAlgoSol :=
      totalStake * stakeControlAlgo inp + vemndeOverflowSol + msolUnusedSol }

/-! ## Targets -/

/-- The score of a validator that receives algo stake. -/
def algoScore (v : VotedValidator) : ℚ := v.score * indicator v.inAlgoStakeSet

/-- The total score of the algo stake set. -/
def algoScoreTotal (vs : List VotedValidator) : ℚ := (vs.map algoScore).sum

def vemndeStake (p : Pools) (v : ScaledValidator) : ℚ := v.vemndePower * p.stakeControlVemndeSol

def msolStake (p : Pools) (v : ScaledValidator) : ℚ := v.msolPower * p.stakeControlMsolSol

def algoStake (p : Pools) (total : ℚ) (v : ScaledValidator) : ℚ :=
  algoScore v.toVotedValidator / total * p.stakeControlAlgoSol

structure TargetValidator extends ScaledValidator where
  targetStakeVemnde : ℤ
  targetStakeMsol : ℤ
  targetStakeAlgo : ℤ
  targetStake : ℤ

def targetValidator (p : Pools) (total : ℚ) (v : ScaledValidator) : TargetValidator :=
  let vemnde := round (vemndeStake p v)
  let msol := round (msolStake p v)
  let algo := round (algoStake p total v)
  { v with
    targetStakeVemnde := vemnde
    targetStakeMsol := msol
    targetStakeAlgo := algo
    targetStake := vemnde + algo + msol }

/-- The pools, the total score they are divided by, and the final table. -/
structure Stakes where
  pools : Pools
  algoScoreTotal : ℚ
  validators : List TargetValidator

/-- The pools and targets for a table of votes. Without an algo score to divide
by the algo targets are not numbers. -/
def stakesOf (inp : Inputs) (vs : List VotedValidator) : Option Stakes :=
  let s := redistribute inp vs
  let scaled := scaleValidators (powerValidators inp vs) s
  let p := pools inp (msolValidVotesTotal vs) (vemndeOverflowPower s)
  let total := algoScoreTotal (scaled.map (·.toVotedValidator))
  if total = 0 then none
  else some {
    pools := p
    algoScoreTotal := total
    validators := scaled.map (targetValidator p total) }

variable {V : Type} [LinearOrder V] (parseVersion : String → V)

/-- The script up to its checks. -/
def targetStakes (inp : Inputs) : Option Stakes := do
  let vs ← votedValidators parseVersion inp
  stakesOf inp vs

/-! ## Output files -/

/-- The three `stopifnot` of the script. -/
def checks (inp : Inputs) (r : Stakes) : Prop :=
  3000000 < inp.params.totalStake ∧ 1000 < r.validators.length ∧
    r.validators.countP (fun v => 0 < v.targetStakeAlgo) = 100

instance (inp : Inputs) (r : Stakes) : Decidable (checks inp r) :=
  inferInstanceAs (Decidable (_ ∧ _ ∧ _))

/-- `scores.csv` and `stakes.csv`. -/
structure Outputs where
  scores : List TargetValidator
  stakes : List TargetValidator

/-- The whole script; `none` is a run that stops without its files. -/
def scoringRun (inp : Inputs) : Option Outputs := do
  let r ← targetStakes parseVersion inp
  if checks inp r then
    some {
      scores := r.validators.insertionSort fun a b => a.rank ≤ b.rank
      stakes := (r.validators.filter fun v => 0 < v.targetStake).insertionSort
        fun a b => b.targetStake ≤ a.targetStake }
  else none

end DelegationStrategy.Scoring
