import DelegationStrategy.Lib.Ranking
import DelegationStrategy.Store.ValidatorRecords

/-!
# The ranks of the validators

`update_validators_ranks` (`store/src/utils.rs`) groups the stats of all records by epoch,
sorts each group by a field and writes a rank back to the stats, which it looks up by vote
account and epoch. `load_validators` calls it after the averages, for the stake, the score
and the APY.

With at most one entry for each epoch the lookups find the entry that the rank is for, so
each is changed once (`setRank_withRanks`); an epoch after the other (`rankEpoch_withRanks`)
all get their ranks, whatever the order of the hash maps (`updateValidatorsRanks_spec`).
-/

namespace DelegationStrategy.Store

open DelegationStrategy.Lib DelegationStrategy.Collect

/-- The fields that the closures `rank_updater` of `load_validators` write. -/
inductive RankField where
  | activatedStake
  | score
  | apy
  deriving DecidableEq, Repr

/-- `rank_updater`. -/
def RankField.update : RankField → ValidatorEpochStats → Nat → ValidatorEpochStats
  | .activatedStake, a, rank => { a with rankActivatedStake := some rank }
  | .score, a, rank => { a with rankScore := some rank }
  | .apy, a, rank => { a with rankApy := some rank }

@[simp] theorem RankField.epoch_update (field : RankField) (a : ValidatorEpochStats)
    (rank : Nat) : (field.update a rank).epoch = a.epoch := by
  cases field <;> rfl

section Ranks

variable {T : Type} [LinearOrder T]

/-- `stats_by_epoch`. -/
def statsByEpoch (fieldExtractor : ValidatorEpochStats → T)
    (validators : Dict String ValidatorRecord) : Dict Nat (List (String × T)) :=
  Dict.groups <| validators.entries.flatMap fun (voteAccount, record) =>
    record.epochStats.map fun validatorEpochStats =>
      (validatorEpochStats.epoch, (voteAccount, fieldExtractor validatorEpochStats))

/-- A rank is written to the stats of a vote account and an epoch; both are unwrapped. -/
def setRank (field : RankField) (epoch : Nat) (validators : Dict String ValidatorRecord)
    (ranked : (String × T) × Nat) : Option (Dict String ValidatorRecord) := do
  let ((voteAccount, _), rank) := ranked
  let record ← validators.get? voteAccount
  let epochStats ← updateFirst (fun a => a.epoch = epoch) (fun a => field.update a rank)
    record.epochStats
  some (validators.replace voteAccount { record with epochStats := epochStats })

/-- The ranks of an epoch. -/
def rankEpoch (field : RankField) (validators : Dict String ValidatorRecord)
    (group : Nat × List (String × T)) : Option (Dict String ValidatorRecord) :=
  let (epoch, stats) := group
  let stats := stats.insertionSort fun a b => a.2 ≤ b.2
  (rankFrom Prod.snd stats.length 0 none 0 stats).foldlM (setRank field epoch) validators

/-- `update_validators_ranks`; the order is that of the iteration over the epochs. -/
def updateValidatorsRanks (scan : Scan) (fieldExtractor : ValidatorEpochStats → T)
    (field : RankField) (validators : Dict String ValidatorRecord) :
    Option (Dict String ValidatorRecord) :=
  (scan.order (statsByEpoch fieldExtractor validators).entries).foldlM (rankEpoch field)
    validators

/-! ## One rank -/

/-- At most one entry for each epoch. -/
def OneStatsPerEpoch (validators : Dict String ValidatorRecord) : Prop :=
  ∀ e ∈ validators.entries, (e.2.epochStats.map ValidatorEpochStats.epoch).Nodup

/-- The number of validators of the epoch with a value that is at least as large. -/
def rankOf (fieldExtractor : ValidatorEpochStats → T) (validators : Dict String ValidatorRecord)
    (stats : ValidatorEpochStats) : Nat :=
  validators.entries.countP fun e => e.2.epochStats.any fun a =>
    a.epoch = stats.epoch ∧ fieldExtractor stats ≤ fieldExtractor a

/-- An entry with its rank, if it is selected. -/
def rankStats (fieldExtractor : ValidatorEpochStats → T) (field : RankField)
    (validators : Dict String ValidatorRecord) (p : Nat → Bool) (a : ValidatorEpochStats) :
    ValidatorEpochStats :=
  if p a.epoch then field.update a (rankOf fieldExtractor validators a) else a

/-- The records with the ranks of the selected entries. -/
def withRanks (fieldExtractor : ValidatorEpochStats → T) (field : RankField)
    (validators : Dict String ValidatorRecord) (p : String → Nat → Bool) :
    Dict String ValidatorRecord :=
  validators.mapKeyed fun voteAccount record =>
    { record with
      epochStats := record.epochStats.map
        (rankStats fieldExtractor field validators (p voteAccount)) }

variable {fieldExtractor : ValidatorEpochStats → T} {field : RankField}
  {validators : Dict String ValidatorRecord}

theorem epoch_rankStats (p : Nat → Bool) (a : ValidatorEpochStats) :
    (rankStats fieldExtractor field validators p a).epoch = a.epoch := by
  unfold rankStats
  split
  · exact field.epoch_update a _
  · rfl

theorem withRanks_congr {p q : String → Nat → Bool}
    (h : ∀ e ∈ validators.entries, ∀ a ∈ e.2.epochStats, p e.1 a.epoch = q e.1 a.epoch) :
    withRanks fieldExtractor field validators p = withRanks fieldExtractor field validators q := by
  refine Dict.ext (List.map_congr_left fun e he => ?_)
  have hstats : e.2.epochStats.map (rankStats fieldExtractor field validators (p e.1)) =
      e.2.epochStats.map (rankStats fieldExtractor field validators (q e.1)) := by
    refine List.map_congr_left fun a ha => ?_
    unfold rankStats
    rw [h e he a ha]
  exact congrArg (fun stats => (e.1, { e.2 with epochStats := stats })) hstats

theorem withRanks_none : withRanks fieldExtractor field validators (fun _ _ => false) =
    validators := by
  refine Dict.ext ?_
  unfold withRanks Dict.mapKeyed rankStats
  simp

/-- Among stats of distinct epochs the lookup finds the entry of the epoch. -/
theorem updateFirst_rankStats {stats : List ValidatorEpochStats}
    (hnodup : (stats.map ValidatorEpochStats.epoch).Nodup) {a : ValidatorEpochStats}
    (ha : a ∈ stats) {p : Nat → Bool} (hp : p a.epoch = false) :
    updateFirst (fun b => b.epoch = a.epoch)
        (fun b => field.update b (rankOf fieldExtractor validators a))
        (stats.map (rankStats fieldExtractor field validators p)) =
      some (stats.map (rankStats fieldExtractor field validators fun epoch =>
        p epoch || epoch = a.epoch)) := by
  have hone : (stats.map (rankStats fieldExtractor field validators p)).Pairwise fun b b' =>
      ¬ (decide (b.epoch = a.epoch) = true ∧ decide (b'.epoch = a.epoch) = true) := by
    rw [List.pairwise_map]
    refine (List.pairwise_map.mp hnodup).imp fun {b b'} hne hboth => hne ?_
    rw [epoch_rankStats, epoch_rankStats, decide_eq_true_iff, decide_eq_true_iff] at hboth
    exact hboth.1.trans hboth.2.symm
  rw [updateFirst_eq hone ⟨_, List.mem_map_of_mem ha, by simp [epoch_rankStats]⟩, List.map_map]
  refine congrArg some (List.map_congr_left fun b hb => ?_)
  rw [Function.comp_apply, epoch_rankStats]
  by_cases hepoch : b.epoch = a.epoch
  · obtain rfl := List.inj_on_of_nodup_map hnodup hb ha hepoch
    simp [rankStats, hp]
  · simp [rankStats, hepoch]

/-- **Setting a rank** changes the one entry that it is for. -/
theorem setRank_withRanks (hone : OneStatsPerEpoch validators)
    {e : String × ValidatorRecord} (he : e ∈ validators.entries) {a : ValidatorEpochStats}
    (ha : a ∈ e.2.epochStats) {p : String → Nat → Bool} (hp : p e.1 a.epoch = false) (t : T) :
    setRank field a.epoch (withRanks fieldExtractor field validators p)
        ((e.1, t), rankOf fieldExtractor validators a) =
      some (withRanks fieldExtractor field validators fun voteAccount epoch =>
        p voteAccount epoch || (epoch = a.epoch && voteAccount = e.1)) := by
  have hget : (withRanks fieldExtractor field validators p).get? e.1 =
      some { e.2 with
        epochStats := e.2.epochStats.map (rankStats fieldExtractor field validators (p e.1)) } :=
    Dict.get?_mapKeyed he
  unfold setRank
  dsimp only
  rw [hget]
  show (updateFirst _ _ _).bind _ = _
  rw [updateFirst_rankStats (hone e he) ha hp]
  refine congrArg some (Dict.ext ?_)
  show ((validators.entries.map _).map _) = validators.entries.map _
  rw [List.map_map]
  refine List.map_congr_left fun e' he' => ?_
  show (e'.1, if e'.1 = e.1 then _ else _) = _
  by_cases hkey : e'.1 = e.1
  · -- the record of the vote account
    obtain rfl := Dict.eq_of_mem he' he hkey
    rw [if_pos rfl]
    simp
  · rw [if_neg hkey]
    simp [hkey]

/-! ## The ranks of an epoch -/

/-- The vote accounts and values of an epoch. -/
def epochGroup (fieldExtractor : ValidatorEpochStats → T)
    (validators : Dict String ValidatorRecord) (epoch : Nat) : List (String × T) :=
  validators.entries.filterMap fun e =>
    (e.2.epochStats.find? fun a => a.epoch = epoch).map fun a => (e.1, fieldExtractor a)

/-- Stats of distinct epochs have at most one entry of an epoch. -/
theorem filter_epoch_eq {stats : List ValidatorEpochStats}
    (hnodup : (stats.map ValidatorEpochStats.epoch).Nodup) (epoch : Nat) :
    (stats.filter fun a => a.epoch = epoch) =
      (stats.find? fun a => a.epoch = epoch).toList := by
  rw [← List.head?_filter]
  rcases filter_key_of_nodup hnodup epoch with ⟨-, hnil⟩ | ⟨a, -, -, hone⟩
  · rw [hnil]
    rfl
  · rw [hone]
    rfl

omit [LinearOrder T] in
theorem mem_statsByEpoch (hone : OneStatsPerEpoch validators) {epoch : Nat}
    {stats : List (String × T)}
    (h : (epoch, stats) ∈ (statsByEpoch fieldExtractor validators).entries) :
    stats = epochGroup fieldExtractor validators epoch := by
  rw [Dict.mem_groups h, List.filter_flatMap, List.map_flatMap, epochGroup,
    List.filterMap_eq_flatMap_toList]
  refine List.flatMap_congr fun e he => ?_
  show (((e.2.epochStats.map _).filter _).map _) = _
  rw [List.filter_map, List.map_map]
  show (e.2.epochStats.filter fun a => a.epoch = epoch).map _ = _
  rw [filter_epoch_eq (hone e he)]
  cases e.2.epochStats.find? fun a => a.epoch = epoch <;> rfl

omit [LinearOrder T] in
/-- The vote accounts of a group are distinct. -/
theorem nodup_epochGroup (epoch : Nat) :
    ((epochGroup fieldExtractor validators epoch).map Prod.fst).Nodup := by
  have h := Dict.keys_filterMap_sublist (Prod.fst (α := String) (β := ValidatorRecord))
    (fun e => (e.2.epochStats.find? fun a => a.epoch = epoch).map fieldExtractor)
    validators.entries
  unfold epochGroup
  simp only [Option.map_map] at h
  exact validators.nodup.sublist h

omit [LinearOrder T] in
theorem mem_epochGroup (hone : OneStatsPerEpoch validators) {epoch : Nat}
    {x : String × T} : x ∈ epochGroup fieldExtractor validators epoch ↔
      ∃ e ∈ validators.entries, ∃ a ∈ e.2.epochStats, a.epoch = epoch ∧
        x = (e.1, fieldExtractor a) := by
  unfold epochGroup
  rw [List.mem_filterMap]
  refine exists_congr fun e => and_congr_right fun he => ?_
  rw [Option.map_eq_some_iff]
  refine exists_congr fun a => ?_
  rw [← Option.mem_toList, ← filter_epoch_eq (hone e he), List.mem_filter, decide_eq_true_iff,
    and_assoc, eq_comm (a := x)]

/-- **The rank** in the group is the number of validators that are not behind. -/
theorem rankIn_epochGroup (hone : OneStatsPerEpoch validators) (a : ValidatorEpochStats) :
    rankIn Prod.snd (epochGroup fieldExtractor validators a.epoch) (fieldExtractor a) =
      rankOf fieldExtractor validators a := by
  unfold rankIn epochGroup rankOf
  rw [List.countP_filterMap]
  refine List.countP_congr fun e he => ?_
  have hany : (e.2.epochStats.any fun b =>
      decide (b.epoch = a.epoch ∧ fieldExtractor a ≤ fieldExtractor b)) =
        (e.2.epochStats.filter fun b => b.epoch = a.epoch).any fun b =>
          decide (fieldExtractor a ≤ fieldExtractor b) := by
    rw [List.any_filter]
    simp
  rw [hany, filter_epoch_eq (hone e he)]
  cases e.2.epochStats.find? fun b => b.epoch = a.epoch <;> simp

/-- A group sorted by the values, with the ranks. -/
def rankedGroup (fieldExtractor : ValidatorEpochStats → T)
    (validators : Dict String ValidatorRecord) (epoch : Nat) : List ((String × T) × Nat) :=
  let stats := (epochGroup fieldExtractor validators epoch).insertionSort fun a b => a.2 ≤ b.2
  rankFrom Prod.snd stats.length 0 none 0 stats

theorem rankedGroup_eq (epoch : Nat) :
    rankedGroup fieldExtractor validators epoch =
      ((epochGroup fieldExtractor validators epoch).insertionSort fun a b => a.2 ≤ b.2).map
        fun x => (x, rankIn Prod.snd (epochGroup fieldExtractor validators epoch) x.2) := by
  rw [rankedGroup, rankFrom_eq (List.pairwise_insertionSort _ _)]
  refine List.map_congr_left ?_
  intro x _
  rw [rankIn_perm (List.perm_insertionSort _ _)]

/-- A rank of the group is the rank of an entry of its epoch. -/
theorem mem_rankedGroup (hone : OneStatsPerEpoch validators) {epoch : Nat}
    {x : (String × T) × Nat} (hx : x ∈ rankedGroup fieldExtractor validators epoch) :
    ∃ e ∈ validators.entries, ∃ a ∈ e.2.epochStats, a.epoch = epoch ∧
      x = ((e.1, fieldExtractor a), rankOf fieldExtractor validators a) := by
  rw [rankedGroup_eq] at hx
  obtain ⟨y, hy, rfl⟩ := List.mem_map.mp hx
  rw [List.mem_insertionSort] at hy
  obtain ⟨e, he, a, ha, rfl, rfl⟩ := (mem_epochGroup hone).mp hy
  exact ⟨e, he, a, ha, rfl, by rw [rankIn_epochGroup hone]⟩

/-- The vote accounts of the ranks are those of the group. -/
theorem accounts_rankedGroup (epoch : Nat) :
    ((rankedGroup fieldExtractor validators epoch).map fun x => x.1.1).Perm
      ((epochGroup fieldExtractor validators epoch).map Prod.fst) := by
  rw [rankedGroup_eq, List.map_map]
  exact (List.perm_insertionSort _ _).map Prod.fst

/-- **The ranks of an epoch** go to the entries of the epoch. -/
theorem rankEpoch_withRanks (hone : OneStatsPerEpoch validators) {epoch : Nat}
    {stats : List (String × T)}
    (hstats : (epoch, stats) ∈ (statsByEpoch fieldExtractor validators).entries)
    {p : Nat → Bool} (hp : p epoch = false) :
    rankEpoch field (withRanks fieldExtractor field validators fun _ => p) (epoch, stats) =
      some (withRanks fieldExtractor field validators fun _ epoch' =>
        p epoch' || epoch' = epoch) := by
  obtain rfl := mem_statsByEpoch hone hstats
  have hnodup : ((rankedGroup fieldExtractor validators epoch).map fun x => x.1.1).Nodup :=
    (accounts_rankedGroup epoch).nodup_iff.mpr (nodup_epochGroup epoch)
  -- after some ranks their vote accounts have one
  have hrun := foldlM_eq_some (f := setRank field epoch)
    (fun done : List ((String × T) × Nat) =>
      withRanks fieldExtractor field validators fun voteAccount epoch' =>
        p epoch' || (epoch' = epoch && voteAccount ∈ done.map fun x => x.1.1))
    [] (rankedGroup fieldExtractor validators epoch) ?step
  case step =>
    intro pre x post happend
    rw [List.nil_append] at happend
    have hx : x ∈ rankedGroup fieldExtractor validators epoch := by simp [happend]
    obtain ⟨e, he, a, ha, rfl, rfl⟩ := mem_rankedGroup hone hx
    have hfresh : e.1 ∉ pre.map fun x => x.1.1 := by
      rw [happend] at hnodup
      exact not_mem_map_of_nodup hnodup
    rw [setRank_withRanks hone he ha (by simp [hp, hfresh])]
    refine congrArg some (withRanks_congr ?_)
    intro e' _ a' _
    rw [Bool.eq_iff_iff, List.map_append]
    by_cases hepoch : a'.epoch = a.epoch <;> simp [hepoch, or_assoc]
  simp only [List.map_nil, List.not_mem_nil, decide_false, Bool.and_false, Bool.or_false,
    List.nil_append] at hrun
  refine hrun.trans (congrArg some (withRanks_congr ?_))
  intro e he a ha
  by_cases hepoch : a.epoch = epoch
  · -- the vote account is one of the group
    have hmem : e.1 ∈ (rankedGroup fieldExtractor validators epoch).map fun x => x.1.1 :=
      (accounts_rankedGroup epoch).mem_iff.mpr
        (List.mem_map_of_mem ((mem_epochGroup hone).mpr ⟨e, he, a, ha, hepoch, rfl⟩))
    simp [hepoch, hmem]
  · simp [hepoch]

/-! ## All ranks -/

omit [LinearOrder T] in
theorem mem_keys_statsByEpoch {epoch : Nat} :
    epoch ∈ (statsByEpoch fieldExtractor validators).keys ↔
      ∃ e ∈ validators.entries, ∃ a ∈ e.2.epochStats, a.epoch = epoch := by
  simp [statsByEpoch, Dict.mem_keys_groups]

theorem updateValidatorsRanks_eq (fieldExtractor : ValidatorEpochStats → T) (field : RankField)
    (hone : OneStatsPerEpoch validators) (scan : Scan) :
    updateValidatorsRanks scan fieldExtractor field validators =
      some (withRanks fieldExtractor field validators fun _ _ => true) := by
  have hnodup : ((scan.order (statsByEpoch fieldExtractor validators).entries).map
      Prod.fst).Nodup :=
    ((scan.perm _).map Prod.fst).nodup_iff.mpr (statsByEpoch fieldExtractor validators).nodup
  -- after some epochs their entries have ranks
  have hrun := foldlM_eq_some (f := rankEpoch (T := T) field)
    (fun done : List (Nat × List (String × T)) =>
      withRanks fieldExtractor field validators fun _ epoch => epoch ∈ done.map Prod.fst)
    [] (scan.order (statsByEpoch fieldExtractor validators).entries) ?step
  case step =>
    intro pre group post happend
    rw [List.nil_append] at happend
    have hgroup : group ∈ (statsByEpoch fieldExtractor validators).entries :=
      scan.mem_order.mp (by simp [happend])
    have hfresh : group.1 ∉ pre.map Prod.fst := by
      rw [happend] at hnodup
      exact not_mem_map_of_nodup hnodup
    rw [rankEpoch_withRanks hone hgroup (by simpa using hfresh)]
    refine congrArg some (withRanks_congr ?_)
    intro e _ a _
    rw [Bool.eq_iff_iff, List.map_append]
    simp
  simp only [List.map_nil, List.not_mem_nil, decide_false, withRanks_none,
    List.nil_append] at hrun
  refine hrun.trans (congrArg some (withRanks_congr ?_))
  intro e he a ha
  have hkey : a.epoch ∈ (statsByEpoch fieldExtractor validators).keys :=
    mem_keys_statsByEpoch.mpr ⟨e, he, a, ha, rfl⟩
  have hmem := ((scan.perm (statsByEpoch fieldExtractor validators).entries).map
    Prod.fst).mem_iff.mpr hkey
  simpa using hmem

/-- The number of validators with stats of the epoch. -/
def validatorsInEpoch (validators : Dict String ValidatorRecord) (epoch : Nat) : Nat :=
  validators.entries.countP fun e => e.2.epochStats.any fun a => a.epoch = epoch

/-- An entry counts for its own rank. -/
theorem one_le_rankOf {e : String × ValidatorRecord} (he : e ∈ validators.entries)
    {a : ValidatorEpochStats} (ha : a ∈ e.2.epochStats) :
    1 ≤ rankOf fieldExtractor validators a :=
  List.countP_pos_iff.mpr ⟨e, he, List.any_eq_true.mpr ⟨a, ha, by simp⟩⟩

theorem rankOf_le (a : ValidatorEpochStats) :
    rankOf fieldExtractor validators a ≤ validatorsInEpoch validators a.epoch := by
  refine List.countP_mono_left ?_
  intro e _ h
  obtain ⟨b, hb, hboth⟩ := List.any_eq_true.mp h
  exact List.any_eq_true.mpr ⟨b, hb, decide_eq_true (of_decide_eq_true hboth).1⟩

theorem rankOf_congr {a b : ValidatorEpochStats} (hepoch : a.epoch = b.epoch)
    (hvalue : fieldExtractor a = fieldExtractor b) :
    rankOf fieldExtractor validators a = rankOf fieldExtractor validators b := by
  simp [rankOf, hepoch, hvalue]

/-- A greater value of the epoch has a smaller rank. -/
theorem rankOf_lt (hone : OneStatsPerEpoch validators) {e : String × ValidatorRecord}
    (he : e ∈ validators.entries) {a b : ValidatorEpochStats} (ha : a ∈ e.2.epochStats)
    (hepoch : b.epoch = a.epoch) (hvalue : fieldExtractor a < fieldExtractor b) :
    rankOf fieldExtractor validators b < rankOf fieldExtractor validators a := by
  rw [← rankIn_epochGroup hone b, ← rankIn_epochGroup hone a, hepoch]
  have hmem : (e.1, fieldExtractor a) ∈ epochGroup fieldExtractor validators a.epoch :=
    (mem_epochGroup hone).mpr ⟨e, he, a, ha, rfl, rfl⟩
  exact rankIn_lt hmem hvalue

/-- **The ranks** are the numbers of validators of the epoch that are not behind, in
whatever order the hash maps are read; nothing else changes. -/
theorem updateValidatorsRanks_spec (fieldExtractor : ValidatorEpochStats → T)
    (field : RankField) (scan : Scan) (validators : Dict String ValidatorRecord)
    (hone : OneStatsPerEpoch validators) :
    (∃ ranked, updateValidatorsRanks scan fieldExtractor field validators = some ranked ∧
      ranked.entries = validators.entries.map fun e =>
        (e.1, { e.2 with
          epochStats := e.2.epochStats.map fun a =>
            field.update a (rankOf fieldExtractor validators a) })) ∧
      ∀ e ∈ validators.entries, ∀ a ∈ e.2.epochStats,
        (1 ≤ rankOf fieldExtractor validators a ∧
          rankOf fieldExtractor validators a ≤ validatorsInEpoch validators a.epoch) ∧
        ∀ e' ∈ validators.entries, ∀ b ∈ e'.2.epochStats, b.epoch = a.epoch →
          (fieldExtractor a = fieldExtractor b →
            rankOf fieldExtractor validators a = rankOf fieldExtractor validators b) ∧
          (fieldExtractor a < fieldExtractor b →
            rankOf fieldExtractor validators b < rankOf fieldExtractor validators a) := by
  constructor
  · exact ⟨_, updateValidatorsRanks_eq fieldExtractor field hone scan, rfl⟩
  · intro e he a ha
    refine ⟨⟨one_le_rankOf he ha, rankOf_le a⟩, ?_⟩
    intro e' he' b hb hepoch
    exact ⟨rankOf_congr hepoch.symm, rankOf_lt hone he ha hepoch⟩

end Ranks

/-- Three validators, two with the same stake. -/
def rankedValidators : Dict String ValidatorRecord where
  entries := [("a", 30), ("b", 10), ("c", 30)].map fun (voteAccount, stake) =>
    (voteAccount, ValidatorRecord.addStats 7
      { epoch := 7, epochStartAt := none, activatedStake := stake, marinadeStake := 0,
        credits := 0, uptimePct := none, apy := none, score := none }
      { identity := voteAccount, voteAccount := voteAccount, infoName := none,
        dcCountry := none, dcCity := none, dcFullCity := none, commissionMaxObserved := none,
        activatedStake := stake, marinadeStake := 0, foundationStake := 0,
        superminority := false, credits := 0, score := none, epochStats := [],
        hasLastEpochStats := false, avgUptimePct := none, avgApy := none, incidents := [] })
  nodup := by decide

theorem updateValidatorsRanks_spec_three :
    OneStatsPerEpoch rankedValidators ∧
      ∃ ranked, updateValidatorsRanks Scan.sequential ValidatorEpochStats.activatedStake
          .activatedStake rankedValidators = some ranked ∧
        (ranked.entries.map fun e => e.2.epochStats.map fun a => a.rankActivatedStake) =
          [[some 2], [some 3], [some 2]] := by
  have hone : OneStatsPerEpoch rankedValidators := by unfold OneStatsPerEpoch; decide
  obtain ⟨⟨ranked, hranked, hentries⟩, -⟩ := updateValidatorsRanks_spec
    ValidatorEpochStats.activatedStake .activatedStake Scan.sequential rankedValidators hone
  refine ⟨hone, ranked, hranked, ?_⟩
  rw [hentries]
  decide

/-! ## The records of a load -/

/-- The calls of `update_validators_ranks` in `load_validators`. -/
def updateRanks (scan : Scan) (validators : Dict String ValidatorRecord) :
    Option (Dict String ValidatorRecord) := do
  let validators ← updateValidatorsRanks scan ValidatorEpochStats.activatedStake
    .activatedStake validators
  let validators ← updateValidatorsRanks scan (fun a => toFixedForSort (a.score.getD 0))
    .score validators
  updateValidatorsRanks scan (fun a => toFixedForSort (a.apy.getD 0)) .apy validators

section Load

variable {inputs : LoadInputs} {db : Database} {lastEpoch : Nat}

/-- A record has the epochs of the rows of its vote account. -/
theorem epochs_foldl_addRow (rows : List ValidatorsRow) (voteAccount : String) :
    (((rows.foldl (addRow inputs db lastEpoch) Dict.empty).get? voteAccount).elim []
        fun record => record.epochStats.map ValidatorEpochStats.epoch) =
      (rows.filter fun row => row.voteAccount = voteAccount).map ValidatorsRow.epoch := by
  induction rows using List.reverseRecOn with
  | nil => rfl
  | append_singleton rows row ih =>
    rw [List.foldl_append, List.foldl_cons, List.foldl_nil, addRow, Dict.get?_insert,
      List.filter_append, List.map_append]
    by_cases hkey : voteAccount = row.voteAccount
    · subst hkey
      rw [← ih]
      cases (rows.foldl (addRow inputs db lastEpoch) Dict.empty).get? row.voteAccount <;>
        simp [ValidatorRecord.addStats, epochStats, newRecord]
    · simp [hkey, Ne.symm hkey, ih]

theorem primaryKey_validatorsRows (hkey : PrimaryKey db.validators) (scan : Scan)
    (displayEpochs : Nat) : PrimaryKey (validatorsRows scan displayEpochs db) := by
  unfold validatorsRows PrimaryKey
  split
  · rw [((List.perm_insertionSort _ _).map _).nodup_iff]
    refine List.Nodup.sublist (List.filter_sublist.map _) ?_
    exact ((scan.perm db.validators).map _).nodup_iff.mpr hkey
  · exact List.nodup_nil

/-- **The records of a load** have one entry for each epoch. -/
theorem oneStatsPerEpoch_aggregateRecords (hkey : PrimaryKey db.validators) :
    OneStatsPerEpoch (aggregateRecords inputs db lastEpoch) := by
  rintro ⟨voteAccount, record⟩ he
  have hget : (aggregateRecords inputs db lastEpoch).get? voteAccount = some record :=
    Dict.get?_of_mem he
  have hepochs : record.epochStats.map ValidatorEpochStats.epoch =
      ((validatorsRows inputs.scan defaultCacheEpochs db).filter fun row =>
        row.voteAccount = voteAccount).map ValidatorsRow.epoch := by
    rw [← epochs_foldl_addRow, ← aggregateRecords, hget]
    rfl
  show (record.epochStats.map ValidatorEpochStats.epoch).Nodup
  rw [hepochs]
  have hrows := primaryKey_validatorsRows hkey inputs.scan defaultCacheEpochs
  refine List.pairwise_map.mpr (((List.pairwise_map.mp hrows).filter _).imp_of_mem ?_)
  intro row row' hrow hrow' hne hepoch
  have haccount : row.voteAccount = row'.voteAccount :=
    (of_decide_eq_true (List.mem_filter.mp hrow).2).trans
      (of_decide_eq_true (List.mem_filter.mp hrow').2).symm
  exact hne (Prod.ext haccount hepoch)

/-- What keeps the epochs of every record. -/
theorem OneStatsPerEpoch.mapVal {validators : Dict String ValidatorRecord}
    (h : OneStatsPerEpoch validators) {update : ValidatorRecord → ValidatorRecord}
    (hepochs : ∀ record, (update record).epochStats.map ValidatorEpochStats.epoch =
      record.epochStats.map ValidatorEpochStats.epoch) :
    OneStatsPerEpoch (validators.mapVal update) := by
  intro e he
  obtain ⟨e, hold, rfl⟩ := List.mem_map.mp he
  show ((update e.2).epochStats.map ValidatorEpochStats.epoch).Nodup
  rw [hepochs]
  exact h e hold

theorem OneStatsPerEpoch.updateRecords {validators : Dict String ValidatorRecord}
    (h : OneStatsPerEpoch validators) (scoresPerEpoch : Dict Nat (Dict String Rat)) :
    OneStatsPerEpoch (updateRecords scoresPerEpoch db validators) := by
  have hscores : OneStatsPerEpoch (updateValidatorsWithScores scoresPerEpoch validators) := by
    unfold updateValidatorsWithScores
    split
    · exact h
    · refine h.mapVal ?_
      intro record
      rw [List.map_map]
      refine List.map_congr_left ?_
      intro a _
      rw [Function.comp_apply]
      split <;> rfl
  exact hscores.mapVal fun _ => rfl

theorem OneStatsPerEpoch.updateValidatorsRanks {T : Type} [LinearOrder T]
    {fieldExtractor : ValidatorEpochStats → T} {field : RankField}
    {validators ranked : Dict String ValidatorRecord} (h : OneStatsPerEpoch validators)
    {scan : Scan}
    (hranked : updateValidatorsRanks scan fieldExtractor field validators = some ranked) :
    OneStatsPerEpoch ranked := by
  rw [updateValidatorsRanks_eq fieldExtractor field h] at hranked
  obtain rfl := Option.some.inj hranked
  intro e he
  obtain ⟨e, hold, rfl⟩ := List.mem_map.mp he
  show ((e.2.epochStats.map _).map ValidatorEpochStats.epoch).Nodup
  have hepochs : (fun a => (rankStats fieldExtractor field validators (fun _ => true) a).epoch) =
      ValidatorEpochStats.epoch := funext fun a => epoch_rankStats _ a
  rw [List.map_map, Function.comp_def, hepochs]
  exact h e hold

/-- **The ranks of a load**: the lookups of `update_validators_ranks` all succeed. -/
theorem isSome_updateRanks (hkey : PrimaryKey db.validators)
    (scoresPerEpoch : Dict Nat (Dict String Rat)) (scan : Scan) :
    (updateRanks scan (updateRecords scoresPerEpoch db
      (aggregateRecords inputs db lastEpoch))).isSome := by
  have hrecords : OneStatsPerEpoch (updateRecords scoresPerEpoch db
      (aggregateRecords inputs db lastEpoch)) :=
    (oneStatsPerEpoch_aggregateRecords hkey).updateRecords scoresPerEpoch
  have hstake := updateValidatorsRanks_eq ValidatorEpochStats.activatedStake .activatedStake
    hrecords scan
  have hscore := updateValidatorsRanks_eq (fun a => toFixedForSort (a.score.getD 0)) .score
    (hrecords.updateValidatorsRanks hstake) scan
  have hapy := updateValidatorsRanks_eq (fun a => toFixedForSort (a.apy.getD 0)) .apy
    ((hrecords.updateValidatorsRanks hstake).updateValidatorsRanks hscore) scan
  simp only [updateRanks, hstake, hscore, hapy, Option.bind_eq_bind, Option.bind_some,
    Option.isSome_some]

end Load

end DelegationStrategy.Store
