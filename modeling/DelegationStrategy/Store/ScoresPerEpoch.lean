import DelegationStrategy.Lib.Trace
import DelegationStrategy.Store.ValidatorRecords

/-!
# The scores of the epochs

`load_scores_in_epochs` (`store/src/utils.rs`) requests the scores of each epoch of a range.
Up to ten requests run at a time, each sends what it got into a channel, and the receiver
collects the answers; a failed request sends nothing. `update_validators_with_scores` takes
the greatest epoch that was answered for the latest one with a score, also if the answer was
an empty list.

- In every run the result has the scores of exactly the epochs that were answered
  (`scraper_done`), and a run that has not ended can go on (`scraper_progress`).
- The score of a validator is its score in the greatest epoch with scores exactly if no
  greater epoch was answered, or no validator is scored in it (`scoresCurrent_iff`).
-/

namespace DelegationStrategy.Store

open DelegationStrategy.Lib

/-! ## `load_scores_in_epochs` -/

/-- `ValidatorScoreV2Record`, as far as it is read. -/
structure ValidatorScoreV2Record where
  voteAccount : String
  score : Rat
  deriving DecidableEq, Repr

/-- How the request of an epoch ends. -/
inductive ScoresResponse where
  | requestError
  | failureStatus (status : Nat)
  | malformedBody
  | success (scores : List ValidatorScoreV2Record)
  deriving DecidableEq, Repr

/-- `epoch_scores`: of scores of the same validator the last one counts. -/
def epochScores (scores : List ValidatorScoreV2Record) : Dict String Rat :=
  Dict.ofList (scores.map fun score => (score.voteAccount, score.score))

/-- What the task of an epoch sends. -/
def ScoresResponse.message (epoch : Nat) : ScoresResponse → Option (Nat × Dict String Rat)
  | success scores => some (epoch, epochScores scores)
  | requestError | failureStatus _ | malformedBody => none

/-- `SCORING_SCRAPER_WORKERS`. -/
def scoringScraperWorkers : Nat := 10

/-- The state of `load_scores_in_epochs`: the epochs not requested yet, the free permits, the
epochs whose requests run, the channel and what the receiver has. -/
structure Scraper where
  epochs : List Nat
  permits : Nat
  running : List Nat
  channel : List (Nat × Dict String Rat)
  result : Dict Nat (Dict String Rat)

/-- The epochs of `first..=last`. -/
def epochsInRange (first last : Nat) : List Nat := List.range' first (last + 1 - first)

theorem mem_epochsInRange {first last epoch : Nat} :
    epoch ∈ epochsInRange first last ↔ first ≤ epoch ∧ epoch ≤ last := by
  rw [epochsInRange, List.mem_range'_1]
  omega

def Scraper.init (first last : Nat) : Scraper where
  epochs := epochsInRange first last
  permits := scoringScraperWorkers
  running := []
  channel := []
  result := Dict.empty

inductive ScraperAction where
  /-- The loop acquires a permit and starts the request of the next epoch. -/
  | spawn
  /-- The request of an epoch ends: its task sends what it got and drops the permit. -/
  | complete (epoch : Nat)
  /-- The receiver takes the next message. -/
  | receive
  deriving DecidableEq, Repr

def scraperStep (response : Nat → ScoresResponse) (s : Scraper) : ScraperAction → Option Scraper
  | .spawn =>
    match s.epochs with
    | [] => none
    | epoch :: epochs =>
      if s.permits = 0 then none
      else some { s with
        epochs := epochs
        permits := s.permits - 1
        running := s.running ++ [epoch] }
  | .complete epoch =>
    if epoch ∈ s.running then
      some { s with
        permits := s.permits + 1
        running := s.running.erase epoch
        channel := s.channel ++ ((response epoch).message epoch).toList }
    else none
  | .receive =>
    match s.channel with
    | [] => none
    | (epoch, scores) :: channel =>
      some { s with
        channel := channel
        result := s.result.insert epoch scores }

/-- All requests have ended and the channel is empty: the receiver returns. -/
def Scraper.Done (s : Scraper) : Prop := s.epochs = [] ∧ s.running = [] ∧ s.channel = []

/-! ### Runs -/

section Scraper

variable {response : Nat → ScoresResponse} {s s' : Scraper} {a : ScraperAction}

/-- **What a step does.** -/
theorem scraperStep_cases (h : scraperStep response s a = some s') :
    (∃ epoch epochs, s.epochs = epoch :: epochs ∧ 0 < s.permits ∧
      s' = { s with epochs := epochs, permits := s.permits - 1, running := s.running ++ [epoch] }) ∨
    (∃ epoch ∈ s.running,
      s' = { s with
        permits := s.permits + 1
        running := s.running.erase epoch
        channel := s.channel ++ ((response epoch).message epoch).toList }) ∨
    ∃ epoch scores channel, s.channel = (epoch, scores) :: channel ∧
      s' = { s with channel := channel, result := s.result.insert epoch scores } := by
  cases a with
  | spawn =>
    cases hepochs : s.epochs with
    | nil => simp [scraperStep, hepochs] at h
    | cons epoch epochs =>
      simp only [scraperStep, hepochs, Option.ite_none_left_eq_some] at h
      exact Or.inl ⟨epoch, epochs, rfl, Nat.pos_of_ne_zero h.1, (Option.some.inj h.2).symm⟩
  | complete epoch =>
    simp only [scraperStep, Option.ite_none_right_eq_some] at h
    exact Or.inr (Or.inl ⟨epoch, h.1, (Option.some.inj h.2).symm⟩)
  | receive =>
    cases hchannel : s.channel with
    | nil => simp [scraperStep, hchannel] at h
    | cons message channel =>
      simp only [scraperStep, hchannel] at h
      exact Or.inr (Or.inr ⟨message.1, message.2, channel, rfl, (Option.some.inj h).symm⟩)

/-- What is in the channel or has been received was answered, and what was answered is on its
way; every permit is free or taken by a request. -/
structure ScraperInv (response : Nat → ScoresResponse) (first last : Nat) (s : Scraper) :
    Prop where
  outstanding : ∀ epoch, epoch ∈ s.epochs ∨ epoch ∈ s.running → epoch ∈ epochsInRange first last
  channel : ∀ message ∈ s.channel, message.1 ∈ epochsInRange first last ∧
    (response message.1).message message.1 = some message
  result : ∀ epoch scores, s.result.get? epoch = some scores →
    epoch ∈ epochsInRange first last ∧ (response epoch).message epoch = some (epoch, scores)
  answered : ∀ epoch ∈ epochsInRange first last, epoch ∈ s.epochs ∨ epoch ∈ s.running ∨
    ∀ message, (response epoch).message epoch = some message →
      message ∈ s.channel ∨ s.result.get? epoch = some message.2
  permits : s.permits + s.running.length = scoringScraperWorkers

theorem message_fst {response : ScoresResponse} {epoch : Nat} {message : Nat × Dict String Rat}
    (h : response.message epoch = some message) : message.1 = epoch := by
  cases response with
  | success scores =>
    obtain rfl := Option.some.inj h
    rfl
  | requestError => cases h
  | failureStatus status => cases h
  | malformedBody => cases h

theorem scraperInv_init (response : Nat → ScoresResponse) (first last : Nat) :
    ScraperInv response first last (.init first last) where
  outstanding _ h := h.resolve_right nofun
  channel _ h := nomatch h
  result _ _ h := nomatch h
  answered _ h := Or.inl h
  permits := rfl

theorem scraperInv_step {first last : Nat} (hinv : ScraperInv response first last s)
    (h : scraperStep response s a = some s') : ScraperInv response first last s' := by
  rcases scraperStep_cases h with ⟨epoch, epochs, hepochs, hpermits, rfl⟩ |
    ⟨epoch, hrunning, rfl⟩ | ⟨epoch, scores, channel, hchannel, rfl⟩
  · -- the next epoch is requested
    have hout := hinv.outstanding
    have hans := hinv.answered
    rw [hepochs] at hout hans
    refine ⟨fun e he => hout e ?_, hinv.channel, hinv.result, fun e he => ?_, ?_⟩
    · simp only [List.mem_append, List.mem_singleton] at he
      rw [List.mem_cons]
      tauto
    · have hcases := hans e he
      simp only [List.mem_cons, List.mem_append, List.not_mem_nil, or_false] at hcases ⊢
      tauto
    · have hsum := hinv.permits
      simp only [List.length_append, List.length_singleton]
      omega
  · -- the request of an epoch ends
    have hrange := hinv.outstanding epoch (Or.inr hrunning)
    refine ⟨fun e he => hinv.outstanding e (he.imp_right List.mem_of_mem_erase),
      fun message hmessage => ?_, hinv.result, fun e he => ?_, ?_⟩
    · rcases List.mem_append.mp hmessage with hold | hnew
      · exact hinv.channel message hold
      · have hsent := Option.mem_toList.mp hnew
        obtain rfl := message_fst hsent
        exact ⟨hrange, hsent⟩
    · by_cases heq : e = epoch
      · subst heq
        exact Or.inr (Or.inr fun message hmessage =>
          Or.inl (List.mem_append_right _ (Option.mem_toList.mpr hmessage)))
      · rcases hinv.answered e he with hold | hold | hold
        · exact Or.inl hold
        · exact Or.inr (Or.inl ((List.mem_erase_of_ne heq).mpr hold))
        · exact Or.inr (Or.inr fun message hmessage =>
            (hold message hmessage).imp_left (List.mem_append_left _))
    · have hsum := hinv.permits
      have hpos := List.length_pos_of_mem hrunning
      simp only [List.length_erase_of_mem hrunning]
      omega
  · -- the receiver takes a message
    obtain ⟨hrange, hsent⟩ := hinv.channel (epoch, scores) (by simp [hchannel])
    refine ⟨hinv.outstanding, fun message hmessage => ?_, fun e sc hget => ?_,
      fun e he => ?_, hinv.permits⟩
    · exact hinv.channel message (hchannel ▸ List.mem_cons_of_mem _ hmessage)
    · rw [Dict.get?_insert] at hget
      by_cases heq : e = epoch
      · subst heq
        rw [if_pos rfl] at hget
        obtain rfl := Option.some.inj hget
        exact ⟨hrange, hsent⟩
      · rw [if_neg heq] at hget
        exact hinv.result e sc hget
    · rcases hinv.answered e he with hold | hold | hold
      · exact Or.inl hold
      · exact Or.inr (Or.inl hold)
      · refine Or.inr (Or.inr fun message hmessage => ?_)
        rw [Dict.get?_insert]
        by_cases heq : e = epoch
        · subst heq
          rw [hsent] at hmessage
          obtain rfl := Option.some.inj hmessage
          exact Or.inr (if_pos rfl)
        · rw [if_neg heq]
          refine (hold message hmessage).imp_left fun hmem => ?_
          rw [hchannel] at hmem
          refine (List.mem_cons.mp hmem).resolve_left ?_
          rintro rfl
          exact heq (message_fst hmessage).symm

theorem scraperInv_run {first last : Nat} {as : List ScraperAction}
    (h : exec (scraperStep response) (.init first last) as = some s) :
    ScraperInv response first last s :=
  (statesAll_of_invariant (fun _ _ _ hinv hstep => scraperInv_step hinv hstep)
    (scraperInv_init response first last) as).last h

/-- **What the receiver returns**: in whatever order the requests end and the messages are
received, the scores of exactly the epochs that were answered. -/
theorem scraper_done {first last : Nat} {as : List ScraperAction}
    (h : exec (scraperStep response) (.init first last) as = some s) (hdone : s.Done)
    (epoch : Nat) :
    s.result.get? epoch = if epoch ∈ epochsInRange first last then
      ((response epoch).message epoch).map Prod.snd else none := by
  have hinv := scraperInv_run h
  obtain ⟨hepochs, hrunning, hchannel⟩ := hdone
  cases hget : s.result.get? epoch with
  | some scores =>
    obtain ⟨hrange, hsent⟩ := hinv.result epoch scores hget
    rw [if_pos hrange, hsent]
    rfl
  | none =>
    by_cases hrange : epoch ∈ epochsInRange first last
    · rw [if_pos hrange]
      cases hsent : (response epoch).message epoch with
      | none => rfl
      | some message =>
        have hcases := hinv.answered epoch hrange
        simp [hepochs, hrunning, hchannel, hget, hsent] at hcases
    · rw [if_neg hrange]

/-- A run that has not ended can go on. -/
theorem scraper_progress {first last : Nat} {as : List ScraperAction}
    (h : exec (scraperStep response) (.init first last) as = some s) (hdone : ¬ s.Done) :
    ∃ a, (scraperStep response s a).isSome := by
  have hsum := (scraperInv_run h).permits
  cases hchannel : s.channel with
  | cons message channel => exact ⟨.receive, by simp [scraperStep, hchannel]⟩
  | nil =>
    cases hrunning : s.running with
    | cons epoch running => exact ⟨.complete epoch, by simp [scraperStep, hrunning]⟩
    | nil =>
      cases hepochs : s.epochs with
      | nil => exact absurd ⟨hepochs, hrunning, hchannel⟩ hdone
      | cons epoch epochs =>
        -- nothing runs, so all permits are free
        have hpermits : s.permits ≠ 0 := by
          rw [hrunning] at hsum
          simp [scoringScraperWorkers] at hsum
          omega
        exact ⟨.spawn, by simp [scraperStep, hepochs, hpermits]⟩

/-- What is left to do. -/
def Scraper.remaining (s : Scraper) : Nat :=
  3 * s.epochs.length + 2 * s.running.length + s.channel.length

theorem scraperStep_remaining (h : scraperStep response s a = some s') :
    s'.remaining < s.remaining := by
  rcases scraperStep_cases h with ⟨epoch, epochs, hepochs, -, rfl⟩ | ⟨epoch, hrunning, rfl⟩ |
    ⟨epoch, scores, channel, hchannel, rfl⟩
  · simp only [Scraper.remaining, hepochs, List.length_cons, List.length_append, List.length_nil]
    omega
  · have hpos := List.length_pos_of_mem hrunning
    have hsent : ((response epoch).message epoch).toList.length ≤ 1 := Option.length_toList_le
    simp only [Scraper.remaining, List.length_append, List.length_erase_of_mem hrunning]
    omega
  · simp only [Scraper.remaining, hchannel, List.length_cons]
    omega

end Scraper

/-! ## The latest epoch -/

/-- The score that an answer has for a validator, the last one of several. -/
def returnedScore (scores : List ValidatorScoreV2Record) (voteAccount : String) : Option Rat :=
  ((scores.filter fun score => score.voteAccount = voteAccount).getLast?).map
    ValidatorScoreV2Record.score

theorem get?_epochScores (scores : List ValidatorScoreV2Record) (voteAccount : String) :
    (epochScores scores).get? voteAccount = returnedScore scores voteAccount := by
  unfold epochScores returnedScore
  induction scores using List.reverseRecOn with
  | nil => rfl
  | append_singleton scores score ih =>
    rw [List.map_append, List.map_singleton, Dict.ofList_concat, Dict.get?_insert, ih,
      List.filter_append]
    by_cases heq : voteAccount = score.voteAccount
    · rw [if_pos heq, List.filter_cons_of_pos (by simpa using heq.symm), List.filter_nil,
        List.getLast?_concat]
      rfl
    · rw [if_neg heq, List.filter_cons_of_neg (by simpa using Ne.symm heq), List.filter_nil,
        List.append_nil]

theorem returnedScore_eq_none_iff {scores : List ValidatorScoreV2Record} {voteAccount : String} :
    returnedScore scores voteAccount = none ↔
      voteAccount ∉ scores.map ValidatorScoreV2Record.voteAccount := by
  rw [returnedScore, Option.map_eq_none_iff, List.getLast?_eq_none_iff, List.filter_eq_nil_iff]
  simp

/-- The greatest epoch of the range that was answered with scores. -/
structure LatestWithScores (response : Nat → ScoresResponse) (first last epoch : Nat)
    (scores : List ValidatorScoreV2Record) : Prop where
  range : epoch ∈ epochsInRange first last
  answered : response epoch = .success scores
  nonempty : scores ≠ []
  latest : ∀ later ∈ epochsInRange first last, epoch < later →
    ∀ scores', response later = .success scores' → scores' = []

/-- What the scores of the validators should be: in each epoch that was answered the score
that was returned, and in the record that of the latest epoch with scores. -/
structure ScoresCurrent (response : Nat → ScoresResponse) (first last : Nat)
    (validators : Dict String ValidatorRecord) : Prop where
  stats : ∀ entry ∈ validators.entries, ∀ stats ∈ entry.2.epochStats, ∀ scores,
    stats.epoch ∈ epochsInRange first last → response stats.epoch = .success scores →
      stats.score = returnedScore scores entry.2.voteAccount
  score : ∀ epoch scores, LatestWithScores response first last epoch scores →
    ∀ entry ∈ validators.entries, entry.2.score = returnedScore scores entry.2.voteAccount

/-- No epoch after the latest one with scores is answered, with an empty list, unless none of
the validators has a score in the latest one. -/
def NoEmptyAnswerLater (response : Nat → ScoresResponse) (first last : Nat)
    (validators : Dict String ValidatorRecord) : Prop :=
  ∀ epoch scores, LatestWithScores response first last epoch scores →
    (∀ later ∈ epochsInRange first last, epoch < later → response later ≠ .success []) ∨
      ∀ entry ∈ validators.entries,
        entry.2.voteAccount ∉ scores.map ValidatorScoreV2Record.voteAccount

section Latest

variable {response : Nat → ScoresResponse} {first last : Nat} {as : List ScraperAction}
  {s : Scraper} {validators : Dict String ValidatorRecord}

/-- The epochs in the result are those that were answered. -/
theorem mem_keys_result (h : exec (scraperStep response) (.init first last) as = some s)
    (hdone : s.Done) {epoch : Nat} :
    epoch ∈ s.result.keys ↔ epoch ∈ epochsInRange first last ∧
      ∃ scores, response epoch = .success scores := by
  have hget := scraper_done h hdone epoch
  rw [← not_iff_not, ← Dict.get?_eq_none_iff, hget]
  by_cases hrange : epoch ∈ epochsInRange first last
  · rw [if_pos hrange]
    cases response epoch <;> simp [ScoresResponse.message, hrange]
  · simp [hrange]

theorem get?_result (h : exec (scraperStep response) (.init first last) as = some s)
    (hdone : s.Done) {epoch : Nat} {scores : List ValidatorScoreV2Record}
    (hrange : epoch ∈ epochsInRange first last) (hresponse : response epoch = .success scores) :
    s.result.get? epoch = some (epochScores scores) := by
  rw [scraper_done h hdone epoch, if_pos hrange, hresponse]
  rfl

/-- No validator is lost. -/
theorem exists_updated (scoresPerEpoch : Dict Nat (Dict String Rat))
    {old : String × ValidatorRecord} (hold : old ∈ validators.entries) :
    ∃ entry ∈ (updateValidatorsWithScores scoresPerEpoch validators).entries,
      entry.2.voteAccount = old.2.voteAccount := by
  unfold updateValidatorsWithScores
  split
  · exact ⟨old, hold, rfl⟩
  · exact ⟨_, List.mem_map_of_mem hold, rfl⟩

/-- The records after the update, for the greatest epoch that was answered. -/
theorem updateValidatorsWithScores_eq
    (h : exec (scraperStep response) (.init first last) as = some s) (hdone : s.Done)
    {latest : Nat} {latestScores : List ValidatorScoreV2Record}
    (hmax : s.result.keys.max? = some latest)
    (hlatest : response latest = .success latestScores)
    {entry : String × ValidatorRecord}
    (hentry : entry ∈ (updateValidatorsWithScores s.result validators).entries) :
    ∃ old ∈ validators.entries, entry.2.voteAccount = old.2.voteAccount ∧
      entry.2.score = returnedScore latestScores entry.2.voteAccount ∧
      ∀ stats ∈ entry.2.epochStats, ∀ scores, stats.epoch ∈ epochsInRange first last →
        response stats.epoch = .success scores →
          stats.score = returnedScore scores entry.2.voteAccount := by
  have hrange := ((mem_keys_result h hdone).mp (List.max?_mem hmax)).1
  unfold updateValidatorsWithScores at hentry
  rw [hmax] at hentry
  obtain ⟨old, hold, rfl⟩ := List.mem_map.mp hentry
  refine ⟨old, hold, rfl, ?_, fun stats hstats scores hepoch hresponse => ?_⟩
  · show (s.result.get? latest).bind _ = _
    rw [get?_result h hdone hrange hlatest]
    exact get?_epochScores _ _
  · obtain ⟨oldStats, -, heq⟩ := List.mem_map.mp hstats
    cases hget : s.result.get? oldStats.epoch with
    | none =>
      simp only [hget] at heq
      subst heq
      rw [get?_result h hdone hepoch hresponse] at hget
      cases hget
    | some answered =>
      simp only [hget] at heq
      subst heq
      obtain rfl := Option.some.inj (hget.symm.trans (get?_result h hdone hepoch hresponse))
      exact get?_epochScores _ _

/-- **When the score is the current one**: over all responses and runs, exactly if no epoch
after the latest one with scores was answered with an empty list, or it does not matter. -/
theorem scoresCurrent_iff (response : Nat → ScoresResponse) (first last : Nat)
    (as : List ScraperAction) (s : Scraper)
    (h : exec (scraperStep response) (.init first last) as = some s) (hdone : s.Done)
    (validators : Dict String ValidatorRecord) :
    ScoresCurrent response first last (updateValidatorsWithScores s.result validators) ↔
      NoEmptyAnswerLater response first last validators := by
  cases hmax : s.result.keys.max? with
  | none =>
    -- no epoch was answered
    have hnone : ∀ epoch ∈ epochsInRange first last, ∀ scores,
        response epoch ≠ .success scores := by
      intro epoch hrange scores hresponse
      have hkey := (mem_keys_result h hdone).mpr ⟨hrange, scores, hresponse⟩
      rw [List.max?_eq_none_iff.mp hmax] at hkey
      cases hkey
    constructor
    · intro _ epoch scores hlatest
      exact absurd hlatest.answered (hnone epoch hlatest.range scores)
    · intro _
      refine ⟨fun entry _ stats _ scores hrange hresponse => ?_, fun epoch scores hlatest => ?_⟩
      · exact absurd hresponse (hnone _ hrange scores)
      · exact absurd hlatest.answered (hnone epoch hlatest.range scores)
  | some latest =>
    obtain ⟨hrange, latestScores, hresponse⟩ := (mem_keys_result h hdone).mp (List.max?_mem hmax)
    have hle : ∀ epoch ∈ epochsInRange first last, ∀ scores, response epoch = .success scores →
        epoch ≤ latest := by
      intro epoch hepoch scores hscores
      exact (List.max?_eq_some_iff.mp hmax).2 epoch
        ((mem_keys_result h hdone).mpr ⟨hepoch, scores, hscores⟩)
    -- the latest epoch that was answered has the scores, or it was answered with none
    have hcases : ∀ epoch scores, LatestWithScores response first last epoch scores →
        latest = epoch ∨ (epoch < latest ∧ latestScores = []) := by
      intro epoch scores hlatest
      rcases (hle epoch hlatest.range scores hlatest.answered).eq_or_lt with heq | hlt
      · exact Or.inl heq.symm
      · exact Or.inr ⟨hlt, hlatest.latest latest hrange hlt latestScores hresponse⟩
    constructor
    · intro hcurrent epoch scores hlatest
      rcases hcases epoch scores hlatest with rfl | ⟨hlt, rfl⟩
      · left
        intro later hlater hlt hempty
        exact absurd (hle later hlater [] hempty) (not_le.mpr hlt)
      · right
        intro old hold
        obtain ⟨entry, hentry, hvote⟩ := exists_updated s.result hold
        obtain ⟨-, -, -, hscore, -⟩ := updateValidatorsWithScores_eq h hdone hmax hresponse hentry
        rw [← hvote, ← returnedScore_eq_none_iff,
          ← hcurrent.score epoch scores hlatest entry hentry, hscore]
        rfl
    · intro hcond
      refine ⟨fun entry hentry => ?_, fun epoch scores hlatest entry hentry => ?_⟩
      · obtain ⟨_, -, -, -, hstats⟩ := updateValidatorsWithScores_eq h hdone hmax hresponse hentry
        exact hstats
      · obtain ⟨old, hold, hvote, hscore, -⟩ :=
          updateValidatorsWithScores_eq h hdone hmax hresponse hentry
        rw [hscore]
        rcases hcases epoch scores hlatest with rfl | ⟨hlt, rfl⟩
        · rw [ScoresResponse.success.inj (hresponse.symm.trans hlatest.answered)]
        · rcases hcond epoch scores hlatest with hno | hnone
          · exact absurd hresponse (hno latest hrange hlt)
          · rw [hvote, returnedScore_eq_none_iff.mpr (hnone old hold)]
            rfl

end Latest

/-! ### An epoch without scores yet -/

/-- A validator with stats in an epoch. -/
def listedRecord (voteAccount : String) (epoch : Nat) : ValidatorRecord where
  identity := voteAccount
  voteAccount := voteAccount
  infoName := none
  dcCountry := none
  dcCity := none
  dcFullCity := none
  commissionMaxObserved := none
  activatedStake := 0
  marinadeStake := 0
  foundationStake := 0
  superminority := false
  credits := 0
  score := none
  epochStats :=
    [{ epoch := epoch, epochStartAt := none, activatedStake := 0, marinadeStake := 0,
       credits := 0, uptimePct := none, apy := none, score := none }]
  hasLastEpochStats := true
  avgUptimePct := none
  avgApy := none
  incidents := []

def listedValidators : Dict String ValidatorRecord :=
  ⟨[("a", listedRecord "a" 700)], List.nodup_singleton _⟩

/-- Scores for the epoch 700, an error or an empty list for the others. -/
def scoredAt (others : ScoresResponse) (epoch : Nat) : ScoresResponse :=
  if epoch = 700 then .success [⟨"a", 9 / 10⟩] else others

/-- The requests of two epochs, the second one answered first. -/
def twoRequests : List ScraperAction :=
  [.spawn, .spawn, .complete 701, .complete 700]

/-- The end of a run that received the messages. -/
def ended (messages : List (Nat × Dict String Rat)) : Scraper where
  epochs := []
  permits := scoringScraperWorkers
  running := []
  channel := []
  result := Dict.ofList messages

theorem scoredAt_later {others : ScoresResponse} {epoch : Nat} (h : 700 < epoch) :
    scoredAt others epoch = others := if_neg h.ne'

/-- The second request fails: the score is that of the first epoch. -/
theorem scoresCurrent_iff_failed :
    ScoresCurrent (scoredAt .requestError) 700 701 (updateValidatorsWithScores
      (ended [(700, epochScores [⟨"a", 9 / 10⟩])]).result listedValidators) := by
  refine (scoresCurrent_iff (scoredAt .requestError) 700 701 (twoRequests ++ [.receive])
    (ended [(700, epochScores [⟨"a", 9 / 10⟩])]) rfl ⟨rfl, rfl, rfl⟩ listedValidators).mpr ?_
  intro epoch scores hlatest
  refine Or.inl fun later _ hlt hempty => ?_
  have hfirst : 700 ≤ epoch := (mem_epochsInRange.mp hlatest.range).1
  rw [scoredAt_later (by omega)] at hempty
  cases hempty

/-- The second request is answered with an empty list: the validator has no score. -/
theorem scores_not_current :
    exec (scraperStep (scoredAt (.success []))) (.init 700 701)
        (twoRequests ++ [.receive, .receive]) =
      some (ended [(701, epochScores []), (700, epochScores [⟨"a", 9 / 10⟩])]) ∧
    ¬ ScoresCurrent (scoredAt (.success [])) 700 701 (updateValidatorsWithScores
      (ended [(701, epochScores []), (700, epochScores [⟨"a", 9 / 10⟩])]).result
      listedValidators) := by
  refine ⟨rfl, fun h => ?_⟩
  have hlatest : LatestWithScores (scoredAt (.success [])) 700 701 700 [⟨"a", 9 / 10⟩] := by
    refine ⟨by decide, rfl, by simp, fun later _ hlt scores hscores => ?_⟩
    rw [scoredAt_later hlt] at hscores
    exact (ScoresResponse.success.inj hscores).symm
  have hscore := h.score 700 _ hlatest _ (List.mem_singleton_self _)
  revert hscore
  decide

end DelegationStrategy.Store
