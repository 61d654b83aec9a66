import Mathlib.Algebra.Order.Group.Defs
import Mathlib.Algebra.Order.Group.Unbundled.Basic
import Mathlib.Algebra.Order.Monoid.Unbundled.Basic
import Mathlib.Algebra.Order.Monoid.Defs
import Mathlib.Data.List.Chain
import Mathlib.Tactic.Abel

/-!
# Timelines recorded from sightings

Something with a label is sighted now and then, and a timeline of labelled spans
(half-open intervals, the latest first) is kept of it. Between sightings nothing
is known, so the latest span is provisional: it ends `tail` after the latest
sighting. The next sighting at `t` (`sight`)

- extends the latest span if it has the same label and ended less than `grace`
  before `t`,
- cuts (or stretches) it at `t` and opens a new span if only the label differs,
- leaves it alone and opens a new span if it ended earlier.

Along sightings at increasing times the timeline is *faithful* (`Faithful`,
`faithful_sight`): its spans are disjoint, the span at each sighting has the
sighted label, and there is no gap between sightings that are closer than
`tail + grace`.

The spans of a label add up (`accounted_sight`): a sighting counts until the next one if that
one is near, and for `tail` otherwise (`heldFor`). So sightings within some time count for less
than `tail + grace` more than that time (`heldFor_lt`).
-/

namespace DelegationStrategy.Lib

universe u v

/-- A label that holds from `start` (included) to `stop` (excluded). -/
structure Span (τ : Type u) (L : Type v) where
  start : τ
  stop : τ
  label : L
  deriving DecidableEq, Repr

namespace Span

variable {τ : Type u} {L : Type v} [LinearOrder τ]

def Contains (s : Span τ L) (t : τ) : Prop := s.start ≤ t ∧ t < s.stop

/-- Spans one of which ends before the other starts have no time in common. -/
theorem not_contains_of_stop_le {s s' : Span τ L} (h : s'.stop ≤ s.start) {t : τ}
    (ht : s.Contains t) : ¬ s'.Contains t :=
  fun ht' => absurd (ht'.2.trans_le h) (not_lt_of_ge ht.1)

end Span

section Sight

variable {τ : Type u} {L : Type v} [AddCommMonoid τ] [LinearOrder τ] [DecidableEq L]

/-- Record that `l` was sighted at `t`; the latest span comes first. -/
def sight (tail grace t : τ) (l : L) : List (Span τ L) → List (Span τ L)
  | [] => [⟨t, t + tail, l⟩]
  | s :: older =>
    if t < s.stop + grace then
      if s.label = l then { s with stop := t + tail } :: older
      else ⟨t, t + tail, l⟩ :: { s with stop := t } :: older
    else ⟨t, t + tail, l⟩ :: s :: older

/-- What the timeline says about the sightings so far, the latest first. -/
structure Faithful (tail grace : τ) (spans : List (Span τ L)) (seen : List (τ × L)) :
    Prop where
  proper : ∀ s ∈ spans, s.start < s.stop
  ordered : spans.Pairwise fun s s' => s'.stop ≤ s.start
  /-- The latest span is provisional. -/
  current : ∀ s ∈ spans.head?, ∃ o ∈ seen.head?, s.start ≤ o.1 ∧ s.stop = o.1 + tail
  exact : ∀ o ∈ seen, ∃ s ∈ spans, s.Contains o.1 ∧ s.label = o.2
  continuous : seen.IsChain fun o' o => o'.1 < o.1 + (tail + grace) →
    ∀ t, o.1 ≤ t → t < o'.1 → ∃ s ∈ spans, s.Contains t

omit [DecidableEq L] in
theorem faithful_nil (tail grace : τ) : Faithful tail grace ([] : List (Span τ L)) [] where
  proper _ h := nomatch h
  ordered := List.Pairwise.nil
  current _ h := nomatch h
  exact _ h := nomatch h
  continuous := List.IsChain.nil

/-- What a sighting does to a timeline that has a latest span. -/
theorem sight_cases (tail grace t : τ) (l : L)
    (s : Span τ L) (older : List (Span τ L)) :
    (t < s.stop + grace ∧ s.label = l ∧
      sight tail grace t l (s :: older) = { s with stop := t + tail } :: older) ∨
    (t < s.stop + grace ∧ s.label ≠ l ∧
      sight tail grace t l (s :: older) =
        ⟨t, t + tail, l⟩ :: { s with stop := t } :: older) ∨
    (s.stop + grace ≤ t ∧
      sight tail grace t l (s :: older) = ⟨t, t + tail, l⟩ :: s :: older) := by
  by_cases hnear : t < s.stop + grace
  · by_cases hl : s.label = l
    · exact Or.inl ⟨hnear, hl, by rw [sight, if_pos hnear, if_pos hl]⟩
    · exact Or.inr (Or.inl ⟨hnear, hl, by rw [sight, if_pos hnear, if_neg hl]⟩)
  · exact Or.inr (Or.inr ⟨le_of_not_gt hnear, by rw [sight, if_neg hnear]⟩)

omit [DecidableEq L] in
/-- Later spans end later. -/
theorem Faithful.stops {tail grace : τ} {spans : List (Span τ L)} {seen : List (τ × L)}
    (h : Faithful tail grace spans seen) : spans.Pairwise fun s s' => s'.stop < s.stop :=
  h.ordered.imp_of_mem fun hs _ hle => hle.trans_lt (h.proper _ hs)

variable [IsOrderedCancelAddMonoid τ] {tail grace : τ}

/-- A sighting changes nothing about the times before it. -/
theorem sight_contains (htail : 0 < tail) {t u : τ} (l : L) {spans : List (Span τ L)}
    (hu : u < t) {s : Span τ L} (hs : s ∈ spans) (hcont : s.Contains u) :
    ∃ s' ∈ sight tail grace t l spans, s'.Contains u ∧ s'.label = s.label := by
  have hext : u < t + tail := hu.trans (lt_add_of_pos_right t htail)
  cases spans with
  | nil => cases hs
  | cons latest older =>
    rcases sight_cases tail grace t l latest older with
      ⟨-, -, heq⟩ | ⟨-, -, heq⟩ | ⟨-, heq⟩ <;> rw [heq] <;>
      rcases List.mem_cons.mp hs with rfl | hs
    · exact ⟨_, List.mem_cons_self, ⟨hcont.1, hext⟩, rfl⟩
    · exact ⟨s, List.mem_cons_of_mem _ hs, hcont, rfl⟩
    · exact ⟨_, List.mem_cons_of_mem _ List.mem_cons_self, ⟨hcont.1, hu⟩, rfl⟩
    · exact ⟨s, List.mem_cons_of_mem _ (List.mem_cons_of_mem _ hs), hcont, rfl⟩
    · exact ⟨s, List.mem_cons_of_mem _ List.mem_cons_self, hcont, rfl⟩
    · exact ⟨s, List.mem_cons_of_mem _ (List.mem_cons_of_mem _ hs), hcont, rfl⟩

/-- The sighted label holds at the time of the sighting. -/
theorem sight_self (htail : 0 < tail) {t : τ} (l : L) {spans : List (Span τ L)}
    (hstart : ∀ s ∈ spans.head?, s.start ≤ t) :
    ∃ s ∈ sight tail grace t l spans, s.Contains t ∧ s.label = l := by
  have ht : t < t + tail := lt_add_of_pos_right t htail
  cases spans with
  | nil => exact ⟨_, List.mem_cons_self, ⟨le_refl t, ht⟩, rfl⟩
  | cons s older =>
    rcases sight_cases tail grace t l s older with
      ⟨-, hl, heq⟩ | ⟨-, -, heq⟩ | ⟨-, heq⟩ <;> rw [heq]
    · exact ⟨_, List.mem_cons_self, ⟨hstart s rfl, ht⟩, hl⟩
    · exact ⟨_, List.mem_cons_self, ⟨le_refl t, ht⟩, rfl⟩
    · exact ⟨_, List.mem_cons_self, ⟨le_refl t, ht⟩, rfl⟩

/-- A sighting close to the end of the latest span leaves no gap before it. -/
theorem sight_continuous (htail : 0 < tail) {t u : τ} (l : L) {s : Span τ L}
    {older : List (Span τ L)} (hnear : t < s.stop + grace) (hstart : s.start ≤ u)
    (hu : u < t) : ∃ s' ∈ sight tail grace t l (s :: older), s'.Contains u := by
  rcases sight_cases tail grace t l s older with
    ⟨-, -, heq⟩ | ⟨-, -, heq⟩ | ⟨hfar, -⟩
  · rw [heq]
    exact ⟨_, List.mem_cons_self, hstart, hu.trans (lt_add_of_pos_right t htail)⟩
  · rw [heq]
    exact ⟨_, List.mem_cons_of_mem _ List.mem_cons_self, hstart, hu⟩
  · exact absurd hnear (not_lt_of_ge hfar)

/-! ### What a sighting keeps -/

section Keeps

variable {t : τ} {l : L} {spans : List (Span τ L)}

theorem sight_proper (htail : 0 < tail) (hcurrent : ∀ s ∈ spans.head?, s.start < t)
    (h : ∀ s ∈ spans, s.start < s.stop) :
    ∀ s ∈ sight tail grace t l spans, s.start < s.stop := by
  have ht : t < t + tail := lt_add_of_pos_right t htail
  cases spans with
  | nil =>
    intro s hs
    rw [List.mem_singleton.mp hs]
    exact ht
  | cons latest older =>
    have hlatest := hcurrent latest rfl
    obtain ⟨hp, hold⟩ := List.forall_mem_cons.mp h
    -- the span at `t` is proper, and one cut at `t` has started before
    rcases sight_cases tail grace t l latest older with
      ⟨-, -, heq⟩ | ⟨-, -, heq⟩ | ⟨-, heq⟩ <;> rw [heq]
    · exact List.forall_mem_cons.mpr ⟨hlatest.trans ht, hold⟩
    · exact List.forall_mem_cons.mpr ⟨ht, List.forall_mem_cons.mpr ⟨hlatest, hold⟩⟩
    · exact List.forall_mem_cons.mpr ⟨ht, List.forall_mem_cons.mpr ⟨hp, hold⟩⟩

theorem sight_ordered (hgrace : 0 ≤ grace) (hcurrent : ∀ s ∈ spans.head?, s.start < t)
    (h : spans.Pairwise fun s s' => s'.stop ≤ s.start) :
    (sight tail grace t l spans).Pairwise fun s s' => s'.stop ≤ s.start := by
  cases spans with
  | nil => exact List.pairwise_singleton _ _
  | cons latest older =>
    have hlatest := hcurrent latest rfl
    obtain ⟨hp, hold⟩ := List.pairwise_cons.mp h
    have hbefore : ∀ s ∈ older, s.stop ≤ t := fun s hs => (hp s hs).trans hlatest.le
    rcases sight_cases tail grace t l latest older with
      ⟨-, -, heq⟩ | ⟨-, -, heq⟩ | ⟨hfar, heq⟩ <;> rw [heq]
    · exact List.pairwise_cons.mpr ⟨hp, hold⟩
    · refine List.pairwise_cons.mpr ⟨?_, List.pairwise_cons.mpr ⟨hp, hold⟩⟩
      exact List.forall_mem_cons.mpr ⟨le_refl t, hbefore⟩
    · -- the latest span ended `grace` before `t`
      refine List.pairwise_cons.mpr ⟨?_, h⟩
      exact List.forall_mem_cons.mpr ⟨(le_add_of_nonneg_right hgrace).trans hfar, hbefore⟩

omit [IsOrderedCancelAddMonoid τ] in
/-- The latest span is provisional again. -/
theorem sight_current (hcurrent : ∀ s ∈ spans.head?, s.start < t) :
    ∀ s ∈ (sight tail grace t l spans).head?, s.start ≤ t ∧ s.stop = t + tail := by
  intro s hs
  cases spans with
  | nil =>
    obtain rfl := Option.some.inj hs
    exact ⟨le_refl t, rfl⟩
  | cons latest older =>
    have hlatest := hcurrent latest rfl
    rcases sight_cases tail grace t l latest older with
      ⟨-, -, heq⟩ | ⟨-, -, heq⟩ | ⟨-, heq⟩ <;>
      (rw [heq] at hs; obtain rfl := Option.some.inj hs)
    · exact ⟨hlatest.le, rfl⟩
    · exact ⟨le_refl t, rfl⟩
    · exact ⟨le_refl t, rfl⟩

end Keeps

/-- **A sighting later than all others keeps the timeline faithful.** -/
theorem faithful_sight (htail : 0 < tail) (hgrace : 0 ≤ grace) {t : τ} {l : L}
    {spans : List (Span τ L)} {seen : List (τ × L)}
    (h : Faithful tail grace spans seen) (hlater : ∀ o ∈ seen, o.1 < t) :
    Faithful tail grace (sight tail grace t l spans) ((t, l) :: seen) := by
  have hcurrent : ∀ s ∈ spans.head?, s.start < t := by
    intro s hs
    obtain ⟨o, ho, hstart, -⟩ := h.current s hs
    exact hstart.trans_lt (hlater o (List.mem_of_mem_head? ho))
  refine
    { proper := sight_proper htail hcurrent h.proper
      ordered := sight_ordered hgrace hcurrent h.ordered
      current := fun s hs => ⟨(t, l), rfl, sight_current hcurrent s hs⟩
      exact := fun o ho => ?_
      continuous := List.isChain_cons.mpr ⟨fun o ho hclose u hu hut => ?_, ?_⟩ }
  · rcases List.mem_cons.mp ho with rfl | ho
    · exact sight_self htail l fun s hs => (hcurrent s hs).le
    · obtain ⟨s, hs, hcont, hl⟩ := h.exact o ho
      obtain ⟨s', hs', hcont', hl'⟩ := sight_contains htail l (hlater o ho) hs hcont
      exact ⟨s', hs', hcont', hl'.trans hl⟩
  · -- between the last sighting and this one: the latest span ended `tail` after it
    obtain ⟨s, hs, -, -⟩ := h.exact o (List.mem_of_mem_head? ho)
    cases spans with
    | nil => cases hs
    | cons latest older =>
      obtain ⟨o', ho', hstart, hstop⟩ := h.current latest rfl
      obtain rfl : o = o' := Option.some.inj (ho.symm.trans ho')
      refine sight_continuous htail l ?_ (hstart.trans hu) hut
      rw [hstop, add_assoc]
      exact hclose
  · -- between earlier sightings nothing has changed
    refine h.continuous.imp_of_mem_imp fun o' o ho' _ hpair hclose u hu huo => ?_
    obtain ⟨s, hs, hcont⟩ := hpair hclose u hu huo
    obtain ⟨s', hs', hcont', -⟩ :=
      sight_contains htail l (huo.trans (hlater o' ho')) hs hcont
    exact ⟨s', hs', hcont'⟩

end Sight

/-! ### How long a label holds -/

section Held

variable {τ : Type u} {L : Type v} [AddCommGroup τ] [LinearOrder τ] [DecidableEq L]

/-- How long the spans of a label are together. -/
def lengthOf (l : L) (spans : List (Span τ L)) : τ :=
  ((spans.filter fun s => s.label = l).map fun s => s.stop - s.start).sum

/-- How long a sighting at `t` counts, with the time of the next one. -/
def countsFor (tail grace t : τ) : Option τ → τ
  | some next => if next < t + tail + grace then next - t else tail
  | none => tail

/-- How long the sightings of a label count together; the latest sighting comes first, and
`next` is the time of the one after it. -/
def heldFor (tail grace : τ) (l : L) (next : Option τ) : List (τ × L) → τ
  | [] => 0
  | o :: seen => (if o.2 = l then countsFor tail grace o.1 next else 0) +
      heldFor tail grace l (some o.1) seen

omit [LinearOrder τ] in
theorem lengthOf_cons (l : L) (s : Span τ L) (spans : List (Span τ L)) :
    lengthOf l (s :: spans) = (if s.label = l then s.stop - s.start else 0) + lengthOf l spans := by
  unfold lengthOf
  by_cases hl : s.label = l
  · simp [hl]
  · simp [hl]

/-- The spans of each label are as long together as its sightings count. -/
structure Accounted (tail grace : τ) (spans : List (Span τ L)) (seen : List (τ × L)) : Prop where
  /-- The latest span is that of the latest sighting, and provisional. -/
  latest : (spans.head?.map fun s => (s.stop, s.label)) =
    seen.head?.map fun o => (o.1 + tail, o.2)
  total : ∀ l, lengthOf l spans = heldFor tail grace l none seen

theorem accounted_nil (tail grace : τ) :
    Accounted tail grace ([] : List (Span τ L)) ([] : List (τ × L)) where
  latest := rfl
  total _ := rfl

/-- **A sighting keeps the account**: the sighting before it now counts until it, or for `tail`. -/
theorem accounted_sight {tail grace : τ} {spans : List (Span τ L)} {seen : List (τ × L)}
    (h : Accounted tail grace spans seen) (t : τ) (l : L) :
    Accounted tail grace (sight tail grace t l spans) ((t, l) :: seen) := by
  cases spans with
  | nil =>
    cases seen with
    | nil =>
      refine ⟨rfl, fun l' => ?_⟩
      show lengthOf l' [⟨t, t + tail, l⟩] = _
      rw [lengthOf_cons, add_sub_cancel_left]
      rfl
    | cons o seen => cases h.latest
  | cons s older =>
    cases seen with
    | nil => cases h.latest
    | cons o seen =>
      obtain ⟨hstop, hlabel⟩ : s.stop = o.1 + tail ∧ s.label = o.2 := by
        simpa using h.latest
      -- what the older spans and sightings contribute
      have hrest : ∀ l', (if o.2 = l' then o.1 + tail - s.start else 0) + lengthOf l' older =
          (if o.2 = l' then tail else 0) + heldFor tail grace l' (some o.1) seen := by
        intro l'
        have htotal := h.total l'
        rw [lengthOf_cons, hstop, hlabel] at htotal
        exact htotal
      have hcounts : ∀ l', heldFor tail grace l' none ((t, l) :: o :: seen) =
          (if l = l' then tail else 0) +
            ((if o.2 = l' then countsFor tail grace o.1 (some t) else 0) +
              heldFor tail grace l' (some o.1) seen) := fun _ => rfl
      rcases sight_cases tail grace t l s older with
        ⟨hnear, heq, hsight⟩ | ⟨hnear, hne, hsight⟩ | ⟨hfar, hsight⟩
      · -- the latest span goes on
        have hcount : countsFor tail grace o.1 (some t) = t - o.1 := if_pos (hstop ▸ hnear)
        refine ⟨by simp [hsight, heq], fun l' => ?_⟩
        have hl' := hrest l'
        rw [hsight, lengthOf_cons, hcounts, hcount, ← heq, hlabel]
        by_cases hself : o.2 = l'
        · simp only [if_pos hself] at hl' ⊢
          calc t + tail - s.start + lengthOf l' older
              = (o.1 + tail - s.start + lengthOf l' older) + (t - o.1) := by abel
            _ = tail + (t - o.1 + heldFor tail grace l' (some o.1) seen) := by rw [hl']; abel
        · simp only [if_neg hself] at hl' ⊢
          rw [hl']
          abel
      · -- the latest span is cut
        have hcount : countsFor tail grace o.1 (some t) = t - o.1 := if_pos (hstop ▸ hnear)
        refine ⟨by simp [hsight], fun l' => ?_⟩
        have hl' := hrest l'
        rw [hsight, lengthOf_cons, lengthOf_cons, hcounts, hcount, add_sub_cancel_left, hlabel]
        congr 1
        by_cases hself : o.2 = l'
        · simp only [if_pos hself] at hl' ⊢
          calc t - s.start + lengthOf l' older
              = (o.1 + tail - s.start + lengthOf l' older) + (t - o.1) - tail := by abel
            _ = t - o.1 + heldFor tail grace l' (some o.1) seen := by rw [hl']; abel
        · simp only [if_neg hself] at hl' ⊢
          exact hl'
      · -- the latest span stays
        have hcount : countsFor tail grace o.1 (some t) = tail :=
          if_neg (not_lt_of_ge (hstop ▸ hfar))
        refine ⟨by simp [hsight], fun l' => ?_⟩
        have hl' := hrest l'
        rw [hsight, lengthOf_cons, lengthOf_cons, hcounts, hcount, add_sub_cancel_left, hlabel,
          hstop, hl']

section Bounds

variable [IsOrderedAddMonoid τ] {tail grace : τ} {l : L} {seen : List (τ × L)}

omit [DecidableEq L] in
/-- A sighting counts until the next one at most. -/
theorem countsFor_le (hgrace : 0 ≤ grace) (t next : τ) :
    countsFor tail grace t (some next) ≤ next - t := by
  by_cases hnear : next < t + tail + grace
  · exact (if_pos hnear).le
  · have hle : t + tail ≤ next := (le_add_of_nonneg_right hgrace).trans (le_of_not_gt hnear)
    exact (if_neg hnear).trans_le (le_sub_iff_add_le'.mpr hle)

omit [DecidableEq L] in
theorem countsFor_lt (hgrace : 0 < grace) (t : τ) (next : Option τ) :
    countsFor tail grace t next < tail + grace := by
  have htail : tail < tail + grace := lt_add_of_pos_right tail hgrace
  cases next with
  | none => exact htail
  | some next =>
    by_cases hnear : next < t + tail + grace
    · refine (if_pos hnear).trans_lt ?_
      rw [add_assoc] at hnear
      exact sub_lt_iff_lt_add'.mpr hnear
    · exact (if_neg hnear).trans_lt htail

/-- Sightings from `first` on, all before `next`, count for the time in between at most. -/
theorem heldFor_le (hgrace : 0 ≤ grace) {first next : τ}
    (hdesc : seen.Pairwise fun o o' => o'.1 ≤ o.1) (hnext : ∀ o ∈ seen, o.1 ≤ next)
    (hfirst : ∀ o ∈ seen, o.2 = l → first ≤ o.1) :
    heldFor tail grace l (some next) seen ≤ max (next - first) 0 := by
  induction seen generalizing next with
  | nil => exact le_max_right _ _
  | cons o seen ih =>
    obtain ⟨hlater, hdesc⟩ := List.pairwise_cons.mp hdesc
    obtain ⟨hle, -⟩ := List.forall_mem_cons.mp hnext
    obtain ⟨hself, hfirst⟩ := List.forall_mem_cons.mp hfirst
    have hrest := ih hdesc hlater hfirst
    show (if o.2 = l then _ else 0) + _ ≤ _
    by_cases hl : o.2 = l
    · have hpos : 0 ≤ o.1 - first := sub_nonneg.mpr (hself hl)
      rw [max_eq_left hpos] at hrest
      rw [if_pos hl]
      calc countsFor tail grace o.1 (some next) + heldFor tail grace l (some o.1) seen
          ≤ (next - o.1) + (o.1 - first) := add_le_add (countsFor_le hgrace _ _) hrest
        _ = next - first := by abel
        _ ≤ max (next - first) 0 := le_max_left _ _
    · rw [if_neg hl, zero_add]
      exact hrest.trans (max_le_max (sub_le_sub_right hle first) (le_refl 0))

/-- **Sightings between `first` and `last`** count for less than `tail + grace` more than the
time in between. -/
theorem heldFor_lt (htail : 0 ≤ tail) (hgrace : 0 < grace) {first last : τ} (hle : first ≤ last)
    (hdesc : seen.Pairwise fun o o' => o'.1 ≤ o.1)
    (hfirst : ∀ o ∈ seen, o.2 = l → first ≤ o.1) (hlast : ∀ o ∈ seen, o.2 = l → o.1 ≤ last)
    (next : Option τ) :
    heldFor tail grace l next seen < last - first + (tail + grace) := by
  induction seen generalizing next with
  | nil =>
    exact add_pos_of_nonneg_of_pos (sub_nonneg.mpr hle) (add_pos_of_nonneg_of_pos htail hgrace)
  | cons o seen ih =>
    obtain ⟨hlater, hdesc⟩ := List.pairwise_cons.mp hdesc
    obtain ⟨hself, hfirst⟩ := List.forall_mem_cons.mp hfirst
    obtain ⟨hself', hlast⟩ := List.forall_mem_cons.mp hlast
    show (if o.2 = l then _ else 0) + _ < _
    by_cases hl : o.2 = l
    · -- the latest sighting of the label; the ones before it count until it at most
      have hrest : heldFor tail grace l (some o.1) seen ≤ max (o.1 - first) 0 :=
        heldFor_le hgrace.le hdesc hlater hfirst
      rw [max_eq_left (sub_nonneg.mpr (hself hl))] at hrest
      rw [if_pos hl, add_comm]
      exact add_lt_add_of_le_of_lt (hrest.trans (sub_le_sub_right (hself' hl) first))
        (countsFor_lt hgrace _ _)
    · rw [if_neg hl, zero_add]
      exact ih hdesc hfirst hlast (some o.1)

end Bounds

end Held

end DelegationStrategy.Lib
