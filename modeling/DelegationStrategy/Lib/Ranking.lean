import DelegationStrategy.Lib.Query
import Mathlib.Data.List.Count

/-!
# Ranks in a sorted list

A list sorted by a key is ranked from its last element, which has rank 1; elements with
equal keys share a rank. The ranking goes through the list once, with the index and the
number of equal elements just before (`rankFrom`).

The rank of an element is the number of elements with a key at least as large
(`rankFrom_eq`), so it does not depend on the order of the list.

- `exists_mem_take_le_iff`: which keys are among the first of a descending list.
- `updateFirst`: a change of the first element found, as `iter_mut().find(p).unwrap()`.
- `foldlM_eq_some`: a fold whose steps all succeed, from one state to the next.
-/

namespace DelegationStrategy.Lib

universe u v

/-- Fewer elements have a property that asks for more, if one of the others is lost. -/
theorem countP_lt_countP {α : Type u} {p q : α → Bool} {l : List α}
    (h : ∀ a ∈ l, p a → q a) {b : α} (hb : b ∈ l) (hq : q b) (hp : ¬ p b) :
    l.countP p < l.countP q := by
  have hfilter : l.countP p = (l.filter q).countP p := by
    rw [List.countP_filter]
    refine List.countP_congr ?_
    intro a ha
    simpa using h a ha
  rw [hfilter, List.countP_eq_length_filter (p := q), List.countP_lt_length_iff]
  exact ⟨b, List.mem_filter.mpr ⟨hb, hq⟩, by simpa using hp⟩

/-! ## Ranks -/

section Rank

variable {β : Type u} {T : Type v} [LinearOrder T]

/-- How many elements just before have the key `t`, when `sameRanks` elements just before
the previous one have the key of that one. -/
def nextSameRanks (t : T) (previous : Option T) (sameRanks : Nat) : Nat :=
  match previous with
  | some previous => if previous = t then sameRanks + 1 else 0
  | none => sameRanks

/-- The elements with their ranks. -/
def rankFrom (key : β → T) (length : Nat) : Nat → Option T → Nat → List β → List (β × Nat)
  | _, _, _, [] => []
  | index, previous, sameRanks, b :: bs =>
    let sameRanks := nextSameRanks (key b) previous sameRanks
    (b, length - index + sameRanks) ::
      rankFrom key length (index + 1) (some (key b)) sameRanks bs

variable {key : β → T}

/-- The number of elements with a key at least as large. -/
def rankIn (key : β → T) (l : List β) (t : T) : Nat := l.countP fun b => t ≤ key b

/-- What the ranking remembers of the elements it has ranked. -/
structure Ranked (key : β → T) (ranked : List β) (previous : Option T) (sameRanks : Nat) :
    Prop where
  none_iff : previous = none → ranked = [] ∧ sameRanks = 0
  le : ∀ t, previous = some t → ∀ b ∈ ranked, key b ≤ t
  count : ∀ t, previous = some t → ranked.countP (fun b => key b = t) = sameRanks + 1

theorem ranked_nil (key : β → T) : Ranked key [] none 0 where
  none_iff _ := ⟨rfl, rfl⟩
  le _ h := nomatch h
  count _ h := nomatch h

/-- The next counter is the number of elements before that have the key. -/
theorem Ranked.count_next {ranked : List β} {previous : Option T} {sameRanks : Nat}
    (h : Ranked key ranked previous sameRanks) {b : β} (hb : ∀ a ∈ ranked, key a ≤ key b) :
    nextSameRanks (key b) previous sameRanks = ranked.countP fun a => key a = key b := by
  cases previous with
  | none =>
    obtain ⟨rfl, rfl⟩ := h.none_iff rfl
    rfl
  | some t =>
    show (if t = key b then sameRanks + 1 else 0) = _
    by_cases ht : t = key b
    · rw [if_pos ht, ← ht, h.count t rfl]
    · rw [if_neg ht]
      symm
      refine List.countP_eq_zero.mpr fun a ha heq => ?_
      -- some element before has the key `t`, and it is not after `b`
      obtain ⟨c, hc, hct⟩ := List.countP_pos_iff.mp
        (by rw [h.count t rfl]; exact Nat.succ_pos _ : 0 < ranked.countP fun b => key b = t)
      rw [decide_eq_true_iff] at heq hct
      have h₁ : key b ≤ t := heq ▸ h.le t rfl a ha
      have h₂ : t ≤ key b := hct ▸ hb c hc
      exact ht (le_antisymm h₂ h₁)

theorem Ranked.next {ranked : List β} {b : β} (hb : ∀ a ∈ ranked, key a ≤ key b) :
    Ranked key (ranked ++ [b]) (some (key b)) (ranked.countP fun a => key a = key b) where
  none_iff h := nomatch h
  le t ht a ha := by
    obtain rfl := Option.some.inj ht
    rcases List.mem_append.mp ha with ha | ha
    · exact hb a ha
    · exact (List.mem_singleton.mp ha ▸ le_rfl)
  count t ht := by
    obtain rfl := Option.some.inj ht
    rw [List.countP_append, List.countP_singleton, if_pos (by simp)]

/-- In a sorted list an element is outranked by those from the first equal one on. -/
theorem rankIn_append {ranked rest : List β} {b : β} (hb : ∀ a ∈ ranked, key a ≤ key b)
    (hrest : ∀ a ∈ rest, key b ≤ key a) :
    rankIn key (ranked ++ rest) (key b) =
      rest.length + ranked.countP fun a => key a = key b := by
  have hequal : (ranked.countP fun a => decide (key b ≤ key a)) =
      ranked.countP fun a => decide (key a = key b) := by
    refine List.countP_congr fun a ha => ?_
    simp only [decide_eq_true_eq]
    exact ⟨fun hle => le_antisymm (hb a ha) hle, fun heq => heq.ge⟩
  have hall : (rest.countP fun a => decide (key b ≤ key a)) = rest.length :=
    List.countP_eq_length.mpr fun a ha => by simpa using hrest a ha
  rw [rankIn, List.countP_append, hequal, hall, Nat.add_comm]

/-- The ranking of what is left of a sorted list. -/
theorem rankFrom_append {ranked rest : List β} {previous : Option T} {sameRanks : Nat}
    (hsorted : (ranked ++ rest).Pairwise fun a b => key a ≤ key b)
    (h : Ranked key ranked previous sameRanks) :
    rankFrom key (ranked ++ rest).length ranked.length previous sameRanks rest =
      rest.map fun b => (b, rankIn key (ranked ++ rest) (key b)) := by
  induction rest generalizing ranked previous sameRanks with
  | nil => rfl
  | cons b rest ih =>
    obtain ⟨-, htail, hcross⟩ := List.pairwise_append.mp hsorted
    have hb : ∀ a ∈ ranked, key a ≤ key b := fun a ha => hcross a ha b List.mem_cons_self
    have hrest : ∀ a ∈ b :: rest, key b ≤ key a := by
      intro a ha
      rcases List.mem_cons.mp ha with rfl | ha
      · exact le_rfl
      · exact (List.pairwise_cons.mp htail).1 a ha
    have happend : ranked ++ [b] ++ rest = ranked ++ b :: rest := by simp
    have hlength : (ranked ++ [b]).length = ranked.length + 1 := by simp
    have hnext := ih (happend ▸ hsorted) (Ranked.next hb)
    rw [happend, hlength] at hnext
    have hrank : (ranked ++ b :: rest).length - ranked.length +
        ranked.countP (fun a => decide (key a = key b)) =
          rankIn key (ranked ++ b :: rest) (key b) := by
      rw [rankIn_append hb hrest, List.length_append]
      omega
    unfold rankFrom
    dsimp only
    rw [h.count_next hb, hnext, List.map_cons, hrank]

/-- **The rank** of an element is the number of elements with a key at least as large. -/
theorem rankFrom_eq {l : List β} (hsorted : l.Pairwise fun a b => key a ≤ key b) :
    rankFrom key l.length 0 none 0 l = l.map fun b => (b, rankIn key l (key b)) :=
  have h : ([] ++ l).Pairwise fun a b => key a ≤ key b := hsorted
  rankFrom_append h (ranked_nil key)

theorem rankIn_perm {l l' : List β} (h : l.Perm l') (t : T) : rankIn key l t = rankIn key l' t :=
  h.countP_eq _

/-- A larger key of the list has a smaller rank. -/
theorem rankIn_lt {l : List β} {t : T} {b : β} (hb : b ∈ l) (ht : key b < t) :
    rankIn key l t < rankIn key l (key b) := by
  refine countP_lt_countP ?_ hb (by simp) (by simpa using ht)
  intro a _ ha
  exact decide_eq_true (ht.le.trans (of_decide_eq_true ha))

end Rank

/-! ## The first of a descending list -/

section Best

variable {T : Type u} [LinearOrder T] {s : List T}

/-- A member is not below all of the first `n` exactly if fewer than `n` are greater. -/
theorem exists_mem_take_le_iff (hs : s.Pairwise (· ≥ ·)) {t : T} (ht : t ∈ s) (n : Nat) :
    (∃ a ∈ s.take n, a ≤ t) ↔ s.countP (fun a => t < a) < n := by
  induction s generalizing n with
  | nil => cases ht
  | cons a s ih =>
    obtain ⟨hhead, htail⟩ := List.pairwise_cons.mp hs
    cases n with
    | zero => simp
    | succ n =>
      by_cases ha : a ≤ t
      · -- none is greater
        have hnone : (a :: s).countP (fun b => t < b) = 0 := by
          rw [List.countP_eq_zero]
          intro b hb
          rcases List.mem_cons.mp hb with rfl | hb
          · simpa using ha
          · simpa using (hhead b hb).trans ha
        simp [hnone, ha]
      · have hmem : t ∈ s := by
          rcases List.mem_cons.mp ht with rfl | hmem
          · exact absurd le_rfl ha
          · exact hmem
        have hrest := ih htail hmem n
        rw [List.countP_cons_of_pos (by simpa using ha)]
        simp only [List.take_succ_cons, List.mem_cons, exists_eq_or_imp, ha, false_or, hrest]
        omega

/-- At least the first `n` have fewer than `n` greater ones. -/
theorem min_le_countP_best (hs : s.Pairwise (· ≥ ·)) (n : Nat) :
    min n s.length ≤ s.countP fun t => s.countP (fun a => t < a) < n := by
  have hfirst : ((s.take n).countP fun t => s.countP (fun a => t < a) < n) =
      (s.take n).length := by
    rw [List.countP_eq_length]
    intro t ht
    have hcount := (exists_mem_take_le_iff hs (List.mem_of_mem_take ht) n).mp ⟨t, ht, le_rfl⟩
    simpa using hcount
  have hsub := (List.take_sublist n s).countP_le (p := fun t => s.countP (fun a => t < a) < n)
  rw [hfirst, List.length_take] at hsub
  exact hsub

/-- Of distinct keys only the first `n` have fewer than `n` greater ones. -/
theorem countP_best (hs : s.Pairwise (· > ·)) (n : Nat) :
    (s.countP fun t => s.countP (fun a => t < a) < n) = min n s.length := by
  have hge : s.Pairwise (· ≥ ·) := hs.imp le_of_lt
  refine le_antisymm ?_ (min_le_countP_best hge n)
  have hrest : ((s.drop n).countP fun t => s.countP (fun a => t < a) < n) = 0 := by
    rw [List.countP_eq_zero]
    intro t ht hcount
    have hmem : t ∈ s := List.mem_of_mem_drop ht
    obtain ⟨a, ha, hle⟩ := (exists_mem_take_le_iff hge hmem n).mpr (of_decide_eq_true hcount)
    rw [← List.take_append_drop n s] at hs
    exact absurd hle (not_le.mpr ((List.pairwise_append.mp hs).2.2 a ha t ht))
  calc s.countP (fun t => s.countP (fun a => t < a) < n)
      = (s.take n ++ s.drop n).countP (fun t => s.countP (fun a => t < a) < n) := by
        rw [List.take_append_drop]
    _ = (s.take n).countP (fun t => s.countP (fun a => t < a) < n) := by
        rw [List.countP_append, hrest, Nat.add_zero]
    _ ≤ (s.take n).length := List.countP_le_length
    _ = min n s.length := List.length_take

end Best

/-! ## Updates -/

/-- The list with its first element that has the property changed; `none` if none has. -/
def updateFirst {α : Type u} (p : α → Bool) (f : α → α) : List α → Option (List α)
  | [] => none
  | a :: l => if p a then some (f a :: l) else (updateFirst p f l).map (a :: ·)

/-- A view of the elements that the change keeps. -/
theorem map_of_updateFirst {α : Type u} {β : Type v} {p : α → Bool} {f : α → α} {view : α → β}
    (hview : ∀ a, view (f a) = view a) {l l' : List α} (h : updateFirst p f l = some l') :
    l'.map view = l.map view := by
  induction l generalizing l' with
  | nil => cases h
  | cons a l ih =>
    unfold updateFirst at h
    by_cases ha : p a = true
    · rw [if_pos ha] at h
      obtain rfl := Option.some.inj h
      rw [List.map_cons, List.map_cons, hview]
    · rw [if_neg ha] at h
      obtain ⟨rest, hrest, rfl⟩ := Option.map_eq_some_iff.mp h
      rw [List.map_cons, List.map_cons, ih hrest]

/-- With one element that has the property, it is the one that changes. -/
theorem updateFirst_eq {α : Type u} {p : α → Bool} {f : α → α} {l : List α}
    (hone : l.Pairwise fun a b => ¬ (p a = true ∧ p b = true)) (hex : ∃ a ∈ l, p a = true) :
    updateFirst p f l = some (l.map fun a => if p a then f a else a) := by
  induction l with
  | nil =>
    obtain ⟨a, ha, -⟩ := hex
    cases ha
  | cons a l ih =>
    obtain ⟨hhead, htail⟩ := List.pairwise_cons.mp hone
    unfold updateFirst
    by_cases ha : p a = true
    · have hrest : (l.map fun b => if p b then f b else b) = l.map fun b => b :=
        List.map_congr_left fun b hb => if_neg fun hpb => hhead b hb ⟨ha, hpb⟩
      rw [if_pos ha, List.map_cons, if_pos ha, hrest, List.map_id']
    · obtain ⟨b, hb, hpb⟩ := hex
      rcases List.mem_cons.mp hb with rfl | hb
      · exact absurd hpb ha
      · rw [if_neg ha, ih htail ⟨b, hb, hpb⟩, Option.map_some, List.map_cons, if_neg ha]

/-- A fold whose steps all succeed, from the state after some elements to the state after
one more. -/
theorem foldlM_eq_some {α : Type u} {σ : Type v} {f : σ → α → Option σ} (state : List α → σ)
    (done rest : List α) (h : ∀ pre a post, done ++ rest = pre ++ a :: post →
      f (state pre) a = some (state (pre ++ [a]))) :
    rest.foldlM f (state done) = some (state (done ++ rest)) := by
  induction rest generalizing done with
  | nil => rw [List.append_nil]; rfl
  | cons a rest ih =>
    have hrest := ih (done ++ [a]) fun pre b post heq => h pre b post (by simpa using heq)
    rw [List.append_assoc, List.singleton_append] at hrest
    rw [List.foldlM_cons, h done a rest rfl]
    exact hrest

/-- With distinct keys, the element at hand has another key than those before it. -/
theorem not_mem_map_of_nodup {α : Type u} {κ : Type v} {key : α → κ} {pre post : List α} {a : α}
    (h : ((pre ++ a :: post).map key).Nodup) : key a ∉ pre.map key := by
  intro hmem
  rw [List.map_append, List.nodup_append] at h
  exact h.2.2 (key a) hmem (key a) (by simp) rfl

end DelegationStrategy.Lib
