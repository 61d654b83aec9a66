import DelegationStrategy.Lib.Query
import Mathlib.Data.List.Sort

/-!
# Pages of sorted lists

A list is read in pages of `n` elements. Each page is cut from a sort of its own, by a key
that some elements share, of the same elements in an order of its own.

- `flatMap_pages_perm`: where no elements of one key stand on both sides of a page boundary
  (`CleanCut`), the pages together are the elements.
- `exists_mem_take_not_mem_take`: where they do, the elements and their reversal are sorted,
  by stability, to lists that differ before the boundary.
-/

namespace DelegationStrategy.Lib

universe u v

variable {α : Type u} {T : Type v} [LinearOrder T]

/-! ## Positions in a sorted list -/

/-- How many elements come before a key. -/
def before (key : α → T) (l : List α) (t : T) : Nat := l.countP fun a => key a < t

/-- How many elements do not come after a key. -/
def upTo (key : α → T) (l : List α) (t : T) : Nat := l.countP fun a => key a ≤ t

variable {key : α → T} {l l' : List α} {m n : Nat}

theorem before_perm (h : l.Perm l') (t : T) : before key l t = before key l' t :=
  h.countP_eq _

theorem upTo_perm (h : l.Perm l') (t : T) : upTo key l t = upTo key l' t :=
  h.countP_eq _

/-- An element of a sorted list stands behind all that come before its key. -/
theorem before_le_length {pre post : List α} {a : α}
    (hs : (pre ++ a :: post).Pairwise fun a b => key a ≤ key b) :
    before key (pre ++ a :: post) (key a) ≤ pre.length := by
  have hpost : (a :: post).countP (fun b => key b < key a) = 0 := by
    rw [List.countP_eq_zero]
    intro b hb
    have htail := (List.pairwise_append.mp hs).2.1
    rcases List.mem_cons.mp hb with rfl | hb
    · simp
    · simpa using (List.pairwise_cons.mp htail).1 b hb
  rw [before, List.countP_append, hpost, Nat.add_zero]
  exact List.countP_le_length

/-- An element of a sorted list stands among those that do not come after its key. -/
theorem length_lt_upTo {pre post : List α} {a : α}
    (hs : (pre ++ a :: post).Pairwise fun a b => key a ≤ key b) :
    pre.length < upTo key (pre ++ a :: post) (key a) := by
  have hpre : pre.countP (fun b => key b ≤ key a) = pre.length := by
    rw [List.countP_eq_length]
    intro b hb
    have hle := (List.pairwise_append.mp hs).2.2 b hb a List.mem_cons_self
    simpa using hle
  rw [upTo, List.countP_append, hpre, List.countP_cons_of_pos (by simp)]
  omega

/-- The first element of a key stands behind no others than those that come before it. -/
theorem length_le_before {pre post : List α} {a : α}
    (hs : (pre ++ a :: post).Pairwise fun a b => key a ≤ key b)
    (hfirst : ∀ b ∈ pre, key b ≠ key a) :
    pre.length ≤ before key (pre ++ a :: post) (key a) := by
  have hpre : pre.countP (fun b => key b < key a) = pre.length := by
    rw [List.countP_eq_length]
    intro b hb
    have hle := (List.pairwise_append.mp hs).2.2 b hb a List.mem_cons_self
    exact decide_eq_true (lt_of_le_of_ne hle (hfirst b hb))
  rw [before, List.countP_append, hpre]
  exact Nat.le_add_right _ _

/-- Behind the last element of a key stand those that come after it. -/
theorem upTo_le_length {pre post : List α} {a : α}
    (hs : (pre ++ a :: post).Pairwise fun a b => key a ≤ key b)
    (hlast : ∀ b ∈ post, key b ≠ key a) :
    upTo key (pre ++ a :: post) (key a) ≤ pre.length + 1 := by
  have hpost : post.countP (fun b => key b ≤ key a) = 0 := by
    rw [List.countP_eq_zero]
    intro b hb hle
    have hge := (List.pairwise_cons.mp (List.pairwise_append.mp hs).2.1).1 b hb
    exact hlast b hb (le_antisymm (of_decide_eq_true hle) hge)
  have hpre : pre.countP (fun b => key b ≤ key a) ≤ pre.length := List.countP_le_length
  rw [upTo, List.countP_append, List.countP_cons_of_pos (by simp), hpost]
  omega

/-! ## Cuts -/

/-- No elements of one key stand on both sides of the position `m`. -/
def CleanCut (key : α → T) (l : List α) (m : Nat) : Prop :=
  ∀ a ∈ l, before key l (key a) < m → upTo key l (key a) ≤ m

theorem cleanCut_perm (h : l.Perm l') : CleanCut key l m ↔ CleanCut key l' m := by
  unfold CleanCut
  refine forall_congr' fun a => ?_
  rw [h.mem_iff, before_perm h, upTo_perm h]

/-- A clean cut takes the elements of the first keys. -/
theorem take_eq_filter (hs : l.Pairwise fun a b => key a ≤ key b) (hcut : CleanCut key l m) :
    l.take m = l.filter fun a => before key l (key a) < m := by
  have hfirst : (l.take m).filter (fun a => before key l (key a) < m) = l.take m := by
    rw [List.filter_eq_self]
    intro a ha
    obtain ⟨pre, post, htake⟩ := List.append_of_mem ha
    have hl : l = pre ++ a :: (post ++ l.drop m) := by
      rw [← List.cons_append, ← List.append_assoc, ← htake, List.take_append_drop]
    have hlength : pre.length < m := by
      have hle := List.length_take_le m l
      rw [htake, List.length_append, List.length_cons] at hle
      omega
    have hbefore := before_le_length (hl ▸ hs)
    rw [← hl] at hbefore
    exact decide_eq_true (by omega)
  have hrest : (l.drop m).filter (fun a => before key l (key a) < m) = [] := by
    rw [List.filter_eq_nil_iff]
    intro a ha hlt
    obtain ⟨pre, post, hdrop⟩ := List.append_of_mem ha
    have hl : l = (l.take m ++ pre) ++ a :: post := by
      rw [List.append_assoc, ← hdrop, List.take_append_drop]
    have hlength : m ≤ (l.take m ++ pre).length := by
      have hpos := congrArg List.length hdrop
      rw [List.length_drop, List.length_append, List.length_cons] at hpos
      rw [List.length_append, List.length_take]
      omega
    have hupTo := length_lt_upTo (hl ▸ hs)
    rw [← hl] at hupTo
    have hle := hcut a (List.mem_of_mem_drop ha) (of_decide_eq_true hlt)
    omega
  conv_rhs => rw [← List.take_append_drop m l, List.filter_append]
  rw [List.take_append_drop, hfirst, hrest, List.append_nil]

/-! ## Pages -/

/-- The page `j` of a list. -/
def page (n j : Nat) (l : List α) : List α := (l.drop (j * n)).take n

/-- The pages of one list are the list. -/
theorem flatMap_page (l : List α) (n K : Nat) :
    ((List.range K).flatMap fun j => page n j l) = l.take (K * n) := by
  induction K with
  | zero => simp
  | succ K ih =>
    rw [List.range_succ, List.flatMap_append, ih, Nat.succ_mul, List.take_add]
    simp [page]

/-- **Clean pages**: cut from sorts of the same elements, the pages are the elements. -/
theorem flatMap_pages_perm {lists : Nat → List α}
    (hs : ∀ j, (lists j).Pairwise fun a b => key a ≤ key b) (hl : ∀ j, (lists j).Perm l)
    (hcut : ∀ j, CleanCut key l (j * n)) {K : Nat} (hK : l.length ≤ K * n) :
    ((List.range K).flatMap fun j => page n j (lists j)).Perm l := by
  have htake : ∀ j k, ((lists j).take (k * n)).Perm
      (l.filter fun a => before key l (key a) < k * n) := by
    intro j k
    rw [take_eq_filter (hs j) ((cleanCut_perm (hl j)).mpr (hcut k))]
    simp only [before_perm (hl j)]
    exact (hl j).filter _
  have hpages : ∀ k, ((List.range k).flatMap fun j => page n j (lists j)).Perm
      (l.filter fun a => before key l (key a) < k * n) := by
    intro k
    induction k with
    | zero => simp
    | succ k ih =>
      rw [List.range_succ, List.flatMap_append]
      refine List.Perm.trans ?_ (htake k (k + 1))
      rw [Nat.succ_mul, List.take_add]
      refine List.Perm.append (ih.trans (htake k k).symm) ?_
      simp [page]
  have hall : (l.filter fun a => before key l (key a) < K * n) = l := by
    rw [List.filter_eq_self]
    intro a ha
    have hlt : before key l (key a) < l.length := by
      refine lt_of_le_of_ne List.countP_le_length ?_
      intro heq
      have hless := List.countP_eq_length.mp heq a ha
      simp at hless
    exact decide_eq_true (by omega)
  exact (hpages K).trans (List.Perm.of_eq hall)

/-- Pages that are cut from one list up to a boundary and then from another one. -/
theorem flatMap_two_pages (l l' : List α) (n J K : Nat) :
    ((List.range (J + K)).flatMap fun j => page n j (if j < J then l else l')) =
      l.take (J * n) ++ (l'.drop (J * n)).take (K * n) := by
  rw [List.range_add, List.flatMap_append, List.flatMap_map]
  congr 1
  · rw [← flatMap_page]
    refine List.flatMap_congr ?_
    intro j hj
    rw [if_pos (List.mem_range.mp hj)]
  · rw [← flatMap_page]
    refine List.flatMap_congr ?_
    intro j _
    rw [if_neg (by omega), page, page, List.drop_drop, Nat.add_mul]

/-! ## Stability -/

section Stability

/-- The sort by the key. -/
def sortBy (key : α → T) (l : List α) : List α := l.insertionSort fun a b => key a ≤ key b

theorem sortBy_perm (key : α → T) (l : List α) : (sortBy key l).Perm l :=
  List.perm_insertionSort _ _

theorem pairwise_sortBy (key : α → T) (l : List α) :
    (sortBy key l).Pairwise fun a b => key a ≤ key b :=
  List.pairwise_insertionSort _ _

/-- The sort is stable: elements that are in order keep their order. -/
theorem filter_sortBy_of_pairwise {p : α → Bool}
    (h : (l.filter p).Pairwise fun a b => key a ≤ key b) :
    (sortBy key l).filter p = l.filter p := by
  have hsub : (l.filter p).Sublist (sortBy key l) :=
    List.sublist_insertionSort h List.filter_sublist
  have hsub' := hsub.filter p
  rw [List.filter_filter] at hsub'
  simp only [Bool.and_self] at hsub'
  exact (hsub'.eq_of_length ((sortBy_perm key l).filter _).length_eq.symm).symm

/-- Elements of one key are in order. -/
theorem filter_sortBy (key : α → T) (l : List α) (t : T) :
    (sortBy key l).filter (fun a => key a = t) = l.filter fun a => key a = t := by
  refine filter_sortBy_of_pairwise (List.pairwise_of_forall_mem_list ?_)
  intro a ha b hb
  have hat := of_decide_eq_true (List.mem_filter.mp ha).2
  have hbt := of_decide_eq_true (List.mem_filter.mp hb).2
  exact (hat.trans hbt.symm).le

/-- What a stable sort returns. -/
structure StableSort (key : α → T) (l sorted : List α) : Prop where
  perm : sorted.Perm l
  ordered : sorted.Pairwise fun a b => key a ≤ key b
  stable : ∀ t, (sorted.filter fun a => key a = t) = l.filter fun a => key a = t

theorem stableSort_sortBy (key : α → T) (l : List α) : StableSort key l (sortBy key l) where
  perm := sortBy_perm key l
  ordered := pairwise_sortBy key l
  stable := filter_sortBy key l

/-- **Ties across a cut**: the first of the elements of one key is before the cut in the sort
of a list, and not in the sort of its reversal. -/
theorem exists_mem_take_not_mem_take (hnodup : l.Nodup) (h : ¬ CleanCut key l m) :
    ∃ a, a ∈ (sortBy key l).take m ∧ a ∉ (sortBy key l.reverse).take m := by
  unfold CleanCut at h
  push Not at h
  obtain ⟨b, hb, hbefore, hupTo⟩ := h
  -- the first element with the key of `b`
  obtain ⟨c, rest, hclass⟩ : ∃ c rest, (l.filter fun a => key a = key b) = c :: rest := by
    refine List.exists_cons_of_ne_nil ?_
    exact List.ne_nil_of_mem (List.mem_filter.mpr ⟨hb, by simp⟩)
  have hmem : c ∈ l.filter fun a => key a = key b := hclass ▸ List.mem_cons_self
  have hkey : key c = key b := by simpa using (List.mem_filter.mp hmem).2
  rw [← hkey] at hbefore hupTo hclass
  refine ⟨c, ?first, ?last⟩
  case first =>
    have hfilter := filter_sortBy key l (key c)
    rw [hclass, List.filter_eq_cons_iff] at hfilter
    obtain ⟨pre, post, hsort, hpre, -, -⟩ := hfilter
    have hless := length_le_before (hsort ▸ pairwise_sortBy key l)
      fun a ha => by simpa using hpre a ha
    rw [← hsort, before_perm (sortBy_perm key l)] at hless
    rw [hsort, List.take_append, List.mem_append]
    right
    obtain ⟨k, hk⟩ : ∃ k, m - pre.length = k + 1 := ⟨m - pre.length - 1, by omega⟩
    rw [hk]
    exact List.mem_cons_self
  case last =>
    have hfilter := filter_sortBy key l.reverse (key c)
    rw [List.filter_reverse, hclass, List.reverse_cons, List.filter_eq_append_iff] at hfilter
    obtain ⟨s₁, s₂, hsort, -, hlast⟩ := hfilter
    rw [List.filter_eq_cons_iff] at hlast
    obtain ⟨pre, post, rfl, -, -, hpost⟩ := hlast
    rw [← List.append_assoc] at hsort
    have hperm : (sortBy key l.reverse).Perm l := (sortBy_perm key _).trans l.reverse_perm
    have hmost := upTo_le_length (hsort ▸ pairwise_sortBy key l.reverse)
      fun a ha => by simpa using List.filter_eq_nil_iff.mp hpost a ha
    rw [← hsort, upTo_perm hperm] at hmost
    intro htake
    rw [hsort, List.take_append_of_le_length (by omega)] at htake
    have hnodup' := hsort ▸ hperm.nodup_iff.mpr hnodup
    exact (List.nodup_append.mp hnodup').2.2 c (List.mem_of_mem_take htake) c
      List.mem_cons_self rfl

end Stability

end DelegationStrategy.Lib
