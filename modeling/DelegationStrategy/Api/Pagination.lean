import DelegationStrategy.Api.ListValidators
import DelegationStrategy.Lib.Pages

/-!
# Pages of `/validators`

A client reads the validators with `offset` and `limit`. Every request filters a hash map
into a vector, sorts it and cuts a page. The sort is stable and has no tie-break, so
validators with the same value of the order field stand in the order of the hash map, which
is another one after each reload of the cache.

So the pages together are the validators, whatever the orders, exactly if no tie crosses a
page boundary (`pagesComplete_iff`).
-/

namespace DelegationStrategy.Api

open DelegationStrategy.Lib DelegationStrategy.Collect DelegationStrategy.Store

/-- The field that the validators are sorted by, less first. -/
def sortKey (config : GetValidatorsConfig) (v : ValidatorRecord) : Int :=
  match config.orderDirection with
  | .asc => fieldExtractor config.orderField v
  | .desc => -fieldExtractor config.orderField v

theorem sortValidators_eq (config : GetValidatorsConfig) (validators : List ValidatorRecord) :
    sortValidators config validators = sortBy (sortKey config) validators := by
  unfold sortValidators sortBy sortKey
  cases config.orderDirection with
  | asc => rfl
  | desc => simp

section Pages

variable (toLowercase : String → String)

/-- The request for the page `j` of `n` validators. -/
def pageConfig (config : GetValidatorsConfig) (n j : Nat) : GetValidatorsConfig :=
  { config with offset := j * n, limit := n }

/-- The first `K` pages, each from an iteration over the hash map of its own. -/
def pages (scans : Nat → Scan) (config : GetValidatorsConfig)
    (cached : Dict String ValidatorRecord) (n K : Nat) : List ValidatorRecord :=
  (List.range K).flatMap fun j =>
    getValidators toLowercase (scans j) (pageConfig config n j) cached

/-- As soon as the pages are enough for all, they have every validator that passes the filter
exactly once. -/
def PagesComplete (config : GetValidatorsConfig) (cached : Dict String ValidatorRecord)
    (n : Nat) : Prop :=
  ∀ (scans : Nat → Scan) (K : Nat),
    (filterValidators toLowercase .sequential config cached).length ≤ K * n →
      ((pages toLowercase scans config cached n K).map ValidatorRecord.voteAccount).Perm
        ((filterValidators toLowercase .sequential config cached).map
          ValidatorRecord.voteAccount)

/-- No tie crosses a page boundary. -/
def TiesWithinPages (config : GetValidatorsConfig) (cached : Dict String ValidatorRecord)
    (n : Nat) : Prop :=
  ∀ j, CleanCut (sortKey config) (filterValidators toLowercase .sequential config cached) (j * n)

variable {toLowercase} {config : GetValidatorsConfig} {cached : Dict String ValidatorRecord}
  {n : Nat}

theorem filterValidators_perm (scan : Scan) :
    (filterValidators toLowercase scan config cached).Perm
      (filterValidators toLowercase .sequential config cached) :=
  (scan.perm _).map Prod.snd

theorem filterValidators_reverse :
    filterValidators toLowercase .reverse config cached =
      (filterValidators toLowercase .sequential config cached).reverse :=
  List.map_reverse

/-- The vote accounts of a page. -/
theorem voteAccount_getValidators (scan : Scan) (j : Nat) :
    (getValidators toLowercase scan (pageConfig config n j) cached).map
        ValidatorRecord.voteAccount =
      (page n j (sortBy (sortKey config)
        (filterValidators toLowercase scan config cached))).map ValidatorRecord.voteAccount := by
  unfold getValidators
  rw [List.map_map, sortValidators_eq]
  rfl

theorem voteAccount_pages (scans : Nat → Scan) (K : Nat) :
    (pages toLowercase scans config cached n K).map ValidatorRecord.voteAccount =
      ((List.range K).flatMap fun j => page n j (sortBy (sortKey config)
        (filterValidators toLowercase (scans j) config cached))).map
          ValidatorRecord.voteAccount := by
  rw [pages, List.map_flatMap, List.map_flatMap]
  simp only [voteAccount_getValidators]

/-- A vote account passes the filter once. -/
theorem nodup_filterValidators (hstored : ∀ e ∈ cached.entries, e.2.voteAccount = e.1) :
    ((filterValidators toLowercase .sequential config cached).map
      ValidatorRecord.voteAccount).Nodup := by
  unfold filterValidators
  rw [List.map_map]
  have hkeys : ∀ l : List (String × ValidatorRecord), l.Sublist cached.entries →
      (l.map (ValidatorRecord.voteAccount ∘ Prod.snd)).Nodup := by
    intro l hl
    have hmap : l.map (ValidatorRecord.voteAccount ∘ Prod.snd) = l.map Prod.fst := by
      refine List.map_congr_left ?_
      intro e he
      exact hstored e (hl.subset he)
    rw [hmap]
    exact cached.nodup.sublist (hl.map _)
  exact hkeys _ List.filter_sublist

/-- The first pages from one order and the others from another one tell the orders apart. -/
theorem perm_take_of_pagesComplete (hn : 1 ≤ n)
    (h : PagesComplete toLowercase config cached n) (J : Nat) :
    (((sortBy (sortKey config)
      (filterValidators toLowercase .sequential config cached)).take (J * n)).map
        ValidatorRecord.voteAccount).Perm
      (((sortBy (sortKey config)
        (filterValidators toLowercase .sequential config cached).reverse).take (J * n)).map
          ValidatorRecord.voteAccount) := by
  generalize hfiltered : filterValidators toLowercase .sequential config cached = filtered
  have hlength : filtered.length ≤ filtered.length * n := Nat.le_mul_of_pos_right _ hn
  have henough : filtered.length ≤ (J + filtered.length) * n := by
    rw [Nat.add_mul]
    omega
  have hpages := h (fun j => if j < J then .sequential else .reverse) (J + filtered.length)
    (hfiltered ▸ henough)
  have hlists : ∀ j, sortBy (sortKey config) (filterValidators toLowercase
      (if j < J then .sequential else .reverse) config cached) =
        if j < J then sortBy (sortKey config) filtered
        else sortBy (sortKey config) filtered.reverse := by
    intro j
    split
    · rw [hfiltered]
    · rw [filterValidators_reverse, hfiltered]
  rw [voteAccount_pages] at hpages
  simp only [hlists] at hpages
  have hrest : ((sortBy (sortKey config) filtered.reverse).drop (J * n)).take
      (filtered.length * n) = (sortBy (sortKey config) filtered.reverse).drop (J * n) := by
    refine List.take_of_length_le ?_
    rw [List.length_drop, (sortBy_perm _ _).length_eq, List.length_reverse]
    omega
  rw [flatMap_two_pages, hrest, hfiltered] at hpages
  have hall : (filtered.map ValidatorRecord.voteAccount).Perm
      (((sortBy (sortKey config) filtered.reverse).take (J * n) ++
        (sortBy (sortKey config) filtered.reverse).drop (J * n)).map
          ValidatorRecord.voteAccount) := by
    rw [List.take_append_drop]
    exact (((sortBy_perm _ _).trans filtered.reverse_perm).map _).symm
  have hboth := hpages.trans hall
  rw [List.map_append, List.map_append] at hboth
  exact (List.perm_append_right_iff _).mp hboth

/-- **Pages** of `n` validators neither lose nor repeat a validator, whatever the order of
the hash map at each request, exactly if no tie crosses a page boundary. -/
theorem pagesComplete_iff (hn : 1 ≤ n)
    (hstored : ∀ e ∈ cached.entries, e.2.voteAccount = e.1) :
    PagesComplete toLowercase config cached n ↔ TiesWithinPages toLowercase config cached n := by
  constructor
  · intro h J
    by_contra hcut
    have hnodup : ((filterValidators toLowercase .sequential config cached).map
        ValidatorRecord.voteAccount).Nodup := nodup_filterValidators hstored
    obtain ⟨a, ha, hnot⟩ := exists_mem_take_not_mem_take (List.Nodup.of_map _ hnodup) hcut
    -- the vote account of `a` is before the boundary in the other order as well
    have hperm := perm_take_of_pagesComplete hn h J
    obtain ⟨b, hb, hvote⟩ := List.mem_map.mp (hperm.subset (List.mem_map_of_mem ha))
    have ha' := (sortBy_perm _ _).subset (List.mem_of_mem_take ha)
    have hb' := List.mem_reverse.mp ((sortBy_perm _ _).subset (List.mem_of_mem_take hb))
    obtain rfl := List.inj_on_of_nodup_map hnodup hb' ha' hvote
    exact hnot hb
  · intro hties scans K hK
    rw [voteAccount_pages]
    refine (flatMap_pages_perm (fun j => pairwise_sortBy _ _) (fun j => ?_) hties hK).map _
    exact (sortBy_perm _ _).trans (filterValidators_perm (scans j))

end Pages

/-! ## Two validators with the same stake -/

/-- A validator with stake in two epochs. -/
def stakedRecord (voteAccount : String) (stake : Nat) : ValidatorRecord where
  identity := voteAccount
  voteAccount := voteAccount
  infoName := none
  dcCountry := none
  dcCity := none
  dcFullCity := none
  commissionMaxObserved := none
  activatedStake := stake
  marinadeStake := 0
  foundationStake := 0
  superminority := false
  credits := 0
  score := none
  epochStats := [7, 6].map fun epoch =>
    { epoch := epoch, epochStartAt := none, activatedStake := stake, marinadeStake := 0,
      credits := 0, uptimePct := none, apy := none, score := none }
  hasLastEpochStats := true
  avgUptimePct := none
  avgApy := none
  incidents := []

def tiedValidators : Dict String ValidatorRecord :=
  ⟨[("a", stakedRecord "a" 10), ("b", stakedRecord "b" 10)], by decide⟩

theorem tiedValidators_stored : ∀ e ∈ tiedValidators.entries, e.2.voteAccount = e.1 := by
  decide

/-- What the condition says of pages of one and of two validators. -/
theorem pagesComplete_iff_tied :
    (PagesComplete id ({} : QueryParams).config tiedValidators 1 ↔
        TiesWithinPages id ({} : QueryParams).config tiedValidators 1) ∧
      (PagesComplete id ({} : QueryParams).config tiedValidators 2 ↔
        TiesWithinPages id ({} : QueryParams).config tiedValidators 2) :=
  ⟨pagesComplete_iff (by omega) tiedValidators_stored,
    pagesComplete_iff (by omega) tiedValidators_stored⟩

/-- The cache is reloaded between two pages of one validator: both have the same one. -/
theorem pages_not_complete :
    ¬ ∀ (toLowercase : String → String) (config : GetValidatorsConfig)
      (cached : Dict String ValidatorRecord) (n : Nat), 1 ≤ n →
      (∀ e ∈ cached.entries, e.2.voteAccount = e.1) →
        PagesComplete toLowercase config cached n := by
  intro h
  have hperm := h id ({} : QueryParams).config tiedValidators 1 (by omega) tiedValidators_stored
    (fun j => if j = 0 then .sequential else .reverse) 2 (by decide)
  have hpages : (pages id (fun j => if j = 0 then .sequential else .reverse)
      ({} : QueryParams).config tiedValidators 1 2).map ValidatorRecord.voteAccount =
        ["a", "a"] := by decide
  have hall : (filterValidators id .sequential ({} : QueryParams).config tiedValidators).map
      ValidatorRecord.voteAccount = ["a", "b"] := by decide
  rw [hpages, hall] at hperm
  exact absurd hperm (by decide)

end DelegationStrategy.Api
