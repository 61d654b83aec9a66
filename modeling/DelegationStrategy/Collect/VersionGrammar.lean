import DelegationStrategy.Collect.NodeVersions
import DelegationStrategy.Lib.Delimited
import DelegationStrategy.Lib.LastWins

/-!
# The grammar of node versions

`is_plausible_node_version` (`collect/src/solana_service.rs`) splits at the first two dots and
at the first dash after them. Digits are neither, so it decides a regular language
(`isPlausibleNodeVersion_iff`), although a suffix may have dots of its own. So
`get_cluster_nodes_versions` records the versions of this language and no others
(`getClusterNodesVersions_iff`).
-/

namespace DelegationStrategy.Collect

open DelegationStrategy.Lib

/-! ## The language -/

/-- `D`: ASCII digits, at least one. -/
def digits : Language Char := {w | w ≠ [] ∧ ∀ c ∈ w, '0' ≤ c ∧ c ≤ '9'}

/-- `P`: ASCII letters, digits and dots, at least one. -/
def suffixes : Language Char :=
  {w | w ≠ [] ∧ ∀ c ∈ w, ('0' ≤ c ∧ c ≤ '9') ∨ ('a' ≤ c ∧ c ≤ 'z') ∨ ('A' ≤ c ∧ c ≤ 'Z') ∨ c = '.'}

/-- `D.D.D` and `D.D.D-P`. -/
def nodeVersions : Language Char :=
  digits * {['.']} * digits * {['.']} * digits +
    digits * {['.']} * digits * {['.']} * digits * {['-']} * suffixes

theorem isAsciiDigit_iff {c : Char} : isAsciiDigit c = true ↔ '0' ≤ c ∧ c ≤ '9' := by
  simp [isAsciiDigit]

theorem notMem_digits {w : List Char} (h : w ∈ digits) {c : Char} (hc : isAsciiDigit c = false) :
    c ∉ w := by
  intro hmem
  rw [isAsciiDigit_iff.mpr (h.2 c hmem)] at hc
  cases hc

theorem numeric_iff {w : List Char} : numeric w = true ↔ w ∈ digits := by
  unfold numeric
  rw [Bool.and_eq_true, Bool.not_eq_true', List.isEmpty_eq_false_iff, List.all_eq_true]
  exact and_congr_right fun _ => forall₂_congr fun _ _ => isAsciiDigit_iff

theorem suffix_iff {w : List Char} :
    (!w.isEmpty && w.all fun c => isAsciiAlphanumeric c || c == '.') = true ↔ w ∈ suffixes := by
  rw [Bool.and_eq_true, Bool.not_eq_true', List.isEmpty_eq_false_iff, List.all_eq_true]
  refine and_congr_right fun _ => forall₂_congr fun c _ => ?_
  simp [isAsciiAlphanumeric, isAsciiDigit, or_assoc]

/-- The language, from the first delimiter to the last. -/
theorem nodeVersions_eq : nodeVersions =
    delimited '.' digits (delimited '.' digits (digits + delimited '-' digits suffixes)) := by
  unfold nodeVersions delimited
  simp only [mul_assoc, mul_add]

/-! ## The recognizer -/

theorem splitOnce_eq_none {separator : Char → Bool} {w : List Char} :
    splitOnce separator w = none ↔ ∀ c ∈ w, separator c = false := by
  induction w with
  | nil => simp [splitOnce]
  | cons c w ih =>
    unfold splitOnce
    split
    · rename_i h
      simp [h]
    · rename_i h
      rw [Option.map_eq_none_iff, ih]
      simp [h]

/-- The split is at the first character of the kind. -/
theorem splitOnce_eq_some {separator : Char → Bool} {w before after : List Char}
    (h : splitOnce separator w = some (before, after)) :
    ∃ c, separator c = true ∧ w = before ++ c :: after ∧ ∀ x ∈ before, separator x = false := by
  induction w generalizing before with
  | nil => cases h
  | cons c w ih =>
    unfold splitOnce at h
    split at h
    · rename_i hc
      obtain ⟨rfl, rfl⟩ := Prod.mk.inj (Option.some.inj h)
      exact ⟨c, hc, rfl, fun x hx => nomatch hx⟩
    · rename_i hc
      obtain ⟨⟨before', after'⟩, hsplit, heq⟩ := Option.map_eq_some_iff.mp h
      obtain ⟨rfl, rfl⟩ := Prod.mk.inj heq
      obtain ⟨c', hc', rfl, hbefore⟩ := ih hsplit
      refine ⟨c', hc', rfl, fun x hx => ?_⟩
      rcases List.mem_cons.mp hx with rfl | hx
      · exact Bool.eq_false_iff.mpr hc
      · exact hbefore x hx

/-- A split at a delimiter decides a delimited language. -/
theorem mem_delimited_iff_splitOnce {delimiter : Char} {L M : Language Char}
    (hL : ∀ w ∈ L, delimiter ∉ w) (w : List Char) :
    w ∈ delimited delimiter L M ↔ ∃ before after,
      splitOnce (· == delimiter) w = some (before, after) ∧ before ∈ L ∧ after ∈ M := by
  cases hsplit : splitOnce (· == delimiter) w with
  | none =>
    have hnot : delimiter ∉ w := fun hmem => by
      simpa using splitOnce_eq_none.mp hsplit delimiter hmem
    simp [notMem_delimited hnot]
  | some parts =>
    obtain ⟨before, after⟩ := parts
    obtain ⟨c, hc, rfl, hbefore⟩ := splitOnce_eq_some hsplit
    obtain rfl := beq_iff_eq.mp hc
    have hnot : c ∉ before := fun hmem => by simpa using hbefore c hmem
    rw [append_mem_delimited hL hnot]
    simp

theorem dot_notMem_digits : ∀ w ∈ digits, '.' ∉ w := fun _ h => notMem_digits h (by decide)

theorem dash_notMem_digits : ∀ w ∈ digits, '-' ∉ w := fun _ h => notMem_digits h (by decide)

/-- What follows the second dot. -/
theorem plausiblePatch_iff (w : List Char) :
    plausiblePatch w = true ↔ w ∈ digits + delimited '-' digits suffixes := by
  rw [Language.mem_add, mem_delimited_iff_splitOnce dash_notMem_digits]
  unfold plausiblePatch
  cases hsplit : splitOnce (· == '-') w with
  | none => simp [numeric_iff]
  | some parts =>
    -- with a dash it is no number
    obtain ⟨patch, prerelease⟩ := parts
    obtain ⟨c, hc, rfl, -⟩ := splitOnce_eq_some hsplit
    obtain rfl := beq_iff_eq.mp hc
    have hnot : patch ++ '-' :: prerelease ∉ digits := fun h =>
      dash_notMem_digits _ h (List.mem_append_right _ List.mem_cons_self)
    show (numeric patch && !prerelease.isEmpty && prerelease.all _) = true ↔ _
    rw [Bool.and_assoc, Bool.and_eq_true, numeric_iff, suffix_iff]
    simp [hnot]

/-- **The recognizer decides the grammar.** -/
theorem isPlausibleNodeVersion_iff (w : List Char) :
    isPlausibleNodeVersion w = true ↔ w ∈ nodeVersions := by
  rw [nodeVersions_eq, mem_delimited_iff_splitOnce dot_notMem_digits]
  unfold isPlausibleNodeVersion
  cases hmajor : splitOnce (· == '.') w with
  | none => simp
  | some parts =>
    obtain ⟨major, rest⟩ := parts
    simp only [Option.some.injEq, Prod.mk.injEq]
    cases hminor : splitOnce (· == '.') rest with
    | none =>
      simp only [Bool.false_eq_true, false_iff]
      rintro ⟨_, _, ⟨rfl, rfl⟩, -, hrest⟩
      obtain ⟨_, _, hsome, -⟩ := (mem_delimited_iff_splitOnce dot_notMem_digits _).mp hrest
      rw [hminor] at hsome
      cases hsome
    | some parts =>
      obtain ⟨minor, patch⟩ := parts
      rw [Bool.and_eq_true, Bool.and_eq_true, numeric_iff, numeric_iff, plausiblePatch_iff]
      constructor
      · rintro ⟨⟨hmajor', hminor'⟩, hpatch'⟩
        refine ⟨major, rest, ⟨rfl, rfl⟩, hmajor',
          (mem_delimited_iff_splitOnce dot_notMem_digits _).mpr ?_⟩
        exact ⟨minor, patch, hminor, hminor', hpatch'⟩
      · rintro ⟨_, _, ⟨rfl, rfl⟩, hmajor', hrest⟩
        obtain ⟨_, _, hsome, hminor', hpatch'⟩ :=
          (mem_delimited_iff_splitOnce dot_notMem_digits _).mp hrest
        obtain ⟨rfl, rfl⟩ := Prod.mk.inj (Option.some.inj (hminor.symm.trans hsome))
        exact ⟨⟨hmajor', hminor'⟩, hpatch'⟩

/-! ## What is recorded -/

/-- The part before the first whitespace is the whole string if there is none. -/
theorem getD_splitOnce (separator : Char → Bool) (w : List Char) :
    ((splitOnce separator w).map Prod.fst).getD w = w.takeWhile fun c => !separator c := by
  induction w with
  | nil => rfl
  | cons c w ih =>
    unfold splitOnce
    by_cases hc : separator c = true
    · rw [if_pos hc, List.takeWhile_cons_of_neg (by simpa using hc)]
      rfl
    · rw [if_neg hc, List.takeWhile_cons_of_pos (by simpa using hc), ← ih]
      cases splitOnce separator w with
      | none => rfl
      | some parts => rfl

/-- The node reports a version that starts with this one: it ends at the first whitespace and
has the form of a version. -/
def ClusterNode.Reports (node : ClusterNode) (version : String) : Prop :=
  ∃ reported, node.version = some reported ∧
    version.toList = reported.toList.takeWhile (fun c => !isWhitespace c) ∧
    version.toList ∈ nodeVersions

theorem plausibleVersion_iff {node : ClusterNode} {version : String} :
    node.plausibleVersion = some version ↔ node.Reports version := by
  unfold ClusterNode.plausibleVersion ClusterNode.Reports
  rw [Option.bind_eq_some_iff]
  refine exists_congr fun reported => and_congr_right fun _ => ?_
  simp only [getD_splitOnce]
  rw [Option.ite_none_right_eq_some, isPlausibleNodeVersion_iff]
  constructor
  · rintro ⟨hmem, heq⟩
    obtain rfl := Option.some.inj heq
    rw [String.toList_ofList]
    exact ⟨rfl, hmem⟩
  · rintro ⟨heq, hmem⟩
    rw [← heq]
    exact ⟨hmem, congrArg some String.ofList_toList⟩

section Recorded

variable {clusterNodes : List ClusterNode} {pubkey version : String}

/-- The map has the last version that is reported under a key. -/
theorem get?_getClusterNodesVersions :
    (getClusterNodesVersions clusterNodes).get? pubkey = some version ↔
      ∃ before node after, clusterNodes = before ++ node :: after ∧ node.pubkey = pubkey ∧
        node.Reports version ∧
        ∀ other ∈ after, other.pubkey = pubkey → ∀ v, ¬ other.Reports v := by
  unfold getClusterNodesVersions
  rw [get?_ofList_iff]
  constructor
  · rintro ⟨rows, rows', heq, hlast⟩
    obtain ⟨before, rest, rfl, rfl, hrest⟩ := List.filterMap_eq_append_iff.mp heq
    obtain ⟨silent, node, after, rfl, -, hnode, rfl⟩ := List.filterMap_eq_cons_iff.mp hrest
    obtain ⟨v, hv, hkey⟩ := Option.map_eq_some_iff.mp hnode
    obtain ⟨rfl, rfl⟩ := Prod.mk.inj hkey
    refine ⟨before ++ silent, node, after, (List.append_assoc ..).symm, rfl,
      plausibleVersion_iff.mp hv, fun other hother hpubkey v' hv' => hlast ?_⟩
    refine List.mem_map.mpr ⟨(other.pubkey, v'), List.mem_filterMap.mpr ⟨other, hother, ?_⟩,
      hpubkey⟩
    rw [plausibleVersion_iff.mpr hv']
    rfl
  · rintro ⟨before, node, after, rfl, rfl, hv, hlast⟩
    rw [List.filterMap_append, List.filterMap_cons, plausibleVersion_iff.mpr hv]
    refine ⟨_, _, rfl, fun hmem => ?_⟩
    obtain ⟨row, hrow, hpubkey⟩ := List.mem_map.mp hmem
    obtain ⟨other, hother, hsome⟩ := List.mem_filterMap.mp hrow
    obtain ⟨v', hv', rfl⟩ := Option.map_eq_some_iff.mp hsome
    exact hlast other hother hpubkey v' (plausibleVersion_iff.mp hv')

end Recorded

/-- **Versions are accepted by their grammar**: a key has the version of the last node that
reports one of the form. So where the nodes have different keys, a node has a version exactly
if it reports one of the form, and it is the part before the first whitespace. -/
theorem getClusterNodesVersions_iff (clusterNodes : List ClusterNode) :
    (∀ pubkey version, (getClusterNodesVersions clusterNodes).get? pubkey = some version ↔
      ∃ before node after, clusterNodes = before ++ node :: after ∧ node.pubkey = pubkey ∧
        node.Reports version ∧
        ∀ other ∈ after, other.pubkey = pubkey → ∀ v, ¬ other.Reports v) ∧
    ((clusterNodes.map ClusterNode.pubkey).Nodup → ∀ node ∈ clusterNodes, ∀ version,
      (getClusterNodesVersions clusterNodes).get? node.pubkey = some version ↔
        node.Reports version) := by
  refine ⟨fun _ _ => get?_getClusterNodesVersions, fun hnodup node hnode version => ?_⟩
  rw [get?_getClusterNodesVersions]
  constructor
  · rintro ⟨before, node', after, heq, hpubkey, hv, -⟩
    have hnode' : node' ∈ clusterNodes :=
      heq ▸ List.mem_append_right _ List.mem_cons_self
    obtain rfl := List.inj_on_of_nodup_map hnodup hnode' hnode hpubkey
    exact hv
  · intro hv
    obtain ⟨before, after, rfl⟩ := List.append_of_mem hnode
    rw [List.map_append, List.map_cons] at hnodup
    refine ⟨before, node, after, rfl, rfl, hv, fun other hother hpubkey => ?_⟩
    -- a key does not come again
    have hafter := (List.nodup_cons.mp (List.nodup_append.mp hnodup).2.1).1
    exact absurd (hpubkey ▸ List.mem_map_of_mem hother) hafter

/-- A prerelease with more text, and a version with a part too many. -/
def twoNodes : List ClusterNode :=
  [⟨"node1", some "4.1.0-rc.1 (src:dev)"⟩, ⟨"node2", some "4.1.0.1"⟩]

theorem getClusterNodesVersions_iff_two :
    (∃ node ∈ twoNodes, node.Reports "4.1.0-rc.1") ∧
      ∃ node ∈ twoNodes, ∀ version, ¬ node.Reports version := by
  have h := (getClusterNodesVersions_iff twoNodes).2 (by decide)
  refine ⟨⟨⟨"node1", some "4.1.0-rc.1 (src:dev)"⟩, by decide, (h _ (by decide) _).mp ?_⟩,
    ⟨"node2", some "4.1.0.1"⟩, by decide, fun version hv => ?_⟩
  · decide
  · have hnone : (getClusterNodesVersions twoNodes).get? "node2" = none := by decide
    have hsome := (h ⟨"node2", some "4.1.0.1"⟩ (by decide) version).mpr hv
    rw [hnone] at hsome
    cases hsome

end DelegationStrategy.Collect
