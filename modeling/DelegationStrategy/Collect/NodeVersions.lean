import DelegationStrategy.Lib.Query

/-!
# The versions that gossip reports

`get_cluster_nodes_versions` (`collect/src/solana_service.rs`) reads the versions of the
cluster nodes: what stands after a whitespace is cut off, and a malformed version is dropped,
as if the node had not reported one. So every version that is collected is plausible
(`plausible_of_get?`).
-/

namespace DelegationStrategy.Collect

open DelegationStrategy.Lib

/-- `str::split_once`: what stands before and after the first character of a kind. -/
def splitOnce (separator : Char → Bool) : List Char → Option (List Char × List Char)
  | [] => none
  | c :: rest =>
    if separator c then some ([], rest)
    else (splitOnce separator rest).map fun (before, after) => (c :: before, after)

/-- `char::is_whitespace`, the property `White_Space` of Unicode. -/
def isWhitespace (c : Char) : Bool :=
  (0x9 ≤ c.toNat && c.toNat ≤ 0xd) || c.toNat == 0x20 || c.toNat == 0x85 || c.toNat == 0xa0 ||
    c.toNat == 0x1680 || (0x2000 ≤ c.toNat && c.toNat ≤ 0x200a) || c.toNat == 0x2028 ||
    c.toNat == 0x2029 || c.toNat == 0x202f || c.toNat == 0x205f || c.toNat == 0x3000

def isAsciiDigit (c : Char) : Bool := '0' ≤ c && c ≤ '9'

def isAsciiAlphanumeric (c : Char) : Bool :=
  isAsciiDigit c || ('a' ≤ c && c ≤ 'z') || ('A' ≤ c && c ≤ 'Z')

/-- The closure `numeric`. -/
def numeric (p : List Char) : Bool := !p.isEmpty && p.all isAsciiDigit

/-- The patch number, with a prerelease or without. -/
def plausiblePatch (p : List Char) : Bool :=
  match splitOnce (· == '-') p with
  | none => numeric p
  | some (patch, prerelease) =>
    numeric patch && !prerelease.isEmpty &&
      prerelease.all fun c => isAsciiAlphanumeric c || c == '.'

/-- `is_plausible_node_version`: three parts, the last one with all that is left. -/
def isPlausibleNodeVersion (version : List Char) : Bool :=
  match splitOnce (· == '.') version with
  | none => false
  | some (major, rest) =>
    match splitOnce (· == '.') rest with
    | none => false
    | some (minor, patch) => numeric major && numeric minor && plausiblePatch patch

example : isPlausibleNodeVersion "4.2.0-beta.0".toList = true := by decide

example : isPlausibleNodeVersion "4.1.0.1".toList = false := by decide

/-- What gossip knows of a node, as far as it is read. -/
structure ClusterNode where
  pubkey : String
  version : Option String
  deriving DecidableEq, Repr

/-- The version of a node, if it is plausible. -/
def ClusterNode.plausibleVersion (node : ClusterNode) : Option String :=
  node.version.bind fun version =>
    let version := ((splitOnce isWhitespace version.toList).map Prod.fst).getD version.toList
    if isPlausibleNodeVersion version then some (String.ofList version) else none

/-- `get_cluster_nodes_versions`. -/
def getClusterNodesVersions (clusterNodes : List ClusterNode) : Dict String String :=
  Dict.ofList (clusterNodes.filterMap fun node =>
    node.plausibleVersion.map fun version => (node.pubkey, version))

section Versions

variable {clusterNodes : List ClusterNode} {pubkey version : String}

/-- A malformed version is never collected. -/
theorem plausible_of_get? (h : (getClusterNodesVersions clusterNodes).get? pubkey = some version) :
    isPlausibleNodeVersion version.toList ∧
      ∃ node ∈ clusterNodes, node.pubkey = pubkey ∧ node.plausibleVersion = some version := by
  have hmem := Dict.mem_of_mem_ofList (Dict.mem_of_get? h)
  obtain ⟨node, hnode, hsome⟩ := List.mem_filterMap.mp hmem
  obtain ⟨version', hversion, heq⟩ := Option.map_eq_some_iff.mp hsome
  obtain ⟨rfl, rfl⟩ := Prod.mk.inj heq
  refine ⟨?_, node, hnode, rfl, hversion⟩
  obtain ⟨reported, -, hite⟩ := Option.bind_eq_some_iff.mp hversion
  obtain ⟨hversion', heq'⟩ := Option.ite_none_right_eq_some.mp hite
  rw [← Option.some.inj heq', String.toList_ofList]
  exact hversion'

end Versions

end DelegationStrategy.Collect
