import DelegationStrategy.Collect.Snapshot
import DelegationStrategy.Lib.ChangeLog
import DelegationStrategy.Store.Run

/-!
# The `commissions` and `versions` tables

`store_commissions` (`store/src/commissions.rs`) and `store_versions`
(`store/src/versions.rs`) are the same program up to the recorded value: they
read the latest row of every vote account, skip the validators of the snapshot
whose latest row has the snapshot's epoch and value, and insert a row for all
the others. `storeChanges` is that program; it updates a change log whose values
are pairs of an epoch and a commission or version (`storeChanges_records`), so
the tables are lossless minimal change logs (`changeTables_lossless`).
-/

namespace DelegationStrategy.Store

open DelegationStrategy.Lib DelegationStrategy.Collect

/-- A row of `commissions` or `versions`. -/
structure ChangeRow (β : Type) where
  voteAccount : String
  /-- The column `commission` or `version`. -/
  value : β
  epochSlot : Nat
  epoch : Nat
  createdAt : Timestamp
  deriving DecidableEq, Repr

/-- `commission INTEGER NOT NULL`. -/
abbrev CommissionRow := ChangeRow Int

/-- `version TEXT`. -/
abbrev VersionRow := ChangeRow (Option String)

section StoreChanges

variable {β : Type} [DecidableEq β]

/-- The vote accounts whose latest row already has the snapshot's epoch and
value. -/
def skippedVoteAccounts (value : ValidatorPerformance → β) (scan : Scan)
    (snapshot : ValidatorsPerformanceSnapshot) (table : List (ChangeRow β)) :
    List String :=
  (distinctOn ChangeRow.voteAccount ChangeRow.createdAt (scan.order table)).filterMap
    fun row =>
      match snapshot.validators.get? row.voteAccount with
      | some validatorSnapshot =>
        if row.epoch = snapshot.epoch ∧ row.value = value validatorSnapshot then
          some row.voteAccount
        else none
      | none => none

/-- The rows to insert, in the order of the iteration over the snapshot. -/
def changedRows (value : ValidatorPerformance → β)
    (snapshot : ValidatorsPerformanceSnapshot) (skipped : List String) :
    List (ChangeRow β) :=
  (snapshot.validators.entries.filter fun e => e.1 ∉ skipped).map fun e =>
    { voteAccount := e.1
      value := value e.2
      epochSlot := snapshot.epochSlot
      epoch := snapshot.epoch
      createdAt := snapshot.createdAt }

/-- The program of `store_commissions` and `store_versions`: one query, one
`INSERT` with five parameters for each row (none if there is no row). -/
def storeChanges (value : ValidatorPerformance → β) (scan : Scan)
    (snapshot : ValidatorsPerformanceSnapshot) (table : List (ChangeRow β)) :
    Except DbError (List (ChangeRow β)) :=
  let rows := changedRows value snapshot (skippedVoteAccounts value scan snapshot table)
  withParams (5 * rows.length) (.ok (table ++ rows))

end StoreChanges

/-- `store_commissions`: the recorded value is `commission as i32`. -/
def storeCommissions : Scan → ValidatorsPerformanceSnapshot → List CommissionRow →
    Except DbError (List CommissionRow) :=
  storeChanges fun v => v.commission.toNat

/-- `store_versions`: the recorded value is the optional version. -/
def storeVersions : Scan → ValidatorsPerformanceSnapshot → List VersionRow →
    Except DbError (List VersionRow) :=
  storeChanges fun v => v.version

/-! ## The tables as change logs -/

section Lossless

variable {β : Type} [DecidableEq β]

/-- The latest row of a vote account among those with `created_at` not after
`t`. -/
def latestRowAt (table : List (ChangeRow β)) (t : Timestamp) (voteAccount : String) :
    Option (ChangeRow β) :=
  latest ChangeRow.voteAccount ChangeRow.createdAt
    (table.filter fun row => row.createdAt ≤ t) voteAccount

/-- The rows of a vote account, in the order of their insertion. -/
def rowsOf (table : List (ChangeRow β)) (voteAccount : String) : List (ChangeRow β) :=
  table.filter fun row => row.voteAccount = voteAccount

/-- The table is a lossless minimal change log of the snapshots stored so far. -/
structure ChangeTable (value : ValidatorPerformance → β)
    (snapshots : List ValidatorsPerformanceSnapshot) (table : List (ChangeRow β)) :
    Prop where
  /-- Each observation can be read back from the table. -/
  lossless : ∀ snapshot ∈ snapshots, ∀ voteAccount v,
    snapshot.validators.get? voteAccount = some v →
      ∃ row, latestRowAt table snapshot.createdAt voteAccount = some row ∧
        row.epoch = snapshot.epoch ∧ row.value = value v
  /-- Rows of a vote account are inserted in the order of `created_at`. -/
  ordered : ∀ voteAccount, (rowsOf table voteAccount).Pairwise fun row row' =>
    row.createdAt < row'.createdAt
  /-- Consecutive rows of a vote account differ in the epoch or the value. -/
  minimal : ∀ voteAccount, (rowsOf table voteAccount).IsChain fun row row' =>
    ¬ (row.epoch = row'.epoch ∧ row.value = row'.value)

/-- A table as a change log of pairs of an epoch and a value. -/
def changeView : LogView (ChangeRow β) String Timestamp (Nat × β) where
  key := ChangeRow.voteAccount
  time := ChangeRow.createdAt
  value row := (row.epoch, row.value)

/-- What a snapshot says about the recorded value. -/
def observation (value : ValidatorPerformance → β)
    (snapshot : ValidatorsPerformanceSnapshot) : Observation String Timestamp (Nat × β) where
  time := snapshot.createdAt
  seen := snapshot.validators.mapVal fun v => (snapshot.epoch, value v)

variable {value : ValidatorPerformance → β} {scan : Scan}
  {snapshot : ValidatorsPerformanceSnapshot} {table table' : List (ChangeRow β)}

omit [DecidableEq β] in
theorem observation_eq_some {voteAccount : String} {b : Nat × β} :
    (observation value snapshot).seen.get? voteAccount = some b ↔
      ∃ v, snapshot.validators.get? voteAccount = some v ∧
        (snapshot.epoch, value v) = b := by
  show (snapshot.validators.mapVal _).get? voteAccount = some b ↔ _
  rw [Dict.get?_mapVal]
  exact Option.map_eq_some_iff

/-- A vote account is skipped if its latest row says what the snapshot says. -/
theorem mem_skippedVoteAccounts
    (hord : ∀ k, (changeView.rowsOf table k).Pairwise fun row row' =>
      changeView.time row < changeView.time row') {voteAccount : String} :
    voteAccount ∈ skippedVoteAccounts value scan snapshot table ↔
      ∃ v, snapshot.validators.get? voteAccount = some v ∧
        (changeView.last table voteAccount).map changeView.value =
          some (snapshot.epoch, value v) := by
  have hlatest : ∀ k, latest ChangeRow.voteAccount ChangeRow.createdAt
      (scan.order table) k = changeView.last table k := fun k =>
    (latest_perm (scan.perm table).symm (eq_of_pairwise_lt hord) k).symm
  unfold skippedVoteAccounts
  rw [List.mem_filterMap]
  constructor
  · rintro ⟨row, hrow, hskip⟩
    rw [mem_distinctOn, hlatest] at hrow
    cases hget : snapshot.validators.get? row.voteAccount with
    | none => simp [hget] at hskip
    | some v =>
      rw [hget] at hskip
      obtain ⟨⟨hepoch, hvalue⟩, hkey⟩ := Option.ite_none_right_eq_some.mp hskip
      obtain rfl := Option.some.inj hkey
      refine ⟨v, hget, ?_⟩
      rw [hrow, Option.map_some, ← hepoch, ← hvalue]
      rfl
  · rintro ⟨v, hget, hlast⟩
    obtain ⟨row, hrow, hvalue⟩ := Option.map_eq_some_iff.mp hlast
    have hkey : row.voteAccount = voteAccount := (latest_spec hrow).2.1
    subst hkey
    refine ⟨row, mem_distinctOn.mpr ((hlatest _).trans hrow), ?_⟩
    rw [hget]
    exact if_pos (Prod.mk.inj hvalue)

/-- **A store command is one update of the change log.** -/
theorem changedRows_records (scan : Scan)
    (hord : ∀ k, (changeView.rowsOf table k).Pairwise fun row row' =>
      changeView.time row < changeView.time row') :
    changeView.Records table (observation value snapshot)
      (table ++ changedRows value snapshot
        (skippedVoteAccounts value scan snapshot table)) := by
  refine ⟨_, rfl, ?_, fun row hrow => ?_, fun voteAccount b hb => ?_⟩
  · -- the accounts of the new rows are among the keys of the snapshot
    have hkeys : (changedRows value snapshot
        (skippedVoteAccounts value scan snapshot table)).map changeView.key =
        (snapshot.validators.entries.filter fun e =>
          e.1 ∉ skippedVoteAccounts value scan snapshot table).map Prod.fst := by
      rw [changedRows, List.map_map]
      rfl
    rw [hkeys]
    exact snapshot.validators.nodup.sublist (List.filter_sublist.map _)
  · obtain ⟨⟨voteAccount, v⟩, hmem, rfl⟩ := List.mem_map.mp hrow
    obtain ⟨hentry, hskip⟩ := List.mem_filter.mp hmem
    have hget := Dict.get?_of_mem hentry
    refine ⟨rfl, observation_eq_some.mpr ⟨v, hget, rfl⟩, fun hlast => ?_⟩
    exact (of_decide_eq_true hskip) ((mem_skippedVoteAccounts hord).mpr ⟨v, hget, hlast⟩)
  · obtain ⟨v, hget, rfl⟩ := observation_eq_some.mp hb
    by_cases hskip : voteAccount ∈ skippedVoteAccounts value scan snapshot table
    · obtain ⟨v', hget', hlast⟩ := (mem_skippedVoteAccounts hord).mp hskip
      obtain rfl : v = v' := Option.some.inj (hget.symm.trans hget')
      exact Or.inl hlast
    · refine Or.inr ⟨_, List.mem_map.mpr ⟨(voteAccount, v), ?_, rfl⟩, rfl⟩
      exact List.mem_filter.mpr ⟨Dict.mem_of_get? hget, decide_eq_true hskip⟩

/-- One store command keeps the change log. -/
theorem storeChanges_inv {past : List ValidatorsPerformanceSnapshot}
    (hinv : changeView.Inv table (past.map (observation value)))
    (hlater : ∀ s ∈ past, s.createdAt < snapshot.createdAt)
    (h : storeChanges value scan snapshot table = .ok table') :
    changeView.Inv table' ((past ++ [snapshot]).map (observation value)) := by
  obtain rfl := Except.ok.inj (withParams_eq_ok h)
  rw [List.map_append]
  refine LogView.inv_records hinv (fun o ho => ?_) (changedRows_records _ hinv.ordered)
  obtain ⟨s, hs, rfl⟩ := List.mem_map.mp ho
  exact hlater s hs

omit [DecidableEq β] in
/-- What the change log keeps, in terms of the table. -/
theorem changeTable_of_inv {snapshots : List ValidatorsPerformanceSnapshot}
    (hinv : changeView.Inv table (snapshots.map (observation value))) :
    ChangeTable value snapshots table where
  lossless snapshot hs voteAccount v hget := by
    have hlast := hinv.lossless _ (List.mem_map_of_mem hs) voteAccount _
      (observation_eq_some.mpr ⟨v, hget, rfl⟩)
    obtain ⟨row, hrow, hvalue⟩ := Option.map_eq_some_iff.mp hlast
    exact ⟨row, hrow, Prod.mk.inj hvalue⟩
  ordered := hinv.ordered
  minimal voteAccount := (hinv.minimal voteAccount).imp fun _ _ hne hsame =>
    hne (Prod.ext hsame.1 hsame.2)

/-- Storing the last snapshot again, whatever the orders of the query and of the
hash map, adds no row. -/
theorem storeChanges_again {past : List ValidatorsPerformanceSnapshot}
    {last : ValidatorsPerformanceSnapshot} {validators : Dict String ValidatorPerformance}
    (hinv : changeView.Inv table ((past ++ [last]).map (observation value)))
    (htimes : (past ++ [last]).Pairwise fun s s' => s.createdAt < s'.createdAt)
    (hperm : validators.entries.Perm last.validators.entries) :
    storeChanges value scan { last with validators := validators } table = .ok table := by
  rw [List.map_append] at hinv
  have hsame : ∀ k, (observation value { last with validators := validators }).seen.get? k =
      (observation value last).seen.get? k := by
    intro k
    show (validators.mapVal _).get? k = (last.validators.mapVal _).get? k
    rw [Dict.get?_mapVal, Dict.get?_mapVal, Dict.get?_perm hperm]
  have hagain := LogView.records_again hinv (fun o ho => ?_) hsame
    (changedRows_records scan hinv.ordered)
  · have hnil := List.self_eq_append_right.mp hagain.symm
    unfold storeChanges
    rw [hnil]
    show withParams 0 (.ok (table ++ [])) = .ok table
    rw [List.append_nil]
    rfl
  · obtain ⟨s, hs, rfl⟩ := List.mem_map.mp ho
    exact (List.pairwise_append.mp htimes).2.2 s hs _ (List.mem_singleton_self _)

/-- A run of store commands over snapshots with increasing times leaves a
lossless minimal change log, which storing the last snapshot again leaves as it
is. -/
theorem storeAll_changeTable {runs : List (Scan × ValidatorsPerformanceSnapshot)}
    (htimes : (runs.map Prod.snd).Pairwise fun s s' => s.createdAt < s'.createdAt)
    (h : storeAll (storeChanges value) runs [] = .ok table) :
    ChangeTable value (runs.map Prod.snd) table ∧
      ∀ last ∈ (runs.map Prod.snd).getLast?, ∀ scan (validators : Dict String _),
        validators.entries.Perm last.validators.entries →
          storeChanges value scan { last with validators := validators } table =
            .ok table := by
  have hinv : changeView.Inv table (([] ++ runs.map Prod.snd).map (observation value)) :=
    storeAll_inv (fun _ _ _ _ _ hinv hlater h => storeChanges_inv hinv hlater h)
      (LogView.inv_nil _) htimes h
  refine ⟨changeTable_of_inv hinv, fun last hlast scan validators hperm => ?_⟩
  obtain ⟨past, hruns⟩ := List.getLast?_eq_some_iff.mp (Option.mem_def.mp hlast)
  rw [hruns] at hinv htimes
  exact storeChanges_again hinv htimes hperm

end Lossless

/-- **The `commissions` and `versions` tables are lossless minimal change logs**
of every sequence of snapshots with increasing `created_at`. -/
theorem changeTables_lossless (runs : List (Scan × ValidatorsPerformanceSnapshot))
    (htimes : (runs.map Prod.snd).Pairwise fun s s' => s.createdAt < s'.createdAt) :
    (∀ table, storeAll storeCommissions runs [] = .ok table →
      ChangeTable (fun v => (v.commission.toNat : Int)) (runs.map Prod.snd) table ∧
        ∀ last ∈ (runs.map Prod.snd).getLast?, ∀ scan (validators : Dict String _),
          validators.entries.Perm last.validators.entries →
            storeCommissions scan { last with validators := validators } table = .ok table) ∧
    ∀ table, storeAll storeVersions runs [] = .ok table →
      ChangeTable (fun v => v.version) (runs.map Prod.snd) table ∧
        ∀ last ∈ (runs.map Prod.snd).getLast?, ∀ scan (validators : Dict String _),
          validators.entries.Perm last.validators.entries →
            storeVersions scan { last with validators := validators } table = .ok table :=
  ⟨fun _ h => storeAll_changeTable htimes h, fun _ h => storeAll_changeTable htimes h⟩

/-- A commission that rises, stays and falls back leaves three rows. -/
theorem changeTables_lossless_flip :
    ChangeTable (fun v => (v.commission.toNat : Int))
      [singleSnapshot 0 5 false, singleSnapshot 1 7 false, singleSnapshot 2 7 false,
        singleSnapshot 3 5 false]
      [⟨"vote", 5, 1000, 500, 0⟩, ⟨"vote", 7, 1000, 500, 1⟩, ⟨"vote", 5, 1000, 500, 3⟩] :=
  ((changeTables_lossless
    [(.sequential, singleSnapshot 0 5 false), (.sequential, singleSnapshot 1 7 false),
      (.sequential, singleSnapshot 2 7 false), (.sequential, singleSnapshot 3 5 false)]
    (by decide)).1 _ rfl).1

end DelegationStrategy.Store
