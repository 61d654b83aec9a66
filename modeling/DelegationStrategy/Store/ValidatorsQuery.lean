import DelegationStrategy.Lib.Nulls
import DelegationStrategy.Store.Jito
import DelegationStrategy.Store.ValidatorRecords

/-!
# The query of `load_validators`

`load_validators` (`store/src/utils.rs`) joins `validators` with six relations: the last
epoch of `cluster_info`, the first epoch of each vote account, the date of that epoch,
`epochs`, and the newest rows of `mev` and `jito_priority_fee`. All are outer joins.

Each relation has at most one row for a row of `validators`: `cluster` has one row at all,
`validators_aggregated` is grouped by the vote account, `epochs` has the epoch as its key,
and `DISTINCT ON` keeps one of the rows of a vote account and an epoch, which in `mev` and
`jito_priority_fee` need not be the only one.

- `joinedRows_eq`: no row is multiplied, and none is lost.
- `validatorsQuery_eq`: the result has the rows of the latest epochs, the latest first, each
  with its partners.
- `newestCommission_latest`: the commissions joined to a row are of the rows created last.
-/

namespace DelegationStrategy.Store

open DelegationStrategy.Lib DelegationStrategy.Collect

/-! ## Tables -/

/-- The tables that `load_validators` reads, with the keys its joins rely on. `mev` and
`jito_priority_fee` have no key but a serial number. -/
structure LoadDatabase extends Database where
  mev : List (JitoRow MevColumns)
  jitoPriorityFee : List (JitoRow PriorityFeeColumns)
  /-- `PRIMARY KEY (vote_account, epoch)`. -/
  validatorsKey : PrimaryKey validators
  /-- `PRIMARY KEY(epoch)`. -/
  epochsKey : (epochs.map EpochsRow.epoch).Nodup

/-! ## The query -/

/-- A row of `validators_aggregated`. -/
structure FirstEpoch where
  voteAccount : String
  firstEpoch : Option Nat

/-- `SELECT vote_account, MIN(epoch) first_epoch FROM validators GROUP BY vote_account`. -/
def validatorsAggregated (validators : List ValidatorsRow) : List FirstEpoch :=
  (validators.map ValidatorsRow.voteAccount).dedup.map fun voteAccount =>
    { voteAccount := voteAccount
      firstEpoch := ((validators.filter fun row => row.voteAccount = voteAccount).map
        ValidatorsRow.epoch).min? }

/-- A row of `epochs_dates`. -/
structure EpochsDate where
  voteAccount : String
  startingEpoch : Option Nat
  startAt : Timestamp

/-- `validators_aggregated AS s JOIN epochs ON s.first_epoch = epochs.epoch`. -/
def epochsDates (aggregated : List FirstEpoch) (epochs : List EpochsRow) : List EpochsDate :=
  aggregated.flatMap fun s =>
    (epochs.filter fun epochsRow => s.firstEpoch = some epochsRow.epoch).map fun epochsRow =>
      ⟨s.voteAccount, s.firstEpoch, epochsRow.startAt⟩

/-- `cluster`: one row, with `NULL` if `cluster_info` is empty. -/
def clusterLastEpoch (db : Database) : List (Option Nat) :=
  [(db.clusterInfo.map ClusterInfoRow.epoch).max?]

/-- `DISTINCT ON (vote_account, epoch) … ORDER BY vote_account, epoch, created_at DESC`. -/
def newestJito {C : Type} (scan : Scan) (rows : List (JitoRow C)) : List (JitoRow C) :=
  distinctOn JitoRow.key JitoRow.createdAt (scan.order rows)

/-- A row of the joins. -/
structure LoadJoin where
  validator : ValidatorsRow
  cluster : Option (Option Nat)
  aggregated : Option FirstEpoch
  dates : Option EpochsDate
  epochs : Option EpochsRow
  mev : Option (JitoRow MevColumns)
  jpf : Option (JitoRow PriorityFeeColumns)

/-- The joins. -/
def loadJoins (scan : Scan) (db : LoadDatabase) : List LoadJoin :=
  let aggregated := validatorsAggregated db.validators
  let rows := leftJoin (fun _ _ => true) (scan.order db.validators)
    (clusterLastEpoch db.toDatabase)
  let rows := leftJoin (fun row s => decide (s.voteAccount = row.1.voteAccount)) rows aggregated
  let rows := leftJoin (fun row dates => decide (dates.voteAccount = row.1.1.voteAccount)) rows
    (epochsDates aggregated db.epochs)
  let rows := leftJoin (fun row epochsRow => decide (epochsRow.epoch = row.1.1.1.epoch)) rows
    db.epochs
  let rows := leftJoin (fun row mev =>
    decide (mev.key = (row.1.1.1.1.voteAccount, row.1.1.1.1.epoch))) rows (newestJito scan db.mev)
  let rows := leftJoin (fun row jpf =>
    decide (jpf.key = (row.1.1.1.1.1.voteAccount, row.1.1.1.1.1.epoch))) rows
      (newestJito scan db.jitoPriorityFee)
  rows.map fun row =>
    ⟨row.1.1.1.1.1.1, row.1.1.1.1.1.2, row.1.1.1.1.2, row.1.1.1.2, row.1.1.2, row.1.2, row.2⟩

/-- A row of the result. -/
structure LoadedRow where
  validator : ValidatorsRow
  epochStart : Option Timestamp
  epochEnd : Option Timestamp
  startingEpoch : Nat
  startingEpochDate : Option Timestamp
  mevCommissionBps : Option Int
  priorityCommissionBps : Option Int
  firstEpoch : Option Nat

/-- The `SELECT` list; the columns of `validators` are read from the row. -/
def LoadJoin.select (row : LoadJoin) : LoadedRow where
  validator := row.validator
  epochStart := row.epochs.map EpochsRow.startAt
  epochEnd := row.epochs.map EpochsRow.endAt
  startingEpoch := (row.dates.bind EpochsDate.startingEpoch).getD 0
  startingEpochDate := row.dates.map EpochsDate.startAt
  mevCommissionBps := row.mev.map fun mev => mev.columns.mevCommission
  priorityCommissionBps := row.jpf.map fun jpf => jpf.columns.validatorCommission
  firstEpoch := row.aggregated.bind FirstEpoch.firstEpoch

/-- `validators.epoch > cluster.last_epoch - $1`; a comparison with `NULL` selects nothing. -/
def LoadJoin.displayed (displayEpochs : Nat) (row : LoadJoin) : Bool :=
  row.cluster.join.any fun lastEpoch =>
    decide ((lastEpoch : Int) - displayEpochs < row.validator.epoch)

/-- The rows that the query returns, `ORDER BY epoch DESC`. -/
def validatorsQuery (scan : Scan) (displayEpochs : Nat) (db : LoadDatabase) : List LoadedRow :=
  (((loadJoins scan db).filter (LoadJoin.displayed displayEpochs)).insertionSort
    fun a b => b.validator.epoch ≤ a.validator.epoch).map LoadJoin.select

/-! ## The joins -/

section Joins

variable {scan : Scan} {db : LoadDatabase}

theorem nodup_validatorsAggregated (validators : List ValidatorsRow) :
    ((validatorsAggregated validators).map FirstEpoch.voteAccount).Nodup := by
  unfold validatorsAggregated
  rw [List.map_map]
  show (List.map id _).Nodup
  rw [List.map_id]
  exact List.nodup_dedup _

/-- A vote account has one first epoch, and that epoch one date. -/
theorem nodup_epochsDates {aggregated : List FirstEpoch} {epochs : List EpochsRow}
    (haggregated : (aggregated.map FirstEpoch.voteAccount).Nodup)
    (hepochs : (epochs.map EpochsRow.epoch).Nodup) :
    ((epochsDates aggregated epochs).map EpochsDate.voteAccount).Nodup := by
  have hsub : ((epochsDates aggregated epochs).map EpochsDate.voteAccount).Sublist
      (aggregated.map FirstEpoch.voteAccount) := by
    clear haggregated
    induction aggregated with
    | nil => exact List.Sublist.refl _
    | cons s aggregated ih =>
      have hone : (epochs.filter fun epochsRow => s.firstEpoch = some epochsRow.epoch) =
          (epochs.find? fun epochsRow => s.firstEpoch = some epochsRow.epoch).toList := by
        refine filter_eq_toList_find? ((List.pairwise_map.mp hepochs).imp ?_)
        intro b b' hne hboth
        simp only [decide_eq_true_eq] at hboth
        exact hne (Option.some.inj (hboth.1.symm.trans hboth.2))
      unfold epochsDates at ih ⊢
      rw [List.flatMap_cons, hone, List.map_append, List.map_cons]
      cases epochs.find? fun epochsRow => s.firstEpoch = some epochsRow.epoch with
      | none => exact ih.cons _
      | some epochsRow => exact ih.cons_cons _
  exact haggregated.sublist hsub

/-- A row of `validators` with its partners. -/
def loadJoin (scan : Scan) (db : LoadDatabase) (row : ValidatorsRow) : LoadJoin where
  validator := row
  cluster := some (db.clusterInfo.map ClusterInfoRow.epoch).max?
  aggregated := (validatorsAggregated db.validators).find? fun s =>
    decide (s.voteAccount = row.voteAccount)
  dates := (epochsDates (validatorsAggregated db.validators) db.epochs).find? fun dates =>
    decide (dates.voteAccount = row.voteAccount)
  epochs := db.epochs.find? fun epochsRow => decide (epochsRow.epoch = row.epoch)
  mev := latest JitoRow.key JitoRow.createdAt (scan.order db.mev) (row.voteAccount, row.epoch)
  jpf := latest JitoRow.key JitoRow.createdAt (scan.order db.jitoPriorityFee)
    (row.voteAccount, row.epoch)

/-- **The joins do not fan out**, and lose no row. -/
theorem loadJoins_eq (scan : Scan) (db : LoadDatabase) :
    loadJoins scan db = (scan.order db.validators).map (loadJoin scan db) := by
  have hcluster : leftJoin (fun _ _ => true) (scan.order db.validators)
      (clusterLastEpoch db.toDatabase) = (scan.order db.validators).map fun row =>
        (row, some (db.clusterInfo.map ClusterInfoRow.epoch).max?) :=
    leftJoin_eq_map fun _ _ => List.pairwise_singleton _ _
  have haggregated := nodup_validatorsAggregated db.validators
  unfold loadJoins
  simp only [hcluster, leftJoin_key haggregated,
    leftJoin_key (nodup_epochsDates haggregated db.epochsKey), leftJoin_key db.epochsKey]
  unfold newestJito
  rw [leftJoin_key (nodup_distinctOn _), leftJoin_key (nodup_distinctOn _)]
  simp only [List.map_map]
  refine List.map_congr_left fun row _ => ?_
  simp only [Function.comp_apply, find?_distinctOn]
  rfl

/-- A row of `validators` as the query returns it. -/
def loadedRow (scan : Scan) (db : LoadDatabase) (row : ValidatorsRow) : LoadedRow :=
  (loadJoin scan db row).select

/-- **The result** has the rows of the latest epochs, the latest first, each once. -/
theorem validatorsQuery_eq (scan : Scan) (displayEpochs : Nat) (db : LoadDatabase) :
    validatorsQuery scan displayEpochs db =
      (validatorsRows scan displayEpochs db.toDatabase).map (loadedRow scan db) := by
  have hsort : ∀ rows : List ValidatorsRow,
      (rows.map (loadJoin scan db)).insertionSort
          (fun a b => b.validator.epoch ≤ a.validator.epoch) =
        (rows.insertionSort fun row row' => row'.epoch ≤ row.epoch).map (loadJoin scan db) :=
    fun rows => (List.map_insertionSort (fun row row' : ValidatorsRow => row'.epoch ≤ row.epoch)
      (fun a b : LoadJoin => b.validator.epoch ≤ a.validator.epoch) (loadJoin scan db) rows
      fun _ _ _ _ => Iff.rfl).symm
  unfold validatorsQuery validatorsRows
  rw [loadJoins_eq, List.filter_map, hsort, List.map_map]
  cases hlast : (db.clusterInfo.map ClusterInfoRow.epoch).max? with
  | none =>
    have hnone : (scan.order db.validators).filter
        (LoadJoin.displayed displayEpochs ∘ loadJoin scan db) = [] := by
      refine List.filter_eq_nil_iff.mpr fun row _ => ?_
      simp [LoadJoin.displayed, loadJoin, hlast]
    rw [hnone]
    rfl
  | some lastEpoch =>
    have hfilter : (scan.order db.validators).filter
        (LoadJoin.displayed displayEpochs ∘ loadJoin scan db) =
        (scan.order db.validators).filter fun row =>
          (lastEpoch : Int) - displayEpochs < row.epoch := by
      refine List.filter_congr fun row _ => ?_
      simp [LoadJoin.displayed, loadJoin, hlast]
    rw [hfilter]
    rfl

end Joins

/-! ## The rows of a vote account -/

/-- The row is of the last `display_epochs` epochs, counted from `cluster_info`. -/
def Displayed (db : Database) (displayEpochs : Nat) (row : ValidatorsRow) : Prop :=
  ∃ lastEpoch, (db.clusterInfo.map ClusterInfoRow.epoch).max? = some lastEpoch ∧
    lastEpoch < row.epoch + displayEpochs

theorem mem_validatorsRows {scan : Scan} {displayEpochs : Nat} {db : Database}
    {row : ValidatorsRow} :
    row ∈ validatorsRows scan displayEpochs db ↔
      row ∈ db.validators ∧ Displayed db displayEpochs row := by
  unfold validatorsRows Displayed
  cases hlast : (db.clusterInfo.map ClusterInfoRow.epoch).max? with
  | none => simp
  | some lastEpoch =>
    simp only [List.mem_insertionSort, List.mem_filter, scan.mem_order, decide_eq_true_eq,
      Option.some.injEq, exists_eq_left']
    refine and_congr_right fun _ => ?_
    omega

/-- The rows of a vote account come in strictly descending order of their epochs. -/
theorem pairwise_validatorsRows (scan : Scan) (displayEpochs : Nat) {db : Database}
    (hkey : PrimaryKey db.validators) (voteAccount : String) :
    ((validatorsRows scan displayEpochs db).filter fun row =>
      row.voteAccount = voteAccount).Pairwise fun row row' => row'.epoch < row.epoch := by
  have hsorted : (validatorsRows scan displayEpochs db).Pairwise fun row row' =>
      row'.epoch ≤ row.epoch := by
    unfold validatorsRows
    split
    · exact List.pairwise_insertionSort _ _
    · exact List.Pairwise.nil
  have hnodup : ((validatorsRows scan displayEpochs db).map fun row =>
      (row.voteAccount, row.epoch)).Nodup := by
    unfold validatorsRows
    split
    · refine ((List.perm_insertionSort _ _).map _).nodup_iff.mpr ?_
      refine List.Nodup.sublist (List.filter_sublist.map _) ?_
      exact ((scan.perm _).map _).nodup_iff.mpr hkey
    · exact List.nodup_nil
  have hboth := (hsorted.and (List.pairwise_map.mp hnodup)).filter
    fun row => decide (row.voteAccount = voteAccount)
  refine hboth.imp_of_mem fun {row row'} hrow hrow' h => ?_
  have hvote : row.voteAccount = voteAccount := by simpa using List.of_mem_filter hrow
  have hvote' : row'.voteAccount = voteAccount := by simpa using List.of_mem_filter hrow'
  refine lt_of_le_of_ne h.1 fun heq => h.2 ?_
  rw [hvote, hvote', heq]

/-! ## The commissions -/

/-- The commission of a row of the vote account and epoch that was created last, and none
if there is no such row. -/
structure NewestCommission {C : Type} (table : List (JitoRow C)) (commission : C → Int)
    (k : String × Nat) (value : Option Int) : Prop where
  none_iff : value = none ↔ ∀ row ∈ table, row.key ≠ k
  newest : ∀ c, value = some c → ∃ row ∈ table, row.key = k ∧ commission row.columns = c ∧
    ∀ row' ∈ table, row'.key = k → row'.createdAt ≤ row.createdAt

theorem newestCommission_latest {C : Type} (scan : Scan) (table : List (JitoRow C))
    (commission : C → Int) (k : String × Nat) :
    NewestCommission table commission k
      ((latest JitoRow.key JitoRow.createdAt (scan.order table) k).map fun row =>
        commission row.columns) where
  none_iff := by
    rw [Option.map_eq_none_iff, latest_eq_none_iff]
    simp only [scan.mem_order]
  newest c hc := by
    obtain ⟨row, hlatest, hcommission⟩ := Option.map_eq_some_iff.mp hc
    obtain ⟨hrow, hkey, hmax⟩ := latest_spec hlatest
    refine ⟨row, scan.mem_order.mp hrow, hkey, hcommission, fun row' hrow' hkey' => ?_⟩
    exact hmax row' (scan.mem_order.mpr hrow') hkey'

end DelegationStrategy.Store
