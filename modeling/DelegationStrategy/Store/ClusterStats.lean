import DelegationStrategy.Store.Ruggers
import DelegationStrategy.Store.Scoring
import DelegationStrategy.Store.ValidatorRecords

/-!
# Cluster statistics

`load_cluster_stats` (`store/src/utils.rs`) loads the block production and the concentration
of stake in data centers for a number of epochs, and the cache hands out the newest of them.
Both loaders compute the same first epoch. `load_dc_concentration_stats` begins with it, in
an inclusive range; `load_block_production_stats` asks for the epochs *after* it.

So the concentration covers the epochs asked for (`epochs_loadDcConcentrationStats`), and
the block production one epoch less (`epochs_loadBlockProductionStats`). Quotients of stakes
are exact here; `none` stands for a quotient that is not a number.
-/

namespace DelegationStrategy.Store

open DelegationStrategy.Lib DelegationStrategy.Collect

/-! ## Loading -/

structure DCConcentrationStats where
  epoch : Nat
  totalActivatedStake : UInt64
  dcConcentrationByAso : Dict String (Option Rat)
  dcStakeByAso : Dict String UInt64
  dcConcentrationByAsn : Dict String (Option Rat)
  dcStakeByAsn : Dict String UInt64
  dcConcentrationByCity : Dict String (Option Rat)
  dcStakeByCity : Dict String UInt64
  dcConcentrationByCountry : Dict String (Option Rat)
  dcStakeByCountry : Dict String UInt64

structure BlockProductionStats where
  epoch : Nat
  blocksProduced : Nat
  leaderSlots : Nat
  avgSkipRate : Rat

structure ClusterStats where
  blockProductionStats : List BlockProductionStats
  dcConcentrationStats : List DCConcentrationStats

/-- `first_epoch`, as both loaders compute it. -/
def firstEpoch (lastEpoch epochs : Nat) : Nat := lastEpoch - min epochs lastEpoch + 1

/-- The stakes of an epoch, by where the validators run. -/
structure DcStakes where
  byAso : Dict String UInt64 := Dict.empty
  byAsn : Dict String UInt64 := Dict.empty
  byCity : Dict String UInt64 := Dict.empty
  byCountry : Dict String UInt64 := Dict.empty
  totalActiveStake : UInt64 := 0

/-- `*(map.entry(key).or_insert(Default::default())) += stake`. -/
def addStake (stakes : Dict String UInt64) (key : String) (stake : UInt64) :
    Dict String UInt64 :=
  stakes.insert key ((stakes.get? key).getD 0 + stake)

/-- A row is added; `none` if the stake is no `u64`. -/
def DcStakes.addRow (stakes : DcStakes) (row : ValidatorsRow) : Option DcStakes := do
  let activatedStake := UInt64.ofNat (← decimalToU64 row.activatedStake)
  let dcAso := row.dcAso.getD "Unknown"
  let dcAsn := row.dcAsn.elim "Unknown" toString
  -- `CONCAT` ignores `NULL`, so the city is never unknown
  let dcFullCity := some (row.dcContinent.getD "" ++ "/" ++ row.dcCountry.getD "" ++ "/" ++
    row.dcCity.getD "")
  let dcCity := dcFullCity.getD "Unknown"
  let dcCountry := row.dcCountry.getD "Unknown"
  some {
    byAso := addStake stakes.byAso dcAso activatedStake
    byAsn := addStake stakes.byAsn dcAsn activatedStake
    byCity := addStake stakes.byCity dcCity activatedStake
    byCountry := addStake stakes.byCountry dcCountry activatedStake
    totalActiveStake := stakes.totalActiveStake + activatedStake }

/-- `map_stake_to_concentration`. -/
def mapStakeToConcentration (stake : Dict String UInt64) (totalStake : UInt64) :
    Dict String (Option Rat) :=
  stake.mapVal fun s =>
    if totalStake = 0 then none else some ((s.toNat : Rat) / totalStake.toNat)

def DcStakes.stats (epoch : Nat) (stakes : DcStakes) : DCConcentrationStats where
  epoch := epoch
  totalActivatedStake := stakes.totalActiveStake
  dcConcentrationByAso := mapStakeToConcentration stakes.byAso stakes.totalActiveStake
  dcStakeByAso := stakes.byAso
  dcConcentrationByAsn := mapStakeToConcentration stakes.byAsn stakes.totalActiveStake
  dcStakeByAsn := stakes.byAsn
  dcConcentrationByCity := mapStakeToConcentration stakes.byCity stakes.totalActiveStake
  dcStakeByCity := stakes.byCity
  dcConcentrationByCountry := mapStakeToConcentration stakes.byCountry stakes.totalActiveStake
  dcStakeByCountry := stakes.byCountry

/-- The body of the loop over the epochs. -/
def dcEpochStats (scan : Scan) (db : Database) (epoch : Nat) : Option DCConcentrationStats :=
  (((scan.order db.validators).filter fun row => row.epoch = epoch).foldlM DcStakes.addRow
    {}).map (DcStakes.stats epoch)

/-- `load_dc_concentration_stats`. -/
def loadDcConcentrationStats (scan : Scan) (epochs : Nat) (db : Database) :
    Option (List DCConcentrationStats) :=
  match getLastEpoch db with
  | none => some []
  | some lastEpoch =>
    let firstEpoch := firstEpoch lastEpoch epochs
    -- `(first_epoch..=last_epoch).rev()`
    (List.range' firstEpoch (lastEpoch + 1 - firstEpoch)).reverse.mapM (dcEpochStats scan db)

/-- A group of the query, converted. -/
def blockEpochStats (db : Database) (epoch : Nat) : Option BlockProductionStats := do
  let rows := db.validators.filter fun row => row.epoch = epoch
  let blocks := (rows.map ValidatorsRow.blocksProduced).sum
  let slots := (rows.map ValidatorsRow.leaderSlots).sum
  let epoch ← decimalToU64 epoch
  let blocksProduced ← decimalToU64 blocks
  let leaderSlots ← decimalToU64 slots
  some {
    epoch := epoch
    blocksProduced := blocksProduced
    leaderSlots := leaderSlots
    avgSkipRate := if slots = 0 then 1 else 1 - (blocks : Rat) / slots }

/-- `WHERE epoch > $1 GROUP BY epoch ORDER BY epoch DESC`. -/
def blockEpochs (db : Database) (first : Nat) : List Nat :=
  ((db.validators.map ValidatorsRow.epoch).filter fun epoch => first < epoch).dedup.insertionSort
    (· ≥ ·)

/-- `load_block_production_stats`. -/
def loadBlockProductionStats (epochs : Nat) (db : Database) :
    Option (List BlockProductionStats) :=
  match getLastEpoch db with
  | none => some []
  | some lastEpoch => (blockEpochs db (firstEpoch lastEpoch epochs)).mapM (blockEpochStats db)

/-- `load_cluster_stats`. -/
def loadClusterStats (scan : Scan) (epochs : Nat) (db : Database) : Option ClusterStats := do
  let blockProductionStats ← loadBlockProductionStats epochs db
  let dcConcentrationStats ← loadDcConcentrationStats scan epochs db
  some ⟨blockProductionStats, dcConcentrationStats⟩

/-- `Cache::get_cluster_stats` (`api/src/cache.rs`). -/
def getClusterStats (cached : Option ClusterStats) (epochs : Nat) : Option ClusterStats :=
  cached.map fun clusterStats =>
    { blockProductionStats := clusterStats.blockProductionStats.take epochs
      dcConcentrationStats := clusterStats.dcConcentrationStats.take epochs }

/-! ## Windows -/

/-- The newest epochs, in descending order. -/
def epochWindow (lastEpoch epochs : Nat) : List Nat :=
  (List.range epochs).map fun i => lastEpoch - i

theorem length_epochWindow (lastEpoch epochs : Nat) :
    (epochWindow lastEpoch epochs).length = epochs := by
  simp [epochWindow]

theorem take_epochWindow {lastEpoch epochs k : Nat} (hk : k ≤ epochs) :
    (epochWindow lastEpoch epochs).take k = epochWindow lastEpoch k := by
  simp [epochWindow, ← List.map_take, List.take_range, hk]

theorem mem_epochWindow {lastEpoch epochs epoch : Nat} (h : epochs ≤ lastEpoch) :
    epoch ∈ epochWindow lastEpoch epochs ↔ lastEpoch < epoch + epochs ∧ epoch ≤ lastEpoch := by
  unfold epochWindow
  rw [List.mem_map]
  constructor
  · rintro ⟨i, hi, rfl⟩
    rw [List.mem_range] at hi
    omega
  · intro hepoch
    exact ⟨lastEpoch - epoch, List.mem_range.mpr (by omega), by omega⟩

theorem pairwise_epochWindow {lastEpoch epochs : Nat} (h : epochs ≤ lastEpoch) :
    (epochWindow lastEpoch epochs).Pairwise (· > ·) := by
  unfold epochWindow
  rw [List.pairwise_map]
  refine List.pairwise_lt_range.imp_of_mem ?_
  intro i j _ hj hij
  rw [List.mem_range] at hj
  omega

/-- The reversed range is the window. -/
theorem reverse_range'_firstEpoch {lastEpoch epochs : Nat} (h : epochs ≤ lastEpoch) :
    (List.range' (firstEpoch lastEpoch epochs)
      (lastEpoch + 1 - firstEpoch lastEpoch epochs)).reverse = epochWindow lastEpoch epochs := by
  have hfirst : firstEpoch lastEpoch epochs = lastEpoch - epochs + 1 := by
    rw [firstEpoch, Nat.min_eq_left h]
  have hlength : lastEpoch + 1 - (lastEpoch - epochs + 1) = epochs := by omega
  rw [hfirst, hlength, List.reverse_range', epochWindow]
  refine List.map_congr_left ?_
  intro i _
  omega

/-- The epochs after the first one are the window without its oldest epoch. -/
theorem blockEpochs_firstEpoch {db : Database} {lastEpoch epochs : Nat}
    (hlast : getLastEpoch db = some lastEpoch)
    (hrows : ∀ epoch, 1 ≤ epoch → epoch ≤ lastEpoch →
      epoch ∈ db.validators.map ValidatorsRow.epoch)
    (h : 1 ≤ epochs) (hle : epochs ≤ lastEpoch) :
    blockEpochs db (firstEpoch lastEpoch epochs) = epochWindow lastEpoch (epochs - 1) := by
  have hmax : ∀ epoch ∈ db.validators.map ValidatorsRow.epoch, epoch ≤ lastEpoch := by
    intro epoch hepoch
    rw [← Option.some.inj hlast]
    exact List.le_max?_getD_of_mem hepoch
  have hfirst : firstEpoch lastEpoch epochs = lastEpoch - epochs + 1 := by
    rw [firstEpoch, Nat.min_eq_left hle]
  have hwindow := pairwise_epochWindow (Nat.sub_le_of_le_add (by omega) : epochs - 1 ≤ lastEpoch)
  refine List.Perm.eq_of_pairwise' (List.pairwise_insertionSort _ _) (hwindow.imp le_of_lt) ?_
  refine (List.perm_insertionSort _ _).trans ?_
  rw [List.perm_ext_iff_of_nodup (List.nodup_dedup _) (hwindow.imp ne_of_gt)]
  intro epoch
  rw [List.mem_dedup, List.mem_filter, mem_epochWindow (by omega), hfirst, decide_eq_true_iff]
  constructor
  · rintro ⟨hmem, hgt⟩
    have hepoch := hmax epoch hmem
    omega
  · rintro ⟨hgt, hepoch⟩
    exact ⟨hrows epoch (by omega) hepoch, by omega⟩

/-! ## What is loaded -/

/-- The epochs of the two lists. -/
def ClusterStats.coveredEpochs (stats : ClusterStats) : List Nat × List Nat :=
  (stats.blockProductionStats.map BlockProductionStats.epoch,
    stats.dcConcentrationStats.map DCConcentrationStats.epoch)

section Loaded

variable {scan : Scan} {db : Database} {lastEpoch epochs : Nat}

theorem epoch_dcEpochStats {epoch : Nat} {stats : DCConcentrationStats}
    (h : dcEpochStats scan db epoch = some stats) : stats.epoch = epoch := by
  obtain ⟨stakes, -, rfl⟩ := Option.map_eq_some_iff.mp h
  rfl

theorem epoch_blockEpochStats {epoch : Nat} {stats : BlockProductionStats}
    (h : blockEpochStats db epoch = some stats) : stats.epoch = epoch := by
  obtain ⟨epoch', hepoch, h⟩ := Option.bind_eq_some_iff.mp h
  obtain ⟨blocks, -, h⟩ := Option.bind_eq_some_iff.mp h
  obtain ⟨slots, -, h⟩ := Option.bind_eq_some_iff.mp h
  obtain rfl := Option.some.inj h
  exact (decimalToU64_eq_some_iff.mp hepoch).2

/-- The concentration covers the window. -/
theorem epochs_loadDcConcentrationStats {stats : List DCConcentrationStats}
    (hlast : getLastEpoch db = some lastEpoch) (hle : epochs ≤ lastEpoch)
    (h : loadDcConcentrationStats scan epochs db = some stats) :
    stats.map DCConcentrationStats.epoch = epochWindow lastEpoch epochs := by
  unfold loadDcConcentrationStats at h
  rw [hlast] at h
  dsimp only at h
  rw [reverse_range'_firstEpoch hle] at h
  have hepoch : ∀ epoch stats, dcEpochStats scan db epoch = some stats → stats.epoch = id epoch :=
    fun _ _ h => epoch_dcEpochStats h
  rw [map_mapM hepoch h, List.map_id]

/-- The block production covers one epoch less. -/
theorem epochs_loadBlockProductionStats {stats : List BlockProductionStats}
    (hlast : getLastEpoch db = some lastEpoch)
    (hrows : ∀ epoch, 1 ≤ epoch → epoch ≤ lastEpoch →
      epoch ∈ db.validators.map ValidatorsRow.epoch)
    (h₁ : 1 ≤ epochs) (hle : epochs ≤ lastEpoch)
    (h : loadBlockProductionStats epochs db = some stats) :
    stats.map BlockProductionStats.epoch = epochWindow lastEpoch (epochs - 1) := by
  unfold loadBlockProductionStats at h
  rw [hlast] at h
  dsimp only at h
  rw [blockEpochs_firstEpoch hlast hrows h₁ hle] at h
  have hepoch : ∀ epoch stats, blockEpochStats db epoch = some stats → stats.epoch = id epoch :=
    fun _ _ h => epoch_blockEpochStats h
  rw [map_mapM hepoch h, List.map_id]

/-- The statistics load, and both lists and what the cache hands out cover the window. -/
def OneWindow (scan : Scan) (db : Database) (lastEpoch epochs : Nat) : Prop :=
  ∃ stats, loadClusterStats scan epochs db = some stats ∧
    stats.coveredEpochs = (epochWindow lastEpoch epochs, epochWindow lastEpoch epochs) ∧
    ∀ k ≤ epochs, (getClusterStats (some stats) k).map ClusterStats.coveredEpochs =
      some (epochWindow lastEpoch k, epochWindow lastEpoch k)

theorem epochs_loadClusterStats {stats : ClusterStats}
    (hlast : getLastEpoch db = some lastEpoch)
    (hrows : ∀ epoch, 1 ≤ epoch → epoch ≤ lastEpoch →
      epoch ∈ db.validators.map ValidatorsRow.epoch)
    (h₁ : 1 ≤ epochs) (hle : epochs ≤ lastEpoch)
    (h : loadClusterStats scan epochs db = some stats) :
    stats.coveredEpochs = (epochWindow lastEpoch (epochs - 1), epochWindow lastEpoch epochs) := by
  obtain ⟨blocks, hblocks, h⟩ := Option.bind_eq_some_iff.mp h
  obtain ⟨concentration, hconcentration, h⟩ := Option.bind_eq_some_iff.mp h
  obtain rfl := Option.some.inj h
  exact Prod.ext (epochs_loadBlockProductionStats hlast hrows h₁ hle hblocks)
    (epochs_loadDcConcentrationStats hlast hle hconcentration)

/-- **The windows differ**, for every table and every number of epochs: block production
lacks the oldest epoch of the window, in the statistics and in what the cache hands out. -/
theorem loadClusterStats_windows (scan : Scan) (db : Database) (lastEpoch epochs : Nat)
    (hlast : getLastEpoch db = some lastEpoch)
    (hrows : ∀ epoch, 1 ≤ epoch → epoch ≤ lastEpoch →
      epoch ∈ db.validators.map ValidatorsRow.epoch)
    (h₁ : 1 ≤ epochs) (hle : epochs ≤ lastEpoch) :
    ¬ OneWindow scan db lastEpoch epochs ∧
      ∀ stats, loadClusterStats scan epochs db = some stats → ∀ k ≤ epochs,
        (getClusterStats (some stats) k).map ClusterStats.coveredEpochs =
          some (epochWindow lastEpoch (min k (epochs - 1)), epochWindow lastEpoch k) := by
  constructor
  · rintro ⟨stats, hload, hepochs, -⟩
    rw [epochs_loadClusterStats hlast hrows h₁ hle hload] at hepochs
    have hlength := congrArg List.length (Prod.mk.inj hepochs).1
    rw [length_epochWindow, length_epochWindow] at hlength
    omega
  · intro stats hload k hk
    have hepochs := epochs_loadClusterStats hlast hrows h₁ hle hload
    obtain ⟨hblocks, hconcentration⟩ := Prod.mk.inj hepochs
    show some (List.map _ (List.take k _), List.map _ (List.take k _)) = _
    rw [List.map_take, List.map_take, hblocks, hconcentration, take_epochWindow hk]
    congr 2
    rcases Nat.le_total k (epochs - 1) with hfew | hall
    · rw [take_epochWindow hfew, Nat.min_eq_left hfew]
    · rw [List.take_of_length_le (by rwa [length_epochWindow]), Nat.min_eq_right hall]

end Loaded

/-! ## Two epochs -/

/-- The validator of `storeRun` in the epochs 1 and 2. -/
def twoEpochsDatabase : Database := executeAll [storeRun 1, storeRun 2] ruggerDatabase

theorem twoEpochsDatabase_epochs :
    twoEpochsDatabase.validators.map ValidatorsRow.epoch = [1, 2] := rfl

theorem twoEpochsDatabase_lastEpoch : getLastEpoch twoEpochsDatabase = some 2 := rfl

theorem twoEpochsDatabase_rows (epoch : Nat) (h₁ : 1 ≤ epoch) (h₂ : epoch ≤ 2) :
    epoch ∈ twoEpochsDatabase.validators.map ValidatorsRow.epoch := by
  rw [twoEpochsDatabase_epochs]
  have hepoch : epoch = 1 ∨ epoch = 2 := by omega
  simpa using hepoch

theorem loadClusterStats_windows_two :
    ¬ OneWindow .sequential twoEpochsDatabase 2 2 ∧
      ∀ stats, loadClusterStats .sequential 2 twoEpochsDatabase = some stats → ∀ k ≤ 2,
        (getClusterStats (some stats) k).map ClusterStats.coveredEpochs =
          some (epochWindow 2 (min k 1), epochWindow 2 k) :=
  loadClusterStats_windows .sequential twoEpochsDatabase 2 2 twoEpochsDatabase_lastEpoch
    twoEpochsDatabase_rows (by omega) (by omega)

/-- Asked for two epochs of two, the block production has one. -/
theorem loadClusterStats_not_oneWindow :
    ¬ ∀ (scan : Scan) (db : Database) (lastEpoch epochs : Nat),
      getLastEpoch db = some lastEpoch →
      (∀ epoch, 1 ≤ epoch → epoch ≤ lastEpoch →
        epoch ∈ db.validators.map ValidatorsRow.epoch) →
      1 ≤ epochs → epochs ≤ lastEpoch → OneWindow scan db lastEpoch epochs := by
  intro h
  obtain ⟨stats, hload, hepochs, -⟩ :=
    h .sequential twoEpochsDatabase 2 2 twoEpochsDatabase_lastEpoch twoEpochsDatabase_rows
      (by omega) (by omega)
  have hrun : (loadClusterStats .sequential 2 twoEpochsDatabase).map ClusterStats.coveredEpochs =
      some ([2], [2, 1]) := by decide
  rw [hload, Option.map_some, hepochs] at hrun
  exact absurd hrun (by decide)

end DelegationStrategy.Store
