import DelegationStrategy.Lib.Trace
import Mathlib.Data.List.Forall2
import Mathlib.Data.List.Infix

/-!
# Caches that are refreshed in turn

A task keeps a cache of a database: it runs its loads one after the other, sleeps, and starts
over. A load is a program of queries (`Queries`), and its result is a list of writes to the
cache. The database may change between any two steps, a query may fail, and an error may take
the task with it.

- `Results`: what a program can return when its queries find some of the versions of the
  database; `runAt`: what it returns on one version. Both follow the program (`results_bind`,
  `runAt_bind`, `runAt_mapM`).
- `refresher_rule`: a property of the cache that the writes of every load keep
  (`SoundLoad`) holds throughout every run; the loads that ended well in a round leave their
  tables fresh; and the cache only moves along `R`.
- `exec_round`: a round on a database that does not change.
-/

namespace DelegationStrategy.Lib

universe u v w x

/-! ## Programs of queries -/

/-- A program that queries a database, and goes on with the answer or after a failure. -/
inductive Queries (σ : Type u) (α : Type v) where
  | ret (a : α)
  | error
  | query (onAnswer : σ → Queries σ α) (onError : Queries σ α)

namespace Queries

variable {σ : Type u} {α β γ : Type v}

def bind : Queries σ α → (α → Queries σ β) → Queries σ β
  | .ret a, f => f a
  | .error, _ => .error
  | .query onAnswer onError, f => .query (fun s => (onAnswer s).bind f) (onError.bind f)

instance : Monad (Queries σ) where
  pure := .ret
  bind := bind

theorem bind_ret (x : Queries σ α) : x.bind .ret = x := by
  induction x with
  | ret a => rfl
  | error => rfl
  | query onAnswer onError ihAnswer ihError =>
    show Queries.query (fun s => (onAnswer s).bind .ret) (onError.bind .ret) = _
    rw [ihError, funext ihAnswer]

theorem bind_assoc (x : Queries σ α) (f : α → Queries σ β) (g : β → Queries σ γ) :
    (x.bind f).bind g = x.bind fun a => (f a).bind g := by
  induction x with
  | ret a => rfl
  | error => rfl
  | query onAnswer onError ihAnswer ihError =>
    show Queries.query (fun s => ((onAnswer s).bind f).bind g) ((onError.bind f).bind g) = _
    rw [ihError, funext ihAnswer]
    rfl

instance : LawfulMonad (Queries σ) :=
  LawfulMonad.mk' _ bind_ret (fun _ _ => rfl) bind_assoc

/-- One query; its failure, and an answer that is not converted, is an error. -/
def ask (read : σ → Option α) : Queries σ α :=
  .query (fun s => match read s with
    | some a => .ret a
    | none => .error) .error

/-- A program whose errors are handled by its caller. -/
def attempt : Queries σ α → Queries σ (Option α)
  | .ret a => .ret (some a)
  | .error => .ret none
  | .query onAnswer onError => .query (fun s => (onAnswer s).attempt) onError.attempt

/-! ## On one version -/

/-- The result on a version of the database that no query fails on. -/
def runAt (s : σ) : Queries σ α → Option α
  | .ret a => some a
  | .error => none
  | .query onAnswer _ => (onAnswer s).runAt s

variable {s : σ}

@[simp] theorem runAt_pure (a : α) : (pure a : Queries σ α).runAt s = some a := rfl

@[simp] theorem runAt_bind (x : Queries σ α) (f : α → Queries σ β) :
    (x >>= f).runAt s = (x.runAt s).bind fun a => (f a).runAt s := by
  induction x with
  | ret a => rfl
  | error => rfl
  | query onAnswer onError ihAnswer ihError => exact ihAnswer s

@[simp] theorem runAt_ask (read : σ → Option α) : (ask read).runAt s = read s := by
  show (match read s with
    | some a => Queries.ret a
    | none => .error).runAt s = read s
  cases read s with
  | none => rfl
  | some a => rfl

@[simp] theorem runAt_attempt (x : Queries σ α) : x.attempt.runAt s = some (x.runAt s) := by
  induction x with
  | ret a => rfl
  | error => rfl
  | query onAnswer onError ihAnswer ihError => exact ihAnswer s

@[simp] theorem runAt_mapM (f : γ → Queries σ α) (l : List γ) :
    (l.mapM f).runAt s = l.mapM fun a => (f a).runAt s := by
  induction l with
  | nil => rfl
  | cons a l ih =>
    rw [List.mapM_cons, List.mapM_cons, runAt_bind]
    congr 1
    funext b
    rw [runAt_bind, ih]
    rfl

/-! ## On many versions -/

/-- What a program can return when every query fails or finds a version in `V`. -/
def Results (V : σ → Prop) : Queries σ α → α → Prop
  | .ret a, b => a = b
  | .error, _ => False
  | .query onAnswer onError, b => (∃ s, V s ∧ (onAnswer s).Results V b) ∨ onError.Results V b

variable {V W : σ → Prop}

@[simp] theorem results_pure {a b : α} : (pure a : Queries σ α).Results V b ↔ a = b := Iff.rfl

@[simp] theorem results_bind {x : Queries σ α} {f : α → Queries σ β} {b : β} :
    (x >>= f).Results V b ↔ ∃ a, x.Results V a ∧ (f a).Results V b := by
  induction x with
  | ret a => exact ⟨fun h => ⟨a, rfl, h⟩, fun ⟨_, rfl, h⟩ => h⟩
  | error => exact ⟨False.elim, fun ⟨_, h, _⟩ => h⟩
  | query onAnswer onError ihAnswer ihError =>
    show (∃ s, V s ∧ ((onAnswer s).bind f).Results V b) ∨ (onError.bind f).Results V b ↔ _
    constructor
    · rintro (⟨s, hs, h⟩ | h)
      · obtain ⟨a, ha, hb⟩ := (ihAnswer s).mp h
        exact ⟨a, Or.inl ⟨s, hs, ha⟩, hb⟩
      · obtain ⟨a, ha, hb⟩ := ihError.mp h
        exact ⟨a, Or.inr ha, hb⟩
    · rintro ⟨a, ⟨s, hs, ha⟩ | ha, hb⟩
      · exact Or.inl ⟨s, hs, (ihAnswer s).mpr ⟨a, ha, hb⟩⟩
      · exact Or.inr (ihError.mpr ⟨a, ha, hb⟩)

@[simp] theorem results_ask {read : σ → Option α} {a : α} :
    (ask read).Results V a ↔ ∃ s, V s ∧ read s = some a := by
  show (∃ s, V s ∧ Results V (match read s with
    | some a => .ret a
    | none => .error) a) ∨ False ↔ _
  rw [or_false]
  refine exists_congr fun s => and_congr_right fun _ => ?_
  cases read s with
  | none => exact ⟨False.elim, fun h => nomatch h⟩
  | some b => exact ⟨congrArg some, Option.some.inj⟩

/-- A handled program returns what the program returns. -/
@[simp] theorem results_attempt_some {x : Queries σ α} {a : α} :
    x.attempt.Results V (some a) ↔ x.Results V a := by
  induction x with
  | ret b => exact ⟨Option.some.inj, congrArg some⟩
  | error => exact ⟨fun h => (nomatch h), False.elim⟩
  | query onAnswer onError ihAnswer ihError =>
    exact or_congr (exists_congr fun s => and_congr_right fun _ => ihAnswer s) ihError

/-- More versions, more results. -/
theorem Results.mono (h : ∀ s, V s → W s) {x : Queries σ α} {a : α} (hx : x.Results V a) :
    x.Results W a := by
  induction x with
  | ret b => exact hx
  | error => exact hx
  | query onAnswer onError ihAnswer ihError =>
    rcases hx with ⟨s, hs, hx⟩ | hx
    · exact Or.inl ⟨s, h s hs, ihAnswer s hx⟩
    · exact Or.inr (ihError hx)

end Queries

/-! ## The task -/

variable {σ : Type u} {κ : Type v} {ι : Type w}

/-- A load starts with the number of the version of the database and the cache; its writes
take the number of the version at their time. Programs do not have these numbers. -/
abbrev Load (σ : Type u) (κ : Type v) := Nat → κ → Queries σ (List (Nat → κ → κ))

inductive RefreshPhase (σ : Type u) (κ : Type v) (ι : Type w) where
  | sleeping
  | loading (i : ι) (load : Queries σ (List (Nat → κ → κ)))
  | writing (i : ι) (writes : List (Nat → κ → κ))
  | dead

/-- The load that runs. -/
def RefreshPhase.current : RefreshPhase σ κ ι → List ι
  | .loading i _ | .writing i _ => [i]
  | .sleeping | .dead => []

structure Refresher (σ : Type u) (κ : Type v) (ι : Type w) where
  /-- The versions of the database before this one. -/
  older : List σ
  db : σ
  cache : κ
  phase : RefreshPhase σ κ ι
  /-- The loads of the round that are to come. -/
  rest : List (ι × Load σ κ)
  /-- The loads of the round that ended, well or with an error. -/
  ended : List (ι × Bool)
  /-- The number of the version at the start of the round. -/
  roundStart : Nat

inductive RefreshMove (σ : Type u) where
  /-- A new version of the database. -/
  | commit (db : σ)
  /-- The next step of the task. -/
  | next
  /-- The next query fails. -/
  | fails
  /-- An error takes the task with it. -/
  | dies

namespace Refresher

/-- All versions, the number of each its position. -/
def versions (s : Refresher σ κ ι) : List σ := s.older ++ [s.db]

/-- Start the first of some loads, or go to sleep. -/
def enter (s : Refresher σ κ ι) : List (ι × Load σ κ) → Refresher σ κ ι
  | [] => { s with phase := .sleeping, rest := [] }
  | (i, load) :: rest =>
    { s with phase := .loading i (load s.older.length s.cache), rest := rest }

def step (loads : List (ι × Load σ κ)) (s : Refresher σ κ ι) :
    RefreshMove σ → Option (Refresher σ κ ι)
  | .commit db => some { s with older := s.older ++ [s.db], db := db }
  | .next =>
    match s.phase with
    | .sleeping => some ({ s with ended := [], roundStart := s.older.length }.enter loads)
    | .loading i (.query onAnswer _) => some { s with phase := .loading i (onAnswer s.db) }
    | .loading i (.ret writes) => some { s with phase := .writing i writes }
    | .loading i .error => some ({ s with ended := s.ended ++ [(i, false)] }.enter s.rest)
    | .writing i (write :: writes) =>
      some { s with cache := write s.older.length s.cache, phase := .writing i writes }
    | .writing i [] => some ({ s with ended := s.ended ++ [(i, true)] }.enter s.rest)
    | .dead => none
  | .fails =>
    match s.phase with
    | .loading i (.query _ onError) => some { s with phase := .loading i onError }
    | _ => none
  | .dies =>
    match s.phase with
    | .loading _ .error => some { s with phase := .dead }
    | _ => none

/-- A task that has not run yet. -/
def init (db : σ) (cache : κ) : Refresher σ κ ι where
  older := []
  db := db
  cache := cache
  phase := .sleeping
  rest := []
  ended := []
  roundStart := 0

end Refresher

/-! ## What loads keep -/

section Rule

variable (R : κ → κ → Prop) (P : List σ → κ → Prop) (Fresh : ι → Nat → κ → Prop)

/-- The versions from one number to another. -/
def Between (versions : List σ) (first last : Nat) (s : σ) : Prop :=
  ∃ n, first ≤ n ∧ n ≤ last ∧ versions[n]? = some s

/-- The writes of a load keep `P` and move along `R`, and the last of them leaves the tables
of the load fresh; there may be new versions before each. -/
def WritesSound (i : ι) (since : Nat) : List σ → List (Nat → κ → κ) → κ → Prop
  | _, [], cache => Fresh i since cache
  | versions, write :: writes, cache => ∀ later, versions <+: later →
    R cache (write (later.length - 1) cache) ∧ P later (write (later.length - 1) cache) ∧
      WritesSound i since later writes (write (later.length - 1) cache)

/-- The writes of a load are sound, whichever versions between its start and its end its
queries find. -/
def SoundLoad (i : ι) (load : Load σ κ) : Prop :=
  ∀ older s cache, P (older ++ [s]) cache → ∀ versions, older ++ [s] <+: versions →
    ∀ writes, (load older.length cache).Results
        (Between versions older.length (versions.length - 1)) writes →
      WritesSound R P Fresh i older.length versions writes cache

/-- The loads of a task, all of them sound. -/
structure SoundLoads (loads : List (ι × Load σ κ)) : Prop where
  refl : ∀ cache, R cache cache
  later : ∀ {versions later cache}, versions <+: later → P versions cache → P later cache
  stays : ∀ {i since cache cache'}, R cache cache' → Fresh i since cache → Fresh i since cache'
  since : ∀ {i first since cache}, first ≤ since → Fresh i since cache → Fresh i first cache
  sound : ∀ j ∈ loads, SoundLoad R P Fresh j.1 j.2

namespace Refresher

/-- What the phase promises. -/
def PhaseInv (s : Refresher σ κ ι) : RefreshPhase σ κ ι → Prop
  | .loading i load => ∃ since, s.roundStart ≤ since ∧ since ≤ s.older.length ∧
      ∀ later, s.versions <+: later → ∀ writes,
        load.Results (Between later since (later.length - 1)) writes →
          WritesSound R P Fresh i since later writes s.cache
  | .writing i writes => ∃ since, s.roundStart ≤ since ∧
      WritesSound R P Fresh i since s.versions writes s.cache
  | .sleeping | .dead => True

/-- The loads of the round are in order: those that ended, the one that runs, and the rest. -/
def InOrder (loads : List (ι × Load σ κ)) (s : Refresher σ κ ι) : Prop :=
  s.ended.map Prod.fst ++ (s.phase.current ++ s.rest.map Prod.fst) = loads.map Prod.fst

structure Inv (loads : List (ι × Load σ κ)) (s : Refresher σ κ ι) : Prop where
  cache : P s.versions s.cache
  phase : PhaseInv R P Fresh s s.phase
  ended : ∀ i, (i, true) ∈ s.ended → Fresh i s.roundStart s.cache
  rest : ∀ j ∈ s.rest, j ∈ loads
  started : s.roundStart ≤ s.older.length
  asleep : s.phase = .sleeping → s.rest = []
  order : s.phase = .dead ∨ s.ended = [] ∧ s.phase = .sleeping ∨ InOrder loads s

variable {R P Fresh} {loads : List (ι × Load σ κ)} {s s' : Refresher σ κ ι}

theorem getElem?_versions (s : Refresher σ κ ι) : s.versions[s.older.length]? = some s.db := by
  unfold versions
  simp

/-- The version that a query finds. -/
theorem between_db {later : List σ} (h : s.versions <+: later) {since : Nat}
    (hsince : since ≤ s.older.length) : Between later since (later.length - 1) s.db := by
  obtain ⟨more, rfl⟩ := h
  have hlen : s.versions.length = s.older.length + 1 := by simp [versions]
  refine ⟨s.older.length, hsince, ?_, ?_⟩
  · rw [List.length_append]
    omega
  · rw [List.getElem?_append_left (by omega), getElem?_versions]

/-- The start of the next load. -/
theorem inv_enter (hsound : SoundLoads R P Fresh loads) (hcache : P s.versions s.cache)
    (hended : ∀ i, (i, true) ∈ s.ended → Fresh i s.roundStart s.cache)
    (hstarted : s.roundStart ≤ s.older.length) {rest : List (ι × Load σ κ)}
    (hrest : ∀ j ∈ rest, j ∈ loads)
    (horder : s.ended.map Prod.fst ++ rest.map Prod.fst = loads.map Prod.fst) :
    Inv R P Fresh loads (s.enter rest) := by
  cases rest with
  | nil =>
    exact
      { cache := hcache
        phase := trivial
        ended := hended
        rest := fun _ hj => nomatch hj
        started := hstarted
        asleep := fun _ => rfl
        order := Or.inr (Or.inr horder) }
  | cons j rest =>
    obtain ⟨i, load⟩ := j
    exact
      { cache := hcache
        phase := ⟨s.older.length, hstarted, le_refl _, fun later hlater writes hwrites =>
          hsound.sound (i, load) (hrest _ List.mem_cons_self) s.older s.db s.cache hcache later
            hlater writes hwrites⟩
        ended := hended
        rest := fun j hj => hrest j (List.mem_cons_of_mem _ hj)
        started := hstarted
        asleep := fun h => nomatch h
        order := Or.inr (Or.inr horder) }

/-- The loads of a round that is on its way. -/
theorem Inv.inOrder (hinv : Inv R P Fresh loads s) {i : ι} (h : s.phase.current = [i]) :
    InOrder loads s := by
  rcases hinv.order with hdead | ⟨-, hsleeping⟩ | horder
  · rw [hdead] at h
    cases h
  · rw [hsleeping] at h
    cases h
  · exact horder

/-- The end of a load. -/
theorem inv_end (hsound : SoundLoads R P Fresh loads) (hinv : Inv R P Fresh loads s) {i : ι}
    (hcurrent : s.phase.current = [i]) (ok : Bool)
    (hfresh : ok = true → Fresh i s.roundStart s.cache) :
    Inv R P Fresh loads ({ s with ended := s.ended ++ [(i, ok)] }.enter s.rest) := by
  have horder := hinv.inOrder hcurrent
  unfold InOrder at horder
  rw [hcurrent] at horder
  refine inv_enter (s := { s with ended := s.ended ++ [(i, ok)] }) hsound hinv.cache
    (fun k hk => ?_) hinv.started hinv.rest ?_
  · rcases List.mem_append.mp hk with hk | hk
    · exact hinv.ended k hk
    · obtain ⟨rfl, rfl⟩ := Prod.mk.inj (List.mem_singleton.mp hk)
      exact hfresh rfl
  · show (s.ended ++ [(i, ok)]).map Prod.fst ++ s.rest.map Prod.fst = _
    rw [List.map_append, List.append_assoc]
    exact horder

/-- A new version of the database. -/
theorem inv_commit (hsound : SoundLoads R P Fresh loads) (hinv : Inv R P Fresh loads s) (db : σ) :
    Inv R P Fresh loads { s with older := s.older ++ [s.db], db := db } := by
  have hlater : s.versions <+: s.older ++ [s.db] ++ [db] := ⟨[db], rfl⟩
  refine
    { cache := hsound.later hlater hinv.cache
      phase := ?_
      ended := hinv.ended
      rest := hinv.rest
      started := by
        have hlen : (s.older ++ [s.db]).length = s.older.length + 1 := by simp
        show s.roundStart ≤ (s.older ++ [s.db]).length
        have hle := hinv.started
        omega
      asleep := hinv.asleep
      order := hinv.order }
  have hphase := hinv.phase
  show PhaseInv R P Fresh _ s.phase
  cases hp : s.phase with
  | sleeping => trivial
  | dead => trivial
  | loading i load =>
    rw [hp] at hphase
    obtain ⟨since, hstart, hle, hresults⟩ := hphase
    refine ⟨since, hstart, ?_, fun later h => hresults later (hlater.trans h)⟩
    show since ≤ (s.older ++ [s.db]).length
    rw [List.length_append]
    omega
  | writing i writes =>
    rw [hp] at hphase
    obtain ⟨since, hstart, hwrites⟩ := hphase
    refine ⟨since, hstart, ?_⟩
    cases writes with
    | nil => exact hwrites
    | cons write writes => exact fun later h => hwrites later (hlater.trans h)

/-- The answer to a query, or its failure. -/
theorem inv_load (hinv : Inv R P Fresh loads s) {i : ι}
    {load load' : Queries σ (List (Nat → κ → κ))} (hp : s.phase = .loading i load)
    (hresults : ∀ since later writes, since ≤ s.older.length → s.versions <+: later →
      load'.Results (Between later since (later.length - 1)) writes →
        load.Results (Between later since (later.length - 1)) writes) :
    Inv R P Fresh loads { s with phase := .loading i load' } := by
  have hcurrent : s.phase.current = [i] := by
    rw [hp]
    rfl
  have horder := hinv.inOrder hcurrent
  have hphase := hinv.phase
  rw [hp] at hphase
  obtain ⟨since, hstart, hle, hsound⟩ := hphase
  refine
    { cache := hinv.cache
      phase := ⟨since, hstart, hle, fun later hlater writes hwrites =>
        hsound later hlater writes (hresults since later writes hle hlater hwrites)⟩
      ended := hinv.ended
      rest := hinv.rest
      started := hinv.started
      asleep := fun h => nomatch h
      order := Or.inr (Or.inr ?_) }
  unfold InOrder at horder ⊢
  rw [hcurrent] at horder
  exact horder

/-- A write. -/
theorem inv_write (hsound : SoundLoads R P Fresh loads) (hinv : Inv R P Fresh loads s) {i : ι}
    {write : Nat → κ → κ} {writes : List (Nat → κ → κ)}
    (hp : s.phase = .writing i (write :: writes)) :
    Inv R P Fresh loads
        { s with cache := write s.older.length s.cache, phase := .writing i writes } ∧
      R s.cache (write s.older.length s.cache) := by
  have hcurrent : s.phase.current = [i] := by
    rw [hp]
    rfl
  have horder := hinv.inOrder hcurrent
  have hphase := hinv.phase
  rw [hp] at hphase
  obtain ⟨since, hstart, hwrites⟩ := hphase
  obtain ⟨hmove, hkeep, hrest⟩ := hwrites s.versions (List.prefix_refl _)
  have hnumber : s.versions.length - 1 = s.older.length := by simp [versions]
  rw [hnumber] at hmove hkeep hrest
  refine ⟨?_, hmove⟩
  refine
    { cache := hkeep
      phase := ⟨since, hstart, hrest⟩
      ended := fun k hk => hsound.stays hmove (hinv.ended k hk)
      rest := hinv.rest
      started := hinv.started
      asleep := fun h => nomatch h
      order := Or.inr (Or.inr ?_) }
  unfold InOrder at horder ⊢
  rw [hcurrent] at horder
  exact horder

/-- The next step of the task. -/
theorem inv_next (hsound : SoundLoads R P Fresh loads) (hinv : Inv R P Fresh loads s)
    (h : step loads s .next = some s') : Inv R P Fresh loads s' ∧ R s.cache s'.cache := by
  have hcacheEnter : ∀ (t : Refresher σ κ ι) rest, (t.enter rest).cache = t.cache := by
    rintro t (_ | ⟨⟨i, load⟩, rest⟩)
    · rfl
    · rfl
  unfold step at h
  dsimp only at h
  cases hp : s.phase with
  | sleeping =>
    rw [hp] at h
    obtain rfl := Option.some.inj h
    refine ⟨inv_enter (s := { s with ended := [], roundStart := s.older.length }) hsound
      hinv.cache (fun _ hi => nomatch hi) (le_refl _) (fun _ hj => hj) rfl, ?_⟩
    rw [hcacheEnter]
    exact hsound.refl _
  | dead =>
    rw [hp] at h
    cases h
  | loading i load =>
    have hphase := hinv.phase
    rw [hp] at h hphase
    cases load with
    | ret writes =>
      obtain rfl := Option.some.inj h
      obtain ⟨since, hstart, -, hresults⟩ := hphase
      have hcurrent : s.phase.current = [i] := by
        rw [hp]
        rfl
      have horder := hinv.inOrder hcurrent
      refine ⟨?_, hsound.refl _⟩
      refine
        { cache := hinv.cache
          phase := ⟨since, hstart, hresults s.versions (List.prefix_refl _) writes rfl⟩
          ended := hinv.ended
          rest := hinv.rest
          started := hinv.started
          asleep := fun h => nomatch h
          order := Or.inr (Or.inr ?_) }
      unfold InOrder at horder ⊢
      rw [hcurrent] at horder
      exact horder
    | error =>
      obtain rfl := Option.some.inj h
      refine ⟨inv_end hsound hinv (by rw [hp]; rfl) false (fun hok => nomatch hok), ?_⟩
      rw [hcacheEnter]
      exact hsound.refl _
    | query onAnswer onError =>
      obtain rfl := Option.some.inj h
      refine ⟨inv_load hinv hp fun since later writes hle hlater hwrites => ?_, hsound.refl _⟩
      exact Or.inl ⟨s.db, between_db hlater hle, hwrites⟩
  | writing i writes =>
    have hphase := hinv.phase
    rw [hp] at h hphase
    cases writes with
    | nil =>
      obtain rfl := Option.some.inj h
      obtain ⟨since, hstart, hfresh⟩ := hphase
      refine ⟨inv_end hsound hinv (by rw [hp]; rfl) true fun _ => hsound.since hstart hfresh, ?_⟩
      rw [hcacheEnter]
      exact hsound.refl _
    | cons write writes =>
      obtain rfl := Option.some.inj h
      exact inv_write hsound hinv hp

/-- **One step** keeps the invariant and moves the cache along `R`. -/
theorem inv_step (hsound : SoundLoads R P Fresh loads) {a : RefreshMove σ}
    (hinv : Inv R P Fresh loads s) (h : step loads s a = some s') :
    Inv R P Fresh loads s' ∧ R s.cache s'.cache := by
  cases a with
  | commit db =>
    obtain rfl := Option.some.inj h
    exact ⟨inv_commit hsound hinv db, hsound.refl _⟩
  | next => exact inv_next hsound hinv h
  | fails =>
    unfold step at h
    dsimp only at h
    cases hp : s.phase with
    | loading i load =>
      rw [hp] at h
      cases load with
      | query onAnswer onError =>
        obtain rfl := Option.some.inj h
        refine ⟨inv_load hinv hp fun _ _ _ _ _ hwrites => ?_, hsound.refl _⟩
        exact Or.inr hwrites
      | _ => cases h
    | _ =>
      rw [hp] at h
      cases h
  | dies =>
    unfold step at h
    dsimp only at h
    cases hp : s.phase with
    | loading i load =>
      rw [hp] at h
      cases load with
      | error =>
        obtain rfl := Option.some.inj h
        refine ⟨?_, hsound.refl _⟩
        exact
          { cache := hinv.cache
            phase := trivial
            ended := hinv.ended
            rest := hinv.rest
            started := hinv.started
            asleep := fun h => nomatch h
            order := Or.inl rfl }
      | _ => cases h
    | _ =>
      rw [hp] at h
      cases h

/-- The loads that ended well left their tables fresh, and a finished round has all of its
loads behind it. -/
def RoundFresh (Fresh : ι → Nat → κ → Prop) (loads : List (ι × Load σ κ))
    (s : Refresher σ κ ι) : Prop :=
  (∀ i, (i, true) ∈ s.ended → Fresh i s.roundStart s.cache) ∧
    (s.phase = .sleeping → s.ended ≠ [] → s.ended.map Prod.fst = loads.map Prod.fst)

end Refresher

/-- **Rule for refreshed caches**: when all loads are sound, a property of the cache that holds
at the start holds throughout every run, every step moves the cache along `R`, and the loads
that ended well have left their tables fresh. -/
theorem refresher_rule {R : κ → κ → Prop} {P : List σ → κ → Prop} {Fresh : ι → Nat → κ → Prop}
    {loads : List (ι × Load σ κ)} (hsound : SoundLoads R P Fresh loads) {db : σ} {cache : κ}
    (hinit : P [db] cache) (moves : List (RefreshMove σ)) :
    StatesAll (Refresher.step loads) (fun s => P s.versions s.cache ∧
      s.RoundFresh Fresh loads ∧
      ∀ a s', Refresher.step loads s a = some s' → R s.cache s'.cache)
      (Refresher.init db cache) moves := by
  have hinv : Refresher.Inv R P Fresh loads (Refresher.init db cache) :=
    { cache := hinit
      phase := trivial
      ended := fun _ hi => nomatch hi
      rest := fun _ hj => nomatch hj
      started := le_refl _
      asleep := fun _ => rfl
      order := Or.inr (Or.inl ⟨rfl, rfl⟩) }
  refine (statesAll_of_invariant (fun s a s' hs h => (Refresher.inv_step hsound hs h).1) hinv
    moves).mono fun s hs => ⟨hs.cache, ⟨hs.ended, fun hsleeping hended => ?_⟩,
      fun a s' h => (Refresher.inv_step hsound hs h).2⟩
  rcases hs.order with hdead | ⟨hnone, -⟩ | horder
  · rw [hsleeping] at hdead
    cases hdead
  · exact absurd hnone hended
  · unfold Refresher.InOrder at horder
    rw [hsleeping, hs.asleep hsleeping] at horder
    exact (List.append_nil _).symm.trans horder

end Rule

/-! ## A database that does not change -/

namespace Refresher

/-- The cache after the writes of a load; an error changes nothing. -/
def written (number : Nat) (cache : κ) : Option (List (Nat → κ → κ)) → κ
  | some writes => writes.foldl (fun cache write => write number cache) cache
  | none => cache

/-- The cache after a load of one version. -/
def loaded (db : σ) (number : Nat) (cache : κ) (load : Load σ κ) : κ :=
  written number cache ((load number cache).runAt db)

variable {loads : List (ι × Load σ κ)}

/-- The steps of a run in which only the task moves. -/
abbrev Reaches (loads : List (ι × Load σ κ)) (s s' : Refresher σ κ ι) : Prop :=
  ∃ n, exec (step loads) s (List.replicate n .next) = some s'

theorem Reaches.trans {s s' s'' : Refresher σ κ ι} (h : Reaches loads s s')
    (h' : Reaches loads s' s'') : Reaches loads s s'' := by
  obtain ⟨n, hn⟩ := h
  obtain ⟨m, hm⟩ := h'
  refine ⟨n + m, ?_⟩
  rw [List.replicate_add, exec_append, hn]
  exact hm

theorem Reaches.step {s s' : Refresher σ κ ι} (h : Refresher.step loads s .next = some s') :
    Reaches loads s s' :=
  ⟨1, by
    show (Refresher.step loads s .next).bind _ = _
    rw [h]
    rfl⟩

/-- The writes of a load, one after the other. -/
theorem reaches_writes (s : Refresher σ κ ι) (i : ι) (writes : List (Nat → κ → κ)) :
    Reaches loads { s with phase := .writing i writes }
      { s with
        cache := writes.foldl (fun cache write => write s.older.length cache) s.cache
        phase := .writing i [] } := by
  induction writes generalizing s with
  | nil => exact ⟨0, rfl⟩
  | cons write writes ih =>
    exact (Reaches.step rfl).trans (ih { s with cache := write s.older.length s.cache })

variable (loads) in
/-- The queries of a load, and then its writes. -/
theorem reaches_load (s : Refresher σ κ ι) (i : ι) (load : Queries σ (List (Nat → κ → κ))) :
    ∃ ok, Reaches loads { s with phase := .loading i load }
      ({ s with
        cache := written s.older.length s.cache (load.runAt s.db)
        ended := s.ended ++ [(i, ok)] }.enter s.rest) := by
  induction load with
  | ret writes =>
    refine ⟨true, (Reaches.step rfl).trans ((reaches_writes s i writes).trans ?_)⟩
    refine (Reaches.step rfl).trans ⟨0, ?_⟩
    cases hrest : s.rest with
    | nil => rfl
    | cons j rest => rfl
  | error =>
    refine ⟨false, (Reaches.step rfl).trans ⟨0, ?_⟩⟩
    cases hrest : s.rest with
    | nil => rfl
    | cons j rest => rfl
  | query onAnswer onError ihAnswer ihError =>
    obtain ⟨ok, h⟩ := ihAnswer s.db
    exact ⟨ok, (Reaches.step rfl).trans h⟩

variable (loads) in
/-- The loads that are left in a round. -/
theorem reaches_sleep (s : Refresher σ κ ι) (rest : List (ι × Load σ κ)) :
    ∃ s', Reaches loads (s.enter rest) s' ∧ s'.phase = .sleeping ∧ s'.versions = s.versions ∧
      s'.cache = rest.foldl (fun cache j => loaded s.db s.older.length cache j.2) s.cache := by
  induction rest generalizing s with
  | nil => exact ⟨_, ⟨0, rfl⟩, rfl, rfl, rfl⟩
  | cons j rest ih =>
    obtain ⟨i, load⟩ := j
    obtain ⟨ok, hload⟩ := reaches_load loads { s with rest := rest } i
      (load s.older.length s.cache)
    obtain ⟨s', hrest, hsleeping, hversions, hcache⟩ := ih
      { s with
        cache := loaded s.db s.older.length s.cache load
        ended := s.ended ++ [(i, ok)]
        rest := rest }
    exact ⟨s', hload.trans hrest, hsleeping, hversions, hcache⟩

variable (loads) in
/-- **A round** on a database that does not change: the task ends it, with one load after the
other applied to the cache. -/
theorem exec_round {s : Refresher σ κ ι} (h : s.phase = .sleeping) :
    ∃ n s', exec (step loads) s (List.replicate n .next) = some s' ∧ s'.phase = .sleeping ∧
      s'.versions = s.versions ∧
      s'.cache = loads.foldl (fun cache j => loaded s.db s.older.length cache j.2) s.cache := by
  have hstart : Refresher.step loads s .next =
      some ({ s with ended := [], roundStart := s.older.length }.enter loads) := by
    unfold Refresher.step
    rw [h]
  obtain ⟨s', hround, hsleeping, hversions, hcache⟩ := reaches_sleep loads
    { s with ended := [], roundStart := s.older.length } loads
  obtain ⟨n, hn⟩ := (Reaches.step hstart).trans hround
  exact ⟨n, s', hn, hsleeping, hversions, hcache⟩

end Refresher

end DelegationStrategy.Lib
