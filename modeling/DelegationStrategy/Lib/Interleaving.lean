import DelegationStrategy.Lib.Trace
import Mathlib.Data.List.Basic

/-!
# Interleaved processes

Processes with a local state each work on a shared state, one step at a time; the
environment may change the shared state in between. A `Protocol` says what a step
of each kind does, and its `step` is a system for `Lib.Trace`: a list of moves is an
interleaving, and any number of processes may start at any time.

- `Protocol.step_cases`: what a move does; `procs_split` singles out the one process that
  moves.
- `Protocol.forall_step`: the rule for a property of every process: starting
  establishes it, and no step of the environment, of the process itself or of
  another one breaks it.
- `Protocol.exec_solo`: a process that runs while nothing else moves.
-/

namespace DelegationStrategy.Lib

universe u v w x y

/-- The shared state, and the processes in the order in which they started. -/
structure Procs (σ : Type u) (π : Type v) where
  shared : σ
  procs : List π

inductive Move (μ : Type w) (ι : Type x) (β : Type y) where
  /-- The environment changes the shared state. -/
  | env (a : μ)
  /-- A process starts. -/
  | spawn (i : ι)
  /-- Process `n` takes a step. -/
  | proc (n : Nat) (b : β)

/-- What the steps do; `none` is a step that is not possible. -/
structure Protocol (σ : Type u) (π : Type v) (μ : Type w) (ι : Type x) (β : Type y) where
  env : σ → μ → Option σ
  start : ι → π
  proc : σ → π → β → Option (σ × π)

variable {σ : Type u} {π : Type v} {μ : Type w} {ι : Type x} {β : Type y}

namespace Protocol

def step (P : Protocol σ π μ ι β) (s : Procs σ π) : Move μ ι β → Option (Procs σ π)
  | .env a => (P.env s.shared a).map fun shared => ⟨shared, s.procs⟩
  | .spawn i => some ⟨s.shared, s.procs ++ [P.start i]⟩
  | .proc n b => s.procs[n]?.bind fun p =>
    (P.proc s.shared p b).map fun r => ⟨r.1, s.procs.set n r.2⟩

variable {P : Protocol σ π μ ι β} {s s' : Procs σ π} {a : Move μ ι β}

/-- **What a move does**: it changes the shared state, adds a process, or replaces one
process. -/
theorem step_cases (h : P.step s a = some s') :
    (∃ e shared, a = .env e ∧ P.env s.shared e = some shared ∧ s' = ⟨shared, s.procs⟩) ∨
    (∃ i, a = .spawn i ∧ s' = ⟨s.shared, s.procs ++ [P.start i]⟩) ∨
    ∃ n b p shared p', a = .proc n b ∧ s.procs[n]? = some p ∧
      P.proc s.shared p b = some (shared, p') ∧ s' = ⟨shared, s.procs.set n p'⟩ := by
  cases a with
  | env e =>
    obtain ⟨shared, hshared, rfl⟩ := Option.map_eq_some_iff.mp h
    exact Or.inl ⟨e, shared, rfl, hshared, rfl⟩
  | spawn i =>
    obtain rfl := Option.some.inj h
    exact Or.inr (Or.inl ⟨i, rfl, rfl⟩)
  | proc n b =>
    obtain ⟨p, hp, hmove⟩ := Option.bind_eq_some_iff.mp h
    obtain ⟨⟨shared, p'⟩, hproc, rfl⟩ := Option.map_eq_some_iff.mp hmove
    exact Or.inr (Or.inr ⟨n, b, p, shared, p', rfl, hp, hproc, rfl⟩)

/-- The processes around the one that moves, and those after its move. -/
theorem procs_split {n : Nat} {p : π} (hp : s.procs[n]? = some p) (p' : π) :
    ∃ before after, before.length = n ∧ s.procs = before ++ p :: after ∧
      s.procs.set n p' = before ++ p' :: after := by
  obtain ⟨hn, rfl⟩ := List.getElem?_eq_some_iff.mp hp
  refine ⟨s.procs.take n, s.procs.drop (n + 1), List.length_take_of_le (Nat.le_of_lt hn), ?_, ?_⟩
  · rw [List.getElem_cons_drop, List.take_append_drop]
  · rw [List.set_eq_take_append_cons_drop, if_pos hn]

/-- **Rule for a property of every process.** -/
theorem forall_step (Good : σ → π → Prop) (h : P.step s a = some s')
    (hgood : ∀ p ∈ s.procs, Good s.shared p)
    (hstart : ∀ i, a = .spawn i → Good s.shared (P.start i))
    (henv : ∀ e shared, a = .env e → P.env s.shared e = some shared →
      ∀ p ∈ s.procs, Good s.shared p → Good shared p)
    (hproc : ∀ n b p shared p', a = .proc n b → s.procs[n]? = some p →
      P.proc s.shared p b = some (shared, p') →
        Good shared p' ∧ ∀ q ∈ s.procs, Good s.shared q → Good shared q) :
    ∀ p ∈ s'.procs, Good s'.shared p := by
  rcases step_cases h with ⟨e, shared, ha, hshared, rfl⟩ | ⟨i, ha, rfl⟩ |
    ⟨n, b, p, shared, p', ha, hp, hstep, rfl⟩
  · exact fun p hp => henv e shared ha hshared p hp (hgood p hp)
  · intro q hq
    rcases List.mem_append.mp hq with hq | hq
    · exact hgood q hq
    · obtain rfl := List.mem_singleton.mp hq
      exact hstart i ha
  · obtain ⟨hown, hothers⟩ := hproc n b p shared p' ha hp hstep
    intro q hq
    rcases List.mem_or_eq_of_mem_set hq with hq | rfl
    · exact hothers q hq (hgood q hq)
    · exact hown

/-- The move of a process whose step is known. -/
theorem step_proc {n : Nat} {p p' : π} {b : β} {shared : σ} (hn : s.procs[n]? = some p)
    (h : P.proc s.shared p b = some (shared, p')) :
    P.step s (.proc n b) = some ⟨shared, s.procs.set n p'⟩ := by
  show s.procs[n]?.bind _ = _
  rw [hn, Option.bind_some, h]
  rfl

/-- The steps of one process while nothing else moves. -/
def solo (P : Protocol σ π μ ι β) : σ → π → List β → Option (σ × π)
  | shared, p, [] => some (shared, p)
  | shared, p, b :: bs => (P.proc shared p b).bind fun r => P.solo r.1 r.2 bs

theorem exec_solo {n : Nat} {p p' : π} {bs : List β} {shared' : σ}
    (hn : s.procs[n]? = some p) (h : P.solo s.shared p bs = some (shared', p')) :
    exec P.step s (bs.map (.proc n)) = some ⟨shared', s.procs.set n p'⟩ := by
  obtain ⟨hlt, hget⟩ := List.getElem?_eq_some_iff.mp hn
  induction bs generalizing s p with
  | nil =>
    obtain ⟨rfl, rfl⟩ := Prod.mk.inj (Option.some.inj h)
    rw [← hget, List.set_getElem_self]
    rfl
  | cons b bs ih =>
    obtain ⟨⟨shared₁, p₁⟩, hstep, hrest⟩ := Option.bind_eq_some_iff.mp h
    have hlt₁ : n < (s.procs.set n p₁).length := by
      rw [List.length_set]
      exact hlt
    have hn₁ : (s.procs.set n p₁)[n]? = some p₁ := List.getElem?_set_self hlt
    show (P.step s (.proc n b)).bind _ = _
    rw [step_proc hn hstep]
    show exec P.step ⟨shared₁, s.procs.set n p₁⟩ (bs.map (.proc n)) = _
    rw [@ih ⟨shared₁, s.procs.set n p₁⟩ p₁ hn₁ hrest hlt₁ (List.getElem_set_self hlt₁),
      List.set_set]

end Protocol

end DelegationStrategy.Lib
