import Mathlib.Data.List.Infix

/-!
# Runs of labelled systems

A *system* is a partial step function `step : σ → α → Option σ`: the action
`a` is enabled in `s` when `step s a` is `some`, and the state after it is then
determined. All nondeterminism (scheduling, arrival of requests, failures) is
in the choice of the action, so an interleaving is a list of actions.

- `exec`: run a list of actions.
- `StatesAll P`: `P` holds in every state a run visits (safety along the run).
- `StepsAll ok`: every step the run takes satisfies `ok` in the state *before*
  it (a condition on the environment or on the schedule).

The rules below are the only inductions over runs in this development: an
invariant is proved for one step and transported by `statesAll_of_invariant`
or `statesAll_of_stepsAll`; an exact characterization of the runs that keep a
property is proved for one step and transported by `statesAll_iff_stepsAll`.
-/

namespace DelegationStrategy.Lib

universe u v

variable {σ : Type u} {α : Type v}

/-- Execute a list of actions; `none` as soon as one of them is not enabled. -/
def exec (step : σ → α → Option σ) : σ → List α → Option σ
  | s, [] => some s
  | s, a :: as => (step s a).bind fun s' => exec step s' as

/-- `P` holds in every state the run visits, the start included. -/
def StatesAll (step : σ → α → Option σ) (P : σ → Prop) : σ → List α → Prop
  | s, [] => P s
  | s, a :: as => P s ∧ ∀ s', step s a = some s' → StatesAll step P s' as

/-- Every step the run takes satisfies `ok` in the state before it. -/
def StepsAll (step : σ → α → Option σ) (ok : σ → α → Prop) : σ → List α → Prop
  | _, [] => True
  | s, a :: as => ∀ s', step s a = some s' → ok s a ∧ StepsAll step ok s' as

variable {step : σ → α → Option σ}

/-- The condition of a run whose first step is known. -/
theorem StepsAll.cons {ok : σ → α → Prop} {s s₁ : σ} {a : α} {as : List α}
    (h : step s a = some s₁) (ha : ok s a) (hrest : StepsAll step ok s₁ as) :
    StepsAll step ok s (a :: as) := by
  intro s' hs'
  obtain rfl := Option.some.inj (h.symm.trans hs')
  exact ⟨ha, hrest⟩

/-- A condition that holds of every action in any state. -/
theorem StepsAll.of_forall {ok : σ → α → Prop} {s : σ} {as : List α}
    (h : ∀ a ∈ as, ∀ s, ok s a) : StepsAll step ok s as := by
  induction as generalizing s with
  | nil => trivial
  | cons a as ih =>
    intro s' _
    exact ⟨h a List.mem_cons_self s, ih fun b hb => h b (List.mem_cons_of_mem _ hb)⟩

/-- A condition that the first part of a run meets, and the second from where the first ends. -/
theorem StepsAll.append {ok : σ → α → Prop} {s : σ} {as bs : List α}
    (has : StepsAll step ok s as)
    (hbs : ∀ s', exec step s as = some s' → StepsAll step ok s' bs) :
    StepsAll step ok s (as ++ bs) := by
  induction as generalizing s with
  | nil => exact hbs s rfl
  | cons a as ih =>
    intro s₁ hs₁
    obtain ⟨ha, hrest⟩ := has s₁ hs₁
    refine ⟨ha, ih hrest fun s' hs' => hbs s' ?_⟩
    exact Option.bind_eq_some_iff.mpr ⟨s₁, hs₁, hs'⟩

/-- The condition of a run in two parts. -/
theorem StepsAll.of_append {ok : σ → α → Prop} {s s' : σ} {as bs : List α}
    (h : StepsAll step ok s (as ++ bs)) (hexec : exec step s as = some s') :
    StepsAll step ok s as ∧ StepsAll step ok s' bs := by
  induction as generalizing s with
  | nil =>
    obtain rfl := Option.some.inj hexec
    exact ⟨trivial, h⟩
  | cons a as ih =>
    obtain ⟨s₁, hs₁, hrest⟩ := Option.bind_eq_some_iff.mp hexec
    obtain ⟨ha, hsteps⟩ := h s₁ hs₁
    obtain ⟨has, hbs⟩ := ih hsteps hrest
    exact ⟨.cons hs₁ ha has, hbs⟩

theorem StatesAll.head {P : σ → Prop} {s : σ} {as : List α}
    (h : StatesAll step P s as) : P s := by
  cases as with
  | nil => exact h
  | cons a as => exact h.1

theorem StatesAll.mono {P Q : σ → Prop} (hPQ : ∀ s, P s → Q s) {s : σ}
    {as : List α} (h : StatesAll step P s as) : StatesAll step Q s as := by
  induction as generalizing s with
  | nil => exact hPQ s h
  | cons a as ih => exact ⟨hPQ s h.1, fun s' hs => ih (h.2 s' hs)⟩

/-- A run in two parts. -/
theorem exec_append (s : σ) (as bs : List α) :
    exec step s (as ++ bs) = (exec step s as).bind fun s' => exec step s' bs := by
  induction as generalizing s with
  | nil => rfl
  | cons a as ih =>
    show (step s a).bind _ = ((step s a).bind _).bind _
    rw [Option.bind_assoc]
    congr 1
    funext s'
    exact ih s'

/-- `StatesAll` says what it should: every state reached by a prefix of the run
satisfies `P`. -/
theorem statesAll_iff_exec {P : σ → Prop} {s : σ} {as : List α} :
    StatesAll step P s as ↔
      ∀ p, p <+: as → ∀ s', exec step s p = some s' → P s' := by
  induction as generalizing s with
  | nil =>
    constructor
    · intro h p hp s' hs'
      obtain rfl := List.prefix_nil.mp hp
      cases hs'
      exact h
    · intro h
      exact h [] (List.prefix_refl []) s rfl
  | cons a as ih =>
    constructor
    · rintro ⟨hs, hrest⟩ p hp s' hs'
      rcases List.prefix_cons_iff.mp hp with rfl | ⟨q, rfl, hq⟩
      · cases hs'
        exact hs
      · obtain ⟨s₁, h₁, h₂⟩ := Option.bind_eq_some_iff.mp hs'
        exact (ih.mp (hrest s₁ h₁)) q hq s' h₂
    · intro h
      refine ⟨h [] (List.nil_prefix) s rfl, fun s₁ h₁ => ih.mpr fun q hq s' hs' => ?_⟩
      refine h (a :: q) (List.prefix_cons_iff.mpr (Or.inr ⟨q, rfl, hq⟩)) s' ?_
      show (step s a).bind (fun s' => exec step s' q) = some s'
      rw [h₁]
      exact hs'

/-- The state in which the run ends. -/
theorem StatesAll.last {P : σ → Prop} {s s' : σ} {as : List α} (h : StatesAll step P s as)
    (hexec : exec step s as = some s') : P s' :=
  statesAll_iff_exec.mp h as (List.prefix_refl as) s' hexec

/-- **Invariant rule under a schedule condition**: an invariant that every step
satisfying `ok` preserves holds throughout every run all of whose steps satisfy
`ok`. -/
theorem statesAll_of_stepsAll {Inv : σ → Prop} {ok : σ → α → Prop}
    (hstep : ∀ s a s', Inv s → ok s a → step s a = some s' → Inv s')
    {s : σ} (hs : Inv s) {as : List α} (hok : StepsAll step ok s as) :
    StatesAll step Inv s as := by
  induction as generalizing s with
  | nil => exact hs
  | cons a as ih =>
    refine ⟨hs, fun s' h' => ?_⟩
    obtain ⟨ha, hrest⟩ := hok s' h'
    exact ih (hstep s a s' hs ha h') hrest

/-- **Invariant rule**: an invariant that every step preserves holds throughout
every run. -/
theorem statesAll_of_invariant {Inv : σ → Prop}
    (hstep : ∀ s a s', Inv s → step s a = some s' → Inv s')
    {s : σ} (hs : Inv s) (as : List α) : StatesAll step Inv s as := by
  induction as generalizing s with
  | nil => exact hs
  | cons a as ih => exact ⟨hs, fun s' h' => ih (hstep s a s' hs h')⟩

/-- **Exact schedule condition**: when, at every state of an invariant that
satisfies `P`, a step keeps `P` exactly if it satisfies `ok`, a run keeps `P`
throughout exactly if all of its steps satisfy `ok`. -/
theorem statesAll_iff_stepsAll {Inv P : σ → Prop} {ok : σ → α → Prop}
    (hinv : ∀ s a s', Inv s → step s a = some s' → Inv s')
    (hP : ∀ s a s', Inv s → P s → step s a = some s' → (P s' ↔ ok s a))
    {s : σ} (hs : Inv s) (hPs : P s) (as : List α) :
    StatesAll step P s as ↔ StepsAll step ok s as := by
  induction as generalizing s with
  | nil => exact ⟨fun _ => trivial, fun _ => hPs⟩
  | cons a as ih =>
    constructor
    · rintro ⟨-, hrest⟩ s' h'
      have hs' := hrest s' h'
      exact ⟨(hP s a s' hs hPs h').mp hs'.head,
        (ih (hinv s a s' hs h') hs'.head).mp hs'⟩
    · intro hok
      refine ⟨hPs, fun s' h' => ?_⟩
      obtain ⟨ha, hrest⟩ := hok s' h'
      exact (ih (hinv s a s' hs h') ((hP s a s' hs hPs h').mpr ha)).mpr hrest

end DelegationStrategy.Lib
