import DelegationStrategy.Lib.Query

/-!
# Commands without a transaction

A command is a list of statements, executed one after the other over one
connection. A statement fails and changes nothing, or it commits; the command
stops at the first statement that fails (`autocommit`), and what was committed
before stays. A statement may fail by itself or through a `fault` of the
environment: a lost connection, a full disk, a lock timeout.

- `autocommit_spec`: what remains of a command are the first `k` of its
  statements, all of them if it succeeds;
- `autocommit_eq_ok_iff`: it succeeds exactly if all of its statements commit;
- `autocommit_inv`, `autocommit_sim`: invariants and simulations of statements are
  those of commands;
- `autocommit_stopAt`: a connection lost before statement `k` leaves exactly the
  first `k` statements;
- `autocommitLossy_fst`: a connection that also loses the reply of a statement that
  has committed leaves what a fault before the next statement leaves, but the command
  may fail although all of its statements have committed;
- `ByChunks.autocommit_spec`: a command that stores items a chunk at a time leaves a
  prefix of the items, all of them if it succeeds.
-/

namespace DelegationStrategy.Lib

universe u v w x

variable {ε : Type u} {σ : Type v}

abbrev Statement (ε : Type u) (σ : Type v) := σ → Except ε σ

/-- All statements, up to the first that fails. -/
def commitAll : List (Statement ε σ) → σ → Except ε σ
  | [], s => .ok s
  | statement :: rest, s =>
    match statement s with
    | .error e => .error e
    | .ok s' => commitAll rest s'

/-- The state the statements leave and the result of the command; statement `i`
does not get executed if `fault i` is an error. -/
def autocommit (fault : Nat → Option ε) : List (Statement ε σ) → σ → σ × Except ε Unit
  | [], s => (s, .ok ())
  | statement :: rest, s =>
    match fault 0 with
    | some e => (s, .error e)
    | none =>
      match statement s with
      | .error e => (s, .error e)
      | .ok s' => autocommit (fun i => fault (i + 1)) rest s'

/-- How many statements of the command commit. -/
def committed (fault : Nat → Option ε) : List (Statement ε σ) → σ → Nat
  | [], _ => 0
  | statement :: rest, s =>
    match fault 0 with
    | some _ => 0
    | none =>
      match statement s with
      | .error _ => 0
      | .ok s' => committed (fun i => fault (i + 1)) rest s' + 1

/-- The environment fails statement `k` and no other. -/
def stopAt (k : Nat) (e : ε) : Nat → Option ε := fun i => if i = k then some e else none

theorem commitAll_cons {statement : Statement ε σ} {rest : List (Statement ε σ)} {s s' : σ} :
    commitAll (statement :: rest) s = .ok s' ↔
      ∃ s₁, statement s = .ok s₁ ∧ commitAll rest s₁ = .ok s' := by
  show (match statement s with
    | Except.error e => Except.error e
    | .ok s₁ => commitAll rest s₁) = _ ↔ _
  cases statement s with
  | error e => exact ⟨fun h => (nomatch h), fun ⟨_, h, _⟩ => (nomatch h)⟩
  | ok s₁ => exact ⟨fun h => ⟨s₁, rfl, h⟩, fun ⟨_, h₁, h⟩ => Except.ok.inj h₁ ▸ h⟩

theorem commitAll_append {statements rest : List (Statement ε σ)} {s s' : σ} :
    commitAll (statements ++ rest) s = .ok s' ↔
      ∃ s₁, commitAll statements s = .ok s₁ ∧ commitAll rest s₁ = .ok s' := by
  induction statements generalizing s with
  | nil => exact ⟨fun h => ⟨s, rfl, h⟩, fun ⟨_, h₁, h⟩ => Except.ok.inj h₁ ▸ h⟩
  | cons statement statements ih =>
    rw [List.cons_append, commitAll_cons]
    constructor
    · rintro ⟨s₁, h₁, h⟩
      obtain ⟨s₂, h₂, h⟩ := ih.mp h
      exact ⟨s₂, commitAll_cons.mpr ⟨s₁, h₁, h₂⟩, h⟩
    · rintro ⟨s₂, h₂, h⟩
      obtain ⟨s₁, h₁, h₂⟩ := commitAll_cons.mp h₂
      exact ⟨s₁, h₁, ih.mpr ⟨s₂, h₂, h⟩⟩

theorem commitAll_append_bind (statements rest : List (Statement ε σ)) (s : σ) :
    commitAll (statements ++ rest) s = commitAll statements s >>= commitAll rest := by
  induction statements generalizing s with
  | nil => rfl
  | cons statement statements ih =>
    rw [List.cons_append]
    unfold commitAll
    cases statement s with
    | error e => rfl
    | ok s' => exact ih s'

/-- **Invariant rule**: what every statement keeps, the statements keep. -/
theorem commitAll_inv {P : σ → Prop} {statements : List (Statement ε σ)}
    (hstep : ∀ statement ∈ statements, ∀ s s', P s → statement s = .ok s' → P s')
    {s s' : σ} (hs : P s) (h : commitAll statements s = .ok s') : P s' := by
  induction statements generalizing s with
  | nil => exact Except.ok.inj h ▸ hs
  | cons statement statements ih =>
    obtain ⟨s₁, h₁, hrest⟩ := commitAll_cons.mp h
    exact ih (fun st hst => hstep st (List.mem_cons_of_mem _ hst))
      (hstep statement List.mem_cons_self s s₁ hs h₁) hrest

/-- The first statements of a command that succeeds succeed. -/
theorem commitAll_take {statements : List (Statement ε σ)} {s s' : σ}
    (h : commitAll statements s = .ok s') (k : Nat) :
    ∃ s₁, commitAll (statements.take k) s = .ok s₁ := by
  rw [← List.take_append_drop k statements] at h
  obtain ⟨s₁, h₁, -⟩ := commitAll_append.mp h
  exact ⟨s₁, h₁⟩

/-- **What remains of a command**: the first `k` statements, all of them if it
succeeds; if it fails, statement `k` is the one that failed. -/
theorem autocommit_spec (fault : Nat → Option ε) (statements : List (Statement ε σ)) (s : σ) :
    ∃ k, commitAll (statements.take k) s = .ok (autocommit fault statements s).1 ∧
      (∀ i < k, fault i = none) ∧
      (((autocommit fault statements s).2 = .ok () ∧ k = statements.length) ∨
        ∃ e statement, (autocommit fault statements s).2 = .error e ∧
          statements[k]? = some statement ∧
          (fault k = some e ∨ (fault k = none ∧
            statement (autocommit fault statements s).1 = .error e))) := by
  induction statements generalizing fault s with
  | nil => exact ⟨0, rfl, fun _ h => (nomatch h), Or.inl ⟨rfl, rfl⟩⟩
  | cons statement rest ih =>
    unfold autocommit
    cases hf : fault 0 with
    | some e =>
      exact ⟨0, rfl, fun _ h => (nomatch h), Or.inr ⟨e, statement, rfl, rfl, Or.inl hf⟩⟩
    | none =>
      cases hs : statement s with
      | error e =>
        exact ⟨0, rfl, fun _ h => (nomatch h),
          Or.inr ⟨e, statement, rfl, rfl, Or.inr ⟨hf, hs⟩⟩⟩
      | ok s₁ =>
        obtain ⟨k, hk, hnone, hend⟩ := ih (fun i => fault (i + 1)) s₁
        refine ⟨k + 1, commitAll_cons.mpr ⟨s₁, hs, hk⟩, fun i hi => ?_, ?_⟩
        · cases i with
          | zero => exact hf
          | succ i => exact hnone i (Nat.lt_of_succ_lt_succ hi)
        · rcases hend with ⟨hok, hlen⟩ | hfail
          · exact Or.inl ⟨hok, by rw [hlen, List.length_cons]⟩
          · exact Or.inr hfail

/-- A command that fails at its first statement changes nothing. -/
theorem autocommit_cons_error (fault : Nat → Option ε) {statement : Statement ε σ}
    (rest : List (Statement ε σ)) {s : σ} {e : ε} (h : statement s = .error e) :
    (autocommit fault (statement :: rest) s).1 = s := by
  unfold autocommit
  rw [h]
  cases fault 0 with
  | some e => rfl
  | none => rfl

/-- The statements that commit leave the state of the command. -/
theorem commitAll_committed (fault : Nat → Option ε) (statements : List (Statement ε σ))
    (s : σ) :
    commitAll (statements.take (committed fault statements s)) s =
      .ok (autocommit fault statements s).1 := by
  induction statements generalizing fault s with
  | nil => rfl
  | cons statement rest ih =>
    unfold committed autocommit
    cases fault 0 with
    | some e => rfl
    | none =>
      cases hs : statement s with
      | error e => rfl
      | ok s' => exact commitAll_cons.mpr ⟨s', hs, ih _ s'⟩

/-- A command succeeds exactly if all of its statements commit. -/
theorem autocommit_eq_ok_iff (fault : Nat → Option ε) (statements : List (Statement ε σ))
    (s : σ) :
    (autocommit fault statements s).2 = .ok () ↔
      committed fault statements s = statements.length := by
  induction statements generalizing fault s with
  | nil => exact iff_of_true rfl rfl
  | cons statement rest ih =>
    unfold autocommit committed
    cases fault 0 with
    | some e => exact iff_of_false (by simp) (by simp)
    | none =>
      cases statement s with
      | error e => exact iff_of_false (by simp) (by simp)
      | ok s' =>
        rw [List.length_cons, Nat.add_right_cancel_iff]
        exact ih _ s'

/-- A command without faults whose statements succeed succeeds. -/
theorem autocommit_of_commitAll {fault : Nat → Option ε} (hfault : ∀ i, fault i = none)
    {statements : List (Statement ε σ)} {s s' : σ} (h : commitAll statements s = .ok s') :
    autocommit fault statements s = (s', .ok ()) := by
  induction statements generalizing fault s with
  | nil => exact congrArg (·, Except.ok ()) (Except.ok.inj h)
  | cons statement rest ih =>
    obtain ⟨s₁, hs, hrest⟩ := commitAll_cons.mp h
    unfold autocommit
    rw [hfault 0]
    show (match statement s with | .error e => _ | .ok s' => _) = _
    rw [hs]
    exact ih (fun i => hfault (i + 1)) hrest

theorem stopAt_shift (k : Nat) (e : ε) : (fun i => stopAt (k + 1) e (i + 1)) = stopAt k e := by
  funext i
  unfold stopAt
  simp only [Nat.add_right_cancel_iff]

/-- A fault at statement `k` leaves the statements before it. -/
theorem autocommit_stopAt {statements : List (Statement ε σ)} {s s' : σ} {k : Nat}
    (hk : k < statements.length) (h : commitAll (statements.take k) s = .ok s') (e : ε) :
    autocommit (stopAt k e) statements s = (s', .error e) := by
  induction k generalizing statements s with
  | zero =>
    obtain ⟨statement, rest, rfl⟩ := List.exists_cons_of_length_pos hk
    obtain rfl := Except.ok.inj h
    rfl
  | succ k ih =>
    obtain ⟨statement, rest, rfl⟩ := List.exists_cons_of_length_pos (Nat.zero_lt_of_lt hk)
    rw [List.take_succ_cons] at h
    obtain ⟨s₁, hs, hrest⟩ := commitAll_cons.mp h
    unfold autocommit
    show (match statement s with | .error e => _ | .ok s' => _) = _
    rw [hs]
    show autocommit (fun i => stopAt (k + 1) e (i + 1)) rest s₁ = _
    rw [stopAt_shift]
    exact ih (Nat.lt_of_succ_lt_succ hk) hrest

/-- **Invariant rule for commands**, with any faults. -/
theorem autocommit_inv {P : σ → Prop} {statements : List (Statement ε σ)}
    (hstep : ∀ statement ∈ statements, ∀ s s', P s → statement s = .ok s' → P s')
    (fault : Nat → Option ε) {s : σ} (hs : P s) : P (autocommit fault statements s).1 := by
  obtain ⟨k, hk, -⟩ := autocommit_spec fault statements s
  exact commitAll_inv (fun statement hmem => hstep statement (List.mem_of_mem_take hmem)) hs hk

/-- **Simulation rule**: a command whose statements act on a part of the state leaves
in this part what the command on the part alone leaves. -/
theorem autocommit_sim {ι : Type u} {τ : Type v} (part : σ → τ) {l : List ι}
    {statement : ι → Statement ε σ} {statement' : ι → Statement ε τ}
    (h : ∀ i ∈ l, ∀ s, (statement i s).map part = statement' i (part s))
    (fault : Nat → Option ε) (s : σ) :
    part (autocommit fault (l.map statement) s).1 =
      (autocommit fault (l.map statement') (part s)).1 := by
  induction l generalizing fault s with
  | nil => rfl
  | cons i l ih =>
    rw [List.map_cons, List.map_cons]
    unfold autocommit
    cases fault 0 with
    | some e => rfl
    | none =>
      rw [← h i List.mem_cons_self s]
      cases statement i s with
      | error e => rfl
      | ok s' => exact ih (fun j hj => h j (List.mem_cons_of_mem _ hj)) _ s'

/-! ## Lost replies -/

/-- As `autocommit`, over a connection that is also lost between the commit of statement `i`
and its reply if `lost i` is an error. -/
def autocommitLossy (fault lost : Nat → Option ε) :
    List (Statement ε σ) → σ → σ × Except ε Unit
  | [], s => (s, .ok ())
  | statement :: rest, s =>
    match fault 0 with
    | some e => (s, .error e)
    | none =>
      match statement s with
      | .error e => (s, .error e)
      | .ok s' =>
        match lost 0 with
        | some e => (s', .error e)
        | none => autocommitLossy (fun i => fault (i + 1)) (fun i => lost (i + 1)) rest s'

/-- A lost reply keeps the next statement from being executed. -/
def faultsOf (fault lost : Nat → Option ε) : Nat → Option ε
  | 0 => fault 0
  | i + 1 => (lost i).or (fault (i + 1))

theorem faultsOf_shift {fault lost : Nat → Option ε} (h : lost 0 = none) :
    (fun i => faultsOf fault lost (i + 1)) =
      faultsOf (fun i => fault (i + 1)) fun i => lost (i + 1) := by
  funext i
  cases i with
  | zero =>
    show (lost 0).or (fault 1) = fault 1
    rw [h, Option.none_or]
  | succ i => rfl

theorem faultsOf_none (fault : Nat → Option ε) : faultsOf fault (fun _ => none) = fault := by
  funext i
  cases i with
  | zero => rfl
  | succ i => exact Option.none_or

/-- **What remains** of a command whose replies may be lost. -/
theorem autocommitLossy_fst (fault lost : Nat → Option ε) (statements : List (Statement ε σ))
    (s : σ) :
    (autocommitLossy fault lost statements s).1 =
      (autocommit (faultsOf fault lost) statements s).1 := by
  induction statements generalizing fault lost s with
  | nil => rfl
  | cons statement rest ih =>
    unfold autocommitLossy autocommit
    show (match fault 0 with | some e => _ | none => _ : σ × Except ε Unit).1 =
      (match fault 0 with | some e => _ | none => _ : σ × Except ε Unit).1
    cases fault 0 with
    | some e => rfl
    | none =>
      cases statement s with
      | error e => rfl
      | ok s' =>
        cases hlost : lost 0 with
        | none =>
          show (autocommitLossy _ _ rest s').1 = (autocommit _ rest s').1
          rw [faultsOf_shift hlost]
          exact ih _ _ s'
        | some e =>
          -- the rest is not executed
          cases rest with
          | nil => rfl
          | cons next rest =>
            show s' = (match (lost 0).or (fault 1) with
              | some e => _
              | none => _ : σ × Except ε Unit).1
            rw [hlost]
            rfl

/-- A command that has got all replies has committed all statements. -/
theorem autocommit_eq_ok_of_lossy {fault lost : Nat → Option ε}
    {statements : List (Statement ε σ)} {s : σ}
    (h : (autocommitLossy fault lost statements s).2 = .ok ()) :
    (autocommit (faultsOf fault lost) statements s).2 = .ok () := by
  induction statements generalizing fault lost s with
  | nil => rfl
  | cons statement rest ih =>
    unfold autocommitLossy at h
    unfold autocommit
    show (match fault 0 with | some e => _ | none => _ : σ × Except ε Unit).2 = _
    cases hfault : fault 0 with
    | some e =>
      rw [hfault] at h
      cases h
    | none =>
      rw [hfault] at h
      cases hs : statement s with
      | error e =>
        rw [hs] at h
        cases h
      | ok s' =>
        rw [hs] at h
        cases hlost : lost 0 with
        | some e =>
          rw [hlost] at h
          cases h
        | none =>
          rw [hlost] at h
          show (autocommit (fun i => faultsOf fault lost (i + 1)) rest s').2 = _
          rw [faultsOf_shift hlost]
          exact ih h

/-- Before a fault at statement `k` the statements commit that succeed. -/
theorem committed_stopAt {statements : List (Statement ε σ)} {s s' : σ} {k : Nat}
    (hk : k < statements.length) (h : commitAll (statements.take k) s = .ok s') (e : ε) :
    committed (stopAt k e) statements s = k := by
  induction k generalizing statements s with
  | zero =>
    obtain ⟨statement, rest, rfl⟩ := List.exists_cons_of_length_pos hk
    rfl
  | succ k ih =>
    obtain ⟨statement, rest, rfl⟩ := List.exists_cons_of_length_pos (Nat.zero_lt_of_lt hk)
    rw [List.take_succ_cons] at h
    obtain ⟨s₁, hs, hrest⟩ := commitAll_cons.mp h
    unfold committed
    show (match statement s with | .error e => _ | .ok s' => _) = _
    rw [hs, stopAt_shift]
    exact congrArg (· + 1) (ih (Nat.lt_of_succ_lt_succ hk) hrest)

/-! ## Items a chunk at a time -/

section Chunks

variable {α : Type w} {κ : Type x}

/-- The statement of a chunk stores its items if their keys are distinct, and items stored
after others are stored as if together with them. -/
structure ByChunks (key : α → κ) (store : List α → σ → σ)
    (statement : List α → Statement ε σ) : Prop where
  nil : ∀ s, store [] s = s
  append : ∀ items rest s, store rest (store items s) = store (items ++ rest) s
  chunk : ∀ items s, (items.map key).Nodup → statement items s = .ok (store items s)

variable {key : α → κ} {store : List α → σ → σ} {statement : List α → Statement ε σ}

namespace ByChunks

/-- Chunks that commit store the items of the chunks. -/
theorem commitAll_eq (hchunks : ByChunks key store statement) {parts : List (List α)}
    (hnd : (parts.flatten.map key).Nodup) (s : σ) :
    commitAll (parts.map statement) s = .ok (store parts.flatten s) := by
  induction parts generalizing s with
  | nil => exact congrArg Except.ok (hchunks.nil s).symm
  | cons items parts ih =>
    rw [List.flatten_cons, List.map_append] at hnd
    obtain ⟨hitems, hrest, -⟩ := List.nodup_append.mp hnd
    refine commitAll_cons.mpr ⟨store items s, hchunks.chunk items s hitems, ?_⟩
    rw [ih hrest, hchunks.append, List.flatten_cons]

variable {n : Nat} {items : List α}

/-- **What remains of the command**: the items of the chunks that committed, all items if
nothing fails. -/
theorem autocommit_spec (hchunks : ByChunks key store statement) (hn : 0 < n)
    (hnd : (items.map key).Nodup) (fault : Nat → Option ε) (s : σ) :
    ∃ k, (autocommit fault ((chunks n items).map statement) s).1 =
        store (items.take (n * k)) s ∧
      ((autocommit fault ((chunks n items).map statement) s).2 = .ok () →
        items.take (n * k) = items) := by
  obtain ⟨k, hk, -, hend⟩ := Lib.autocommit_spec fault ((chunks n items).map statement) s
  rw [← List.map_take, hchunks.commitAll_eq, chunks_take_flatten hn] at hk
  · refine ⟨k, (Except.ok.inj hk).symm, fun hok => ?_⟩
    rcases hend with ⟨-, hlen⟩ | ⟨e, _, herr, -⟩
    · rw [hlen, List.length_map, take_length_chunks hn]
    · exact absurd (hok.symm.trans herr) (by simp)
  · rw [chunks_take_flatten hn]
    exact hnd.sublist ((List.take_sublist _ _).map _)

/-- Without a fault the command stores all items. -/
theorem autocommit_complete (hchunks : ByChunks key store statement) (hn : 0 < n)
    (hnd : (items.map key).Nodup) (s : σ) :
    autocommit (fun _ => none) ((chunks n items).map statement) s = (store items s, .ok ()) := by
  have hcommit := hchunks.commitAll_eq (show ((chunks n items).flatten.map key).Nodup by
    rwa [chunks_flatten hn]) s
  rw [chunks_flatten hn] at hcommit
  exact autocommit_of_commitAll (fun _ => rfl) hcommit

end ByChunks

end Chunks

end DelegationStrategy.Lib
