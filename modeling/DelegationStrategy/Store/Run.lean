import DelegationStrategy.Lib.Sql

/-!
# Runs of the store commands

A store command reads one snapshot file and updates the database. `storeAll` runs a
command on one snapshot after the other; `storeAll_inv` is the induction over such
runs.
-/

namespace DelegationStrategy.Store

open DelegationStrategy.Lib

/-- Run a store command on one snapshot after the other, each with the order in
which its query returns rows. -/
def storeAll {α τ : Type} (store : Scan → α → τ → Except DbError τ)
    (runs : List (Scan × α)) (table : τ) : Except DbError τ :=
  runs.foldlM (fun table run => store run.1 run.2 table) table

/-- **Run rule**: an invariant about the snapshots stored so far that every
completed command extends by its snapshot holds at the end of every run. -/
theorem storeAll_inv {α τ : Type} {store : Scan → α → τ → Except DbError τ}
    {Inv : List α → τ → Prop} {before : α → α → Prop}
    (hstep : ∀ past scan snapshot table table', Inv past table →
      (∀ s ∈ past, before s snapshot) → store scan snapshot table = .ok table' →
        Inv (past ++ [snapshot]) table')
    {past : List α} {runs : List (Scan × α)} {table table' : τ} (hinv : Inv past table)
    (horder : (past ++ runs.map Prod.snd).Pairwise before)
    (h : storeAll store runs table = .ok table') :
    Inv (past ++ runs.map Prod.snd) table' := by
  induction runs generalizing past table with
  | nil =>
    obtain rfl := Except.ok.inj h
    simpa using hinv
  | cons run runs ih =>
    obtain ⟨table₁, hfirst, hrest⟩ := bind_eq_ok.mp h
    rw [List.map_cons, List.append_cons] at horder ⊢
    refine ih (hstep past run.1 run.2 table table₁ hinv (fun s hs => ?_) hfirst) horder hrest
    have hpast := (List.pairwise_append.mp horder).1
    exact (List.pairwise_append.mp hpast).2.2 s hs _ (List.mem_singleton_self _)

end DelegationStrategy.Store
