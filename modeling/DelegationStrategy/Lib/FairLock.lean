import Mathlib.Data.List.Nodup
import Mathlib.Data.List.Sublists

/-!
# A fair, write-preferring reader–writer lock

The lock keeps the guards that are held and one FIFO queue of waiting requests.
A read request is admitted next to other readers, a write request only when no
guard is held, and nobody overtakes the queue: a request joins its end, and
only the front of the queue is ever granted (`grant`). Hence a read request
queues behind every write request that already waits.

The same task may hold several guards, and may ask for another one while it
holds some. That is the only source of trouble: `WaitCycle` is the state in
which a task holds a read guard and waits behind a writer that waits for this
very guard.

- `request_waitCycle_iff`: from a lock with no wait cycle, a request creates one
  **exactly** if the task already holds a read guard and some writer waits.
- `release_not_waitCycle`, `leave_not_waitCycle`: giving guards back never
  creates one.
- `request_waitCycle`, `release_waitCycle`: nothing the other tasks do resolves
  one.
-/

namespace DelegationStrategy.Lib

universe u

/-- Shared or exclusive access. -/
inductive Mode where
  | read
  | write
  deriving DecidableEq, Repr

/-- The guards held and the requests waiting, oldest first. -/
structure RwLock (τ : Type u) where
  holders : List (τ × Mode)
  queue : List (τ × Mode)
  deriving Repr, DecidableEq

namespace RwLock

variable {τ : Type u}

/-- A free lock. -/
def free : RwLock τ := ⟨[], []⟩

/-- Whether a request can be granted beside the guards held. -/
def admits (holders : List (τ × Mode)) : Mode → Bool
  | .read => holders.all fun h => h.2 == .read
  | .write => holders.isEmpty

/-- Grant the front of the queue as long as it is admitted. -/
def grant : List (τ × Mode) → List (τ × Mode) → RwLock τ
  | holders, [] => ⟨holders, []⟩
  | holders, (t, m) :: q =>
    if admits holders m then grant ((t, m) :: holders) q else ⟨holders, (t, m) :: q⟩

/-- A task asks for a guard: it joins the end of the queue. -/
def request (l : RwLock τ) (t : τ) (m : Mode) : RwLock τ :=
  grant l.holders (l.queue ++ [(t, m)])

/-- Task `t` has a request in the queue. -/
def Waits (l : RwLock τ) (t : τ) : Prop := t ∈ l.queue.map Prod.fst

variable [DecidableEq τ]

instance (l : RwLock τ) (t : τ) : Decidable (l.Waits t) :=
  inferInstanceAs (Decidable (t ∈ l.queue.map Prod.fst))

/-- A task drops one of its guards. -/
def release (l : RwLock τ) (t : τ) (m : Mode) : RwLock τ :=
  grant (l.holders.erase (t, m)) l.queue

/-- A task goes away: its guards are dropped and its request is withdrawn. -/
def leave (l : RwLock τ) (t : τ) : RwLock τ :=
  grant (l.holders.filter fun h => h.1 ≠ t) (l.queue.filter fun r => r.1 ≠ t)

omit [DecidableEq τ]

/-- At most one request waits for each task. -/
def OneRequest (l : RwLock τ) : Prop := (l.queue.map Prod.fst).Nodup

/-- **The wait cycle**: task `t` holds a read guard and waits for a second one
behind the writer `w`, which waits for all readers, `t` among them. -/
def WaitCycle (l : RwLock τ) : Prop :=
  ∃ t m w, (t, Mode.read) ∈ l.holders ∧
    List.Sublist [(w, Mode.write), (t, m)] l.queue

/-! ## What granting does -/

/-- Granting moves a prefix of the queue to the holders. -/
theorem grant_spec : ∀ (hs q : List (τ × Mode)),
    ∃ moved, q = moved ++ (grant hs q).queue ∧
      (grant hs q).holders = moved.reverse ++ hs
  | hs, [] => ⟨[], rfl, rfl⟩
  | hs, (t, m) :: q => by
    rw [grant]
    by_cases hadm : admits hs m
    · rw [if_pos hadm]
      obtain ⟨moved, hq, hh⟩ := grant_spec ((t, m) :: hs) q
      refine ⟨(t, m) :: moved, ?_, ?_⟩
      · rw [List.cons_append, ← hq]
      · rw [hh, List.reverse_cons, List.append_assoc]
        rfl
    · rw [if_neg hadm]
      exact ⟨[], rfl, rfl⟩

theorem grant_queue_sublist (hs q : List (τ × Mode)) :
    (grant hs q).queue.Sublist q := by
  obtain ⟨moved, hq, -⟩ := grant_spec hs q
  have h := List.sublist_append_right moved (grant hs q).queue
  rwa [← hq] at h

theorem subset_grant_holders (hs q : List (τ × Mode)) :
    hs ⊆ (grant hs q).holders := by
  obtain ⟨moved, -, hh⟩ := grant_spec hs q
  rw [hh]
  exact List.subset_append_right _ _

/-- The guards and requests of the tasks that satisfy `p`, counted together, are
only moved by granting. -/
theorem countP_grant (p : τ × Mode → Bool) (hs q : List (τ × Mode)) :
    (grant hs q).holders.countP p + (grant hs q).queue.countP p
      = hs.countP p + q.countP p := by
  obtain ⟨moved, hq, hh⟩ := grant_spec hs q
  have hsplit : q.countP p = moved.countP p + (grant hs q).queue.countP p := by
    conv_lhs => rw [hq]
    exact List.countP_append
  rw [hh, List.countP_append, List.countP_reverse]
  omega

/-- A queue whose front is not admitted stays as it is. -/
theorem grant_of_blocked {hs q : List (τ × Mode)} {r : τ × Mode}
    (h : admits hs r.2 = false) : grant hs (r :: q) = ⟨hs, r :: q⟩ := by
  obtain ⟨t, m⟩ := r
  rw [grant, if_neg (by simpa using h)]

/-- Granting creates no wait cycle: a task that is granted a guard no longer
waits, so the reader of a cycle held its guard before. -/
theorem waitCycle_of_grant {hs q : List (τ × Mode)}
    (hone : (q.map Prod.fst).Nodup) (h : (grant hs q).WaitCycle) :
    WaitCycle ⟨hs, q⟩ := by
  obtain ⟨t, m, w, hread, hsub⟩ := h
  obtain ⟨moved, hq, hh⟩ := grant_spec hs q
  refine ⟨t, m, w, ?_, hsub.trans (grant_queue_sublist hs q)⟩
  rw [hh, List.mem_append, List.mem_reverse] at hread
  rcases hread with hmoved | hheld
  · -- `t` would have two requests in the queue
    exfalso
    rw [hq, List.map_append, List.nodup_append] at hone
    have hwait : t ∈ (grant hs q).queue.map Prod.fst :=
      List.mem_map.mpr ⟨(t, m), hsub.subset (by simp), rfl⟩
    exact hone.2.2 t (List.mem_map.mpr ⟨_, hmoved, rfl⟩) t hwait rfl
  · exact hheld

/-- Granting resolves no wait cycle: the writer of the cycle is not admitted
beside the reader's guard, and the reader's request is behind it. -/
theorem waitCycle_grant {hs q : List (τ × Mode)} (h : WaitCycle ⟨hs, q⟩) :
    (grant hs q).WaitCycle := by
  obtain ⟨t, m, w, hread, hsub⟩ := h
  refine ⟨t, m, w, subset_grant_holders hs q hread, ?_⟩
  induction q generalizing hs with
  | nil => cases hsub
  | cons r q ih =>
    by_cases hadm : admits hs r.2
    · have hne : (w, Mode.write) ≠ r := by
        rintro rfl
        have hempty : hs = [] := List.isEmpty_iff.mp hadm
        rw [hempty] at hread
        cases hread
      obtain ⟨t', m'⟩ := r
      rw [grant, if_pos hadm]
      refine ih (List.mem_cons_of_mem _ hread) ?_
      cases hsub with
      | cons _ h => exact h
      | cons_cons _ _ => exact absurd rfl hne
    · rw [grant_of_blocked (by simpa using hadm)]
      exact hsub

/-! ## The operations -/

/-- A task that does not wait may join the queue. -/
theorem nodup_enqueue {l : RwLock τ} {t : τ} {m : Mode}
    (h : l.OneRequest) (ht : ¬ l.Waits t) :
    ((l.queue ++ [(t, m)]).map Prod.fst).Nodup := by
  rw [List.map_append, List.nodup_append]
  refine ⟨h, List.nodup_singleton _, ?_⟩
  rintro a ha b hb rfl
  obtain rfl : a = t := by simpa using hb
  exact ht ha

/-- Granting keeps the requests of different tasks apart. -/
theorem oneRequest_grant {hs q : List (τ × Mode)}
    (h : (q.map Prod.fst).Nodup) : (grant hs q).OneRequest :=
  ((grant_queue_sublist hs q).map Prod.fst).nodup h

/-- **When a request closes a wait cycle**: from a lock that has none, exactly
when the task holds a read guard while some writer waits. -/
theorem request_waitCycle_iff {l : RwLock τ} (hone : l.OneRequest)
    (hno : ¬ l.WaitCycle) {t : τ} (ht : ¬ l.Waits t) (m : Mode) :
    (l.request t m).WaitCycle ↔
      (t, Mode.read) ∈ l.holders ∧ ∃ w, (w, Mode.write) ∈ l.queue := by
  constructor
  · intro h
    obtain ⟨t', m', w, hread, hsub⟩ :=
      waitCycle_of_grant (nodup_enqueue hone ht) h
    obtain ⟨a, b, hab, ha, hb⟩ := List.sublist_append_iff.mp hsub
    -- either the cycle's request was in the queue before, or it is the new one
    match a, hab, ha with
    | [], hab, _ =>
      have hlen := hb.length_le
      rw [List.nil_append] at hab
      rw [← hab] at hlen
      simp at hlen
    | [x], hab, ha =>
      obtain ⟨rfl, rfl⟩ : (w, Mode.write) = x ∧ [(t', m')] = b := by
        simpa using hab
      obtain ⟨rfl, rfl⟩ : t' = t ∧ m' = m := by
        simpa using hb
      exact ⟨hread, w, List.singleton_sublist.mp ha⟩
    | x :: y :: rest, hab, ha =>
      obtain ⟨rfl, rfl, hrest⟩ :
          (w, Mode.write) = x ∧ (t', m') = y ∧ [] = rest ++ b := by
        simpa using hab
      obtain ⟨rfl, -⟩ := List.append_eq_nil_iff.mp hrest.symm
      exact absurd ⟨t', m', w, hread, ha⟩ hno
  · rintro ⟨hread, w, hw⟩
    refine waitCycle_grant ⟨t, m, w, hread, ?_⟩
    have h := (List.singleton_sublist.mpr hw).append
      (List.Sublist.refl [(t, m)])
    exact h

variable [DecidableEq τ]

/-- Dropping a guard creates no wait cycle. -/
theorem release_not_waitCycle {l : RwLock τ} (hone : l.OneRequest)
    (hno : ¬ l.WaitCycle) (t : τ) (m : Mode) : ¬ (l.release t m).WaitCycle := by
  intro h
  obtain ⟨t', m', w, hread, hsub⟩ := waitCycle_of_grant hone h
  exact hno ⟨t', m', w, List.mem_of_mem_erase hread, hsub⟩

/-- A task that goes away creates no wait cycle. -/
theorem leave_not_waitCycle {l : RwLock τ} (hone : l.OneRequest)
    (hno : ¬ l.WaitCycle) (t : τ) : ¬ (l.leave t).WaitCycle := by
  intro h
  have hone' : ((l.queue.filter fun r => r.1 ≠ t).map Prod.fst).Nodup :=
    (List.filter_sublist.map Prod.fst).nodup hone
  obtain ⟨t', m', w, hread, hsub⟩ := waitCycle_of_grant hone' h
  exact hno ⟨t', m', w, List.mem_of_mem_filter hread,
    hsub.trans List.filter_sublist⟩

omit [DecidableEq τ] in
/-- A request of another task leaves a wait cycle in place. -/
theorem request_waitCycle {l : RwLock τ} (h : l.WaitCycle) (t : τ) (m : Mode) :
    (l.request t m).WaitCycle := by
  obtain ⟨t', m', w, hread, hsub⟩ := h
  exact waitCycle_grant ⟨t', m', w, hread, hsub.trans (List.sublist_append_left _ _)⟩

/-- A guard dropped by a task that does not wait leaves a wait cycle in place:
the reader of the cycle waits, so it is another task's guard. -/
theorem release_waitCycle {l : RwLock τ} (h : l.WaitCycle) {t : τ}
    (ht : ¬ l.Waits t) (m : Mode) : (l.release t m).WaitCycle := by
  obtain ⟨t', m', w, hread, hsub⟩ := h
  have hne : (t', Mode.read) ≠ (t, m) := by
    intro heq
    obtain rfl : t' = t := congrArg Prod.fst heq
    exact ht (List.mem_map.mpr ⟨(t', m'), hsub.subset (by simp), rfl⟩)
  exact waitCycle_grant ⟨t', m', w, (List.mem_erase_of_ne hne).mpr hread, hsub⟩

end RwLock

end DelegationStrategy.Lib
