import DelegationStrategy.Lib.Query
import Mathlib.Data.List.Chain

/-!
# Change logs

A *change log* records a value per key only when it differs from the latest
recorded one. Rows carry a key, a time stamp and a value, read through a
`LogView`; an `Observation` is what was seen at one time, at most one value per
key; `Records` is one update of the log, which appends a row for exactly the
keys whose latest value differs.

Keys may be missing from an observation and come back later, and values may flip
back and forth. Nevertheless, along observations with increasing times, the log
(`LogView.Inv`, `inv_records`)

- is ordered: the rows of a key have increasing times;
- is minimal: consecutive rows of a key differ;
- is lossless: for every past observation of a key, the latest row not after it
  carries the observed value;
- is stable: recording the last observation again changes nothing
  (`records_again`).
-/

namespace DelegationStrategy.Lib

universe u v w

variable {ρ : Type u} {κ : Type v} {τ : Type} {β : Type w}
variable [DecidableEq κ] [LinearOrder τ]

/-- How the rows of a log are read. -/
structure LogView (ρ : Type u) (κ : Type v) (τ : Type) (β : Type w) where
  key : ρ → κ
  time : ρ → τ
  value : ρ → β

/-- The values seen at one time. -/
structure Observation (κ : Type v) (τ : Type) (β : Type w) where
  time : τ
  seen : Dict κ β

namespace LogView

variable (V : LogView ρ κ τ β)

/-- The rows of one key, in the order of the log. -/
def rowsOf (rows : List ρ) (k : κ) : List ρ := rows.filter fun r => V.key r = k

/-- The latest row of a key. -/
def last (rows : List ρ) (k : κ) : Option ρ := latest V.key V.time rows k

/-- The latest row of a key among those with time at most `t`. -/
def lastUpTo (rows : List ρ) (t : τ) (k : κ) : Option ρ :=
  V.last (rows.filter fun r => V.time r ≤ t) k

/-- `rows'` is `rows` with a new row for exactly the observed keys whose latest
value is not the observed one. -/
def Records (rows : List ρ) (o : Observation κ τ β) (rows' : List ρ) : Prop :=
  ∃ new, rows' = rows ++ new ∧ (new.map V.key).Nodup ∧
    (∀ r ∈ new, V.time r = o.time ∧ o.seen.get? (V.key r) = some (V.value r) ∧
      (V.last rows (V.key r)).map V.value ≠ some (V.value r)) ∧
    ∀ k b, o.seen.get? k = some b →
      (V.last rows k).map V.value = some b ∨ ∃ r ∈ new, V.key r = k

/-- What the log keeps about the observations so far. -/
structure Inv (rows : List ρ) (past : List (Observation κ τ β)) : Prop where
  stamped : ∀ r ∈ rows, ∃ o ∈ past, V.time r = o.time
  ordered : ∀ k, (V.rowsOf rows k).Pairwise fun r r' => V.time r < V.time r'
  minimal : ∀ k, (V.rowsOf rows k).IsChain fun r r' => V.value r ≠ V.value r'
  lossless : ∀ o ∈ past, ∀ k b, o.seen.get? k = some b →
    (V.lastUpTo rows o.time k).map V.value = some b

theorem inv_nil : V.Inv [] [] where
  stamped _ h := nomatch h
  ordered _ := List.Pairwise.nil
  minimal _ := List.IsChain.nil
  lossless _ h := nomatch h

variable {V}

omit [LinearOrder τ] in
theorem rowsOf_append (rows new : List ρ) (k : κ) :
    V.rowsOf (rows ++ new) k = V.rowsOf rows k ++ V.rowsOf new k :=
  List.filter_append ..

omit [LinearOrder τ] in
/-- An update adds to each key nothing or one row. -/
theorem rowsOf_new {new : List ρ} (hnd : (new.map V.key).Nodup) (k : κ) :
    ((∀ r ∈ new, V.key r ≠ k) ∧ V.rowsOf new k = []) ∨
      ∃ r ∈ new, V.key r = k ∧ V.rowsOf new k = [r] :=
  filter_key_of_nodup hnd k

/-- The latest row of a key after an update: the new row if there is one. -/
theorem last_append {rows new : List ρ} {t : τ} (hnd : (new.map V.key).Nodup)
    (htime : ∀ r ∈ new, V.time r = t) (hlt : ∀ r ∈ rows, V.time r < t) (k : κ) :
    ((∀ r ∈ new, V.key r ≠ k) ∧ V.last (rows ++ new) k = V.last rows k) ∨
      ∃ r ∈ new, V.key r = k ∧ V.last (rows ++ new) k = some r := by
  have hsplit : V.last (rows ++ new) k =
      (V.rowsOf rows k ++ V.rowsOf new k).argmax V.time := by
    rw [last, latest, ← rowsOf, rowsOf_append]
  rcases rowsOf_new hnd k with ⟨hno, hnil⟩ | ⟨r, hr, hk, hone⟩
  · left
    refine ⟨hno, ?_⟩
    rw [hsplit, hnil, List.append_nil]
    rfl
  · right
    refine ⟨r, hr, hk, ?_⟩
    rw [hsplit, hone, List.argmax_concat]
    cases hmax : (V.rowsOf rows k).argmax V.time with
    | none => rfl
    | some c =>
      have hc := (List.mem_filter.mp (List.argmax_mem hmax)).1
      exact if_pos (by rw [htime r hr]; exact hlt c hc)

/-- What was the latest row up to a time before the update still is. -/
theorem lastUpTo_append_earlier {rows new : List ρ} {t u : τ} (htime : ∀ r ∈ new, V.time r = t)
    (hlt : u < t) (k : κ) : V.lastUpTo (rows ++ new) u k = V.lastUpTo rows u k := by
  have hnil : new.filter (fun r => V.time r ≤ u) = [] := by
    refine List.filter_eq_nil_iff.mpr fun r hr => ?_
    simpa [htime r hr] using hlt
  unfold lastUpTo
  rw [List.filter_append, hnil, List.append_nil]

/-- No row is later than the update. -/
theorem lastUpTo_append {rows new : List ρ} {t : τ} (htime : ∀ r ∈ new, V.time r = t)
    (hlt : ∀ r ∈ rows, V.time r < t) (k : κ) :
    V.lastUpTo (rows ++ new) t k = V.last (rows ++ new) k := by
  have hall : (rows ++ new).filter (fun r => V.time r ≤ t) = rows ++ new := by
    refine List.filter_eq_self.mpr fun r hr => ?_
    rcases List.mem_append.mp hr with hr | hr
    · simpa using (hlt r hr).le
    · simpa using (htime r hr).le
  unfold lastUpTo
  rw [hall]

/-- The new row of a key is later than its rows so far. -/
theorem ordered_append {rows new : List ρ} {t : τ} {k : κ} (hnd : (new.map V.key).Nodup)
    (htime : ∀ r ∈ new, V.time r = t) (hlt : ∀ r ∈ rows, V.time r < t)
    (h : (V.rowsOf rows k).Pairwise fun r r' => V.time r < V.time r') :
    (V.rowsOf (rows ++ new) k).Pairwise fun r r' => V.time r < V.time r' := by
  rw [rowsOf_append]
  refine List.pairwise_append.mpr ⟨h, ?_, fun r hr r' hr' => ?_⟩
  · rcases rowsOf_new hnd k with ⟨-, hnil⟩ | ⟨r, -, -, hone⟩
    · rw [hnil]
      exact List.Pairwise.nil
    · rw [hone]
      exact List.pairwise_singleton _ _
  · rw [htime r' (List.mem_filter.mp hr').1]
    exact hlt r (List.mem_filter.mp hr).1

/-- The new row of a key differs from its last row, and so no value is repeated. -/
theorem minimal_append {rows new : List ρ} {k : κ} (hnd : (new.map V.key).Nodup)
    (hordered : (V.rowsOf rows k).Pairwise fun r r' => V.time r < V.time r')
    (hne : ∀ r ∈ new, (V.last rows (V.key r)).map V.value ≠ some (V.value r))
    (h : (V.rowsOf rows k).IsChain fun r r' => V.value r ≠ V.value r') :
    (V.rowsOf (rows ++ new) k).IsChain fun r r' => V.value r ≠ V.value r' := by
  rw [rowsOf_append]
  rcases rowsOf_new hnd k with ⟨-, hnil⟩ | ⟨r, hr, hk, hone⟩
  · rw [hnil, List.append_nil]
    exact h
  · rw [hone]
    refine List.isChain_append.mpr ⟨h, List.isChain_singleton _, fun c hc r' hr' heq => ?_⟩
    obtain rfl : r = r' := by simpa using hr'
    -- the last row of the key is its latest
    refine hne r hr ?_
    rw [hk, last, latest_of_pairwise_lt hordered, ← rowsOf, Option.mem_def.mp hc,
      Option.map_some, heq]

/-- **One update keeps the log**: recording an observation later than all past
ones preserves the invariant. -/
theorem inv_records {rows rows' : List ρ} {past : List (Observation κ τ β)}
    {o : Observation κ τ β} (h : V.Inv rows past)
    (hlater : ∀ o' ∈ past, o'.time < o.time) (hrec : V.Records rows o rows') :
    V.Inv rows' (past ++ [o]) := by
  obtain ⟨new, rfl, hnd, hnew, hseen⟩ := hrec
  have hlt : ∀ r ∈ rows, V.time r < o.time := by
    intro r hr
    obtain ⟨o', ho', heq⟩ := h.stamped r hr
    rw [heq]
    exact hlater o' ho'
  have htime : ∀ r ∈ new, V.time r = o.time := fun r hr => (hnew r hr).1
  refine
    { stamped := fun r hr => ?_, ordered := fun k => ordered_append hnd htime hlt (h.ordered k),
      minimal := fun k =>
        minimal_append hnd (h.ordered k) (fun r hr => (hnew r hr).2.2) (h.minimal k),
      lossless := fun o' ho' k b hb => ?_ }
  · rcases List.mem_append.mp hr with hr | hr
    · obtain ⟨o', ho', heq⟩ := h.stamped r hr
      exact ⟨o', List.mem_append_left _ ho', heq⟩
    · exact ⟨o, by simp, htime r hr⟩
  · rcases List.mem_append.mp ho' with ho' | ho'
    · rw [lastUpTo_append_earlier htime (hlater o' ho')]
      exact h.lossless o' ho' k b hb
    · -- the new observation: its row is the latest, or its value is the one kept
      obtain rfl := List.mem_singleton.mp ho'
      rw [lastUpTo_append htime hlt]
      rcases last_append hnd htime hlt k with ⟨hno, hlast⟩ | ⟨r, hr, rfl, hlast⟩
      · rw [hlast]
        rcases hseen k b hb with hold | ⟨r, hr, hk⟩
        · exact hold
        · exact absurd hk (hno r hr)
      · rw [hlast, Option.map_some, ← (hnew r hr).2.1, hb]

/-- **Recording again adds nothing**: an observation of the same values as the
last one leaves the log as it is, whatever its time. -/
theorem records_again {rows rows' : List ρ} {past : List (Observation κ τ β)}
    {o o' : Observation κ τ β} (h : V.Inv rows (past ++ [o]))
    (hlater : ∀ o' ∈ past, o'.time < o.time)
    (hsame : ∀ k, o'.seen.get? k = o.seen.get? k) (hrec : V.Records rows o' rows') :
    rows' = rows := by
  obtain ⟨new, rfl, -, hnew, -⟩ := hrec
  have hfilter : rows.filter (fun r => V.time r ≤ o.time) = rows := by
    refine List.filter_eq_self.mpr fun r hr => ?_
    obtain ⟨o₁, ho₁, heq⟩ := h.stamped r hr
    rcases List.mem_append.mp ho₁ with ho₁ | ho₁
    · simpa [heq] using (hlater o₁ ho₁).le
    · obtain rfl := List.mem_singleton.mp ho₁
      simpa using heq.le
  have hnil : new = [] := by
    refine List.eq_nil_iff_forall_not_mem.mpr fun r hr => ?_
    obtain ⟨-, hseen, hne⟩ := hnew r hr
    rw [hsame] at hseen
    have hlast := h.lossless o (by simp) _ _ hseen
    rw [lastUpTo, hfilter] at hlast
    exact hne hlast
  rw [hnil, List.append_nil]

end LogView

end DelegationStrategy.Lib
