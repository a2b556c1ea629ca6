import Mathlib.Data.List.Perm.Basic
import StubDecl.Watch.Debounce

/-!
# Debouncing loses and repeats nothing

However reports, the timer, deliveries and a cancellation interleave, a pending path is waited for: the
timer is armed or a delivery is on its way that has not taken a batch yet. Each reported path is
pending or has been taken since, it is taken at most once for each report, and a batch that was taken
is handed over once (`Debouncer.run_conserves`).

* `Debouncer.Step` says what an event does, with its guard;
* `Debouncer.log` lists the events of a run with the states they happen in. What a run takes and hands
  over is read off it.
-/

namespace StubDecl.Debouncer

/-! ## Steps -/

/-- What an event does to the state that it happens in. -/
inductive Step (d : Debouncer) : Event → Debouncer → Prop
  | schedule (p : Text) :
    Step d (.schedule p) { d with pending := insert d.pending p, armed := true }
  | fire : d.armed = true → Step d .fire { d with armed := false, started := d.started + 1 }
  | take {n : Nat} : d.started = n + 1 →
    Step d .take { d with started := n, taken := d.taken ++ [d.pending], pending := [] }
  | deliver {i : Nat} : i < d.taken.length → Step d (.deliver i) { d with taken := d.taken.eraseIdx i }
  | cancel : Step d .cancel { d with canceled := true }
  | stop : d.canceled = true → Step d .stop { d with armed := false }

variable {d d' : Debouncer} {e : Event} {es : List Event} {p : Text}

theorem step_of_step? (h : d.step? e = some d') : Step d e d' := by
  cases e with
  | schedule p =>
    cases h
    exact .schedule p
  | fire =>
    simp only [step?] at h
    split at h
    · next harmed =>
      cases h
      exact .fire harmed
    · cases h
  | take =>
    simp only [step?] at h
    split at h
    · cases h
    · next n hstarted =>
      cases h
      exact .take hstarted
  | deliver i =>
    simp only [step?] at h
    split at h
    · next hi =>
      cases h
      exact .deliver hi
    · cases h
  | cancel =>
    cases h
    exact .cancel
  | stop =>
    simp only [step?] at h
    split at h
    · next hcanceled =>
      cases h
      exact .stop hcanceled
    · cases h

/-! ## Runs -/

/-- The events of a run, each with the state it happens in. -/
def log (d : Debouncer) : List Event → List (Debouncer × Event)
  | [] => []
  | e :: es =>
    (d, e) :: match d.step? e with
      | some d' => d'.log es
      | none => []

/-- The paths that were taken, once for each time. -/
def takenPaths (log : List (Debouncer × Event)) : List Text := log.flatMap fun x => x.1.takenBy x.2

/-- The batches that were taken. -/
def takenBatches (log : List (Debouncer × Event)) : List (List Text) :=
  (log.filter fun x => x.2 = .take).map fun x => x.1.pending

/-- The batches that were handed over. -/
def handedBatches (log : List (Debouncer × Event)) : List (List Text) :=
  log.filterMap fun x => x.1.handedOver x.2

/-- The first event of a run, and the run behind it. -/
theorem run?_cons (h : d.run? (e :: es) = some d') :
    ∃ m, Step d e m ∧ m.run? es = some d' ∧ d.log (e :: es) = (d, e) :: m.log es := by
  obtain ⟨m, hstep, hrest⟩ := Option.bind_eq_some_iff.mp h
  refine ⟨m, step_of_step? hstep, hrest, ?_⟩
  rw [log, hstep]

/-- **What every step keeps, every run keeps.** -/
theorem run_induction {P : Debouncer → Prop} (hstep : ∀ d e d', Step d e d' → P d → P d')
    (h : d.run? es = some d') (hd : P d) : P d' := by
  induction es generalizing d with
  | nil =>
    cases h
    exact hd
  | cons e es ih =>
    obtain ⟨m, hm, hrest, -⟩ := run?_cons h
    exact ih hrest (hstep d e m hm hd)

/-- Nobody revokes a cancellation. -/
theorem canceled_run (h : d.run? es = some d') (hd : d.canceled = true) : d'.canceled = true := by
  refine run_induction (P := fun d => d.canceled = true) (fun d e d' hstep hd => ?_) h hd
  cases hstep with
  | cancel => rfl
  | schedule | fire | take | deliver | stop => exact hd

/-! ## Pending paths are waited for -/

/-- Pending paths will be taken, unless the watcher is canceled: the timer is armed, or a delivery has
started. -/
def Awaited (d : Debouncer) : Prop :=
  d.pending ≠ [] → d.canceled = false → d.armed = true ∨ 0 < d.started

theorem Awaited.step (hd : d.Awaited) (h : Step d e d') : d'.Awaited := by
  intro hpending hcanceled
  cases h with
  | schedule p => exact .inl rfl
  | fire => exact .inr (Nat.succ_pos _)
  | take => exact absurd rfl hpending
  | deliver => exact hd hpending hcanceled
  | cancel => cases hcanceled
  | stop h => exact absurd h (by simp only at hcanceled; simp [hcanceled])

/-! ## Reported paths are pending or taken -/

theorem mem_insert {ps : List Text} {q : Text} : q ∈ insert ps p ↔ q ∈ ps ∨ q = p := by
  simp only [insert]
  split
  · next hmem =>
    rw [List.contains_iff_mem] at hmem
    exact ⟨.inl, fun h => h.elim id fun heq => heq ▸ hmem⟩
  · rw [List.mem_append, List.mem_singleton]

/-- A pending path stays pending unless the event takes it. -/
theorem Step.mem_pending (h : Step d e d') (hp : p ∈ d.pending) :
    p ∈ d'.pending ∨ p ∈ d.takenBy e := by
  cases h with
  | schedule q => exact .inl (mem_insert.mpr (.inl hp))
  | take => exact .inr hp
  | fire | deliver | cancel | stop => exact .inl hp

theorem mem_pending_or_taken (h : d.run? es = some d') (hp : p ∈ d.pending) :
    p ∈ d'.pending ∨ ∃ x ∈ d.log es, p ∈ x.1.takenBy x.2 := by
  induction es generalizing d with
  | nil =>
    cases h
    exact .inl hp
  | cons e es ih =>
    obtain ⟨m, hm, hrest, hlog⟩ := run?_cons h
    rw [hlog]
    obtain hp | hp := hm.mem_pending hp
    · exact (ih hrest hp).imp_right fun ⟨x, hx, hpx⟩ => ⟨x, List.mem_cons_of_mem _ hx, hpx⟩
    · exact .inr ⟨(d, e), List.mem_cons_self, hp⟩

/-- What was reported is pending at the end, or an event behind the report took it. -/
theorem scheduled_pending_or_taken (h : d.run? es = some d') {before after : List (Debouncer × Event)}
    {m : Debouncer} (hlog : d.log es = before ++ (m, .schedule p) :: after) :
    p ∈ d'.pending ∨ ∃ x ∈ after, p ∈ x.1.takenBy x.2 := by
  -- The run is cut at the report: what lies before it does not matter.
  induction before generalizing d es with
  | nil =>
    cases es with
    | nil => cases hlog
    | cons e es =>
      obtain ⟨n, hn, hrest, hcons⟩ := run?_cons h
      rw [hcons, List.nil_append] at hlog
      cases hlog
      cases hn
      exact mem_pending_or_taken hrest (mem_insert.mpr (.inr rfl))
  | cons x before ih =>
    cases es with
    | nil => cases hlog
    | cons e es =>
      obtain ⟨n, -, hrest, hcons⟩ := run?_cons h
      rw [hcons, List.cons_append] at hlog
      exact ih hrest (List.tail_eq_of_cons_eq hlog)

/-! ## No path is taken more often than it was reported -/

theorem count_insert_le (ps : List Text) (q : Text) :
    (insert ps p).count q ≤ ps.count q + [Event.schedule p].count (.schedule q) := by
  simp only [insert]
  split
  · exact Nat.le_add_right _ _
  · rw [List.count_append]
    simp [List.count_singleton]

/-- What an event takes and what is pending behind it was pending or is reported by the event. -/
theorem Step.count_le (h : Step d e d') (p : Text) :
    (d.takenBy e).count p + d'.pending.count p ≤ d.pending.count p + [e].count (.schedule p) := by
  cases h with
  | schedule q =>
    have hinsert := count_insert_le (p := q) d.pending p
    simpa [takenBy] using hinsert
  | take => simp [takenBy]
  | fire | deliver | cancel | stop => simp [takenBy]

theorem count_taken_le (h : d.run? es = some d') (p : Text) :
    (takenPaths (d.log es)).count p + d'.pending.count p ≤
      d.pending.count p + es.count (.schedule p) := by
  induction es generalizing d with
  | nil =>
    cases h
    simp [log, takenPaths]
  | cons e es ih =>
    obtain ⟨m, hm, hrest, hlog⟩ := run?_cons h
    have hfirst := hm.count_le p
    have hbehind := ih hrest
    have hevents : (e :: es).count (.schedule p) = [e].count (.schedule p) + es.count (.schedule p) := by
      rw [← List.singleton_append, List.count_append]
    have htaken : takenPaths (d.log (e :: es)) = d.takenBy e ++ takenPaths (m.log es) := by
      rw [hlog]
      rfl
    rw [htaken, List.count_append, hevents]
    omega

/-! ## Every batch is handed over once -/

/-- The batches on their way before an event and one that it takes are those on their way behind it and
one that it hands over. -/
theorem Step.batches_perm (h : Step d e d') (hcanceled : d.canceled = false) :
    (d.taken ++ takenBatches [(d, e)]).Perm (handedBatches [(d, e)] ++ d'.taken) := by
  cases h with
  | take => exact List.Perm.refl _
  | @deliver i hi =>
    have hhanded : handedBatches [(d, .deliver i)] = [d.taken[i]] := by
      simp [handedBatches, handedOver, hcanceled, hi]
    rw [hhanded]
    have hperm := List.getElem_cons_eraseIdx_perm hi
    simpa [takenBatches] using hperm.symm
  | schedule | fire | cancel | stop => simp [takenBatches, handedBatches, handedOver]

theorem batches_perm (h : d.run? es = some d') (hcanceled : d'.canceled = false) :
    (d.taken ++ takenBatches (d.log es)).Perm (handedBatches (d.log es) ++ d'.taken) := by
  induction es generalizing d with
  | nil =>
    cases h
    simp [log, takenBatches, handedBatches]
  | cons e es ih =>
    have hstart : d.canceled = false := by
      rw [← Bool.not_eq_true]
      intro hd
      exact absurd (canceled_run h hd) (by simp [hcanceled])
    obtain ⟨m, hm, hrest, hlog⟩ := run?_cons h
    have htaken : takenBatches (d.log (e :: es)) =
        takenBatches [(d, e)] ++ takenBatches (m.log es) := by
      rw [hlog, ← List.singleton_append]
      simp only [takenBatches, List.filter_append, List.map_append]
    have hhanded : handedBatches (d.log (e :: es)) =
        handedBatches [(d, e)] ++ handedBatches (m.log es) := by
      rw [hlog, ← List.singleton_append]
      simp only [handedBatches, List.filterMap_append]
    rw [htaken, hhanded, ← List.append_assoc, List.append_assoc (handedBatches _)]
    calc (d.taken ++ takenBatches [(d, e)]) ++ takenBatches (m.log es)
      _ |>.Perm ((handedBatches [(d, e)] ++ m.taken) ++ takenBatches (m.log es)) :=
        (hm.batches_perm hstart).append_right _
      _ = handedBatches [(d, e)] ++ (m.taken ++ takenBatches (m.log es)) := List.append_assoc _ _ _
      _ |>.Perm (handedBatches [(d, e)] ++ (handedBatches (m.log es) ++ d'.taken)) :=
        (ih hrest).append_left _

/-! ## All of it -/

/-- **Debouncing loses and repeats nothing.** After any events that can happen one after the other,
starting with nothing pending:

* if something is pending and the watcher is not canceled, the timer is armed or a delivery has
  started that has not taken a batch yet;
* every reported path is pending, or was taken by an event behind the report;
* a path was taken, and is pending, at most as often as it was reported;
* unless the watcher is canceled, the batches that were taken are those that were handed over and
  those on their way. -/
theorem run_conserves {events : List Event} {d : Debouncer} (h : run? {} events = some d) :
    (d.pending ≠ [] → d.canceled = false → d.armed = true ∨ 0 < d.started) ∧
      (∀ before m p after, log {} events = before ++ (m, .schedule p) :: after →
        p ∈ d.pending ∨ ∃ x ∈ after, p ∈ x.1.takenBy x.2) ∧
      (∀ p, (takenPaths (log {} events)).count p + d.pending.count p ≤ events.count (.schedule p)) ∧
      (d.canceled = false →
        (takenBatches (log {} events)).Perm (handedBatches (log {} events) ++ d.taken)) := by
  refine ⟨?_, fun before m p after hlog => scheduled_pending_or_taken h hlog, fun p => ?_,
    fun hcanceled => ?_⟩
  · have hstart : Awaited {} := fun hpending _ => absurd rfl hpending
    exact run_induction (fun d e d' hstep hd => hd.step hstep) h hstart
  · have hcount := count_taken_le h p
    simpa using hcount
  · have hperm := batches_perm h hcanceled
    simpa using hperm

/-- A second report comes while the delivery of the first is on its way, and its delivery overtakes the
first one. -/
def overtaken : List Event :=
  [.schedule "A.js", .fire, .schedule "B.js", .fire, .take, .schedule "A.js", .take, .deliver 1]

theorem run_conserves_overtaken :
    ∃ d, run? {} overtaken = some d ∧ d.pending = [] ∧ d.armed = true ∧
      d.taken = ([["A.js", "B.js"]] : List (List Text)) ∧
      takenPaths (log {} overtaken) = ["A.js", "B.js", "A.js"] ∧
      ∀ p, (takenPaths (log {} overtaken)).count p + d.pending.count p ≤
        overtaken.count (.schedule p) := by
  have hrun : run? {} overtaken =
      some { pending := [], armed := true, started := 0, taken := [["A.js", "B.js"]] } := by
    decide +kernel
  have htaken : takenPaths (log {} overtaken) = ["A.js", "B.js", "A.js"] := by decide +kernel
  exact ⟨_, hrun, rfl, rfl, rfl, htaken, (run_conserves hrun).2.2.1⟩

end StubDecl.Debouncer
