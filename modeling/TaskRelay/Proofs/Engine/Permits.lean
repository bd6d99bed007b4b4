import TaskRelay.Proofs.Engine.Table

/-!
# Drivers and their permits

A task has at most one driver, and the driver runs what the table says (`State.Manned`). A permit
is either free or held by one driver, in every reachable state, whether the loop still runs or
not:

> `Reachable.permits_add_held`: free permits and held ones are as many as there are threads.

So no more tasks execute at a time than there are threads (`Reachable.executing_le`).
-/

namespace TaskRelay.Engine

/-- No two drivers of one task, and no driver without a task that it runs. -/
structure Manned (store : Store) (drivers : Rows TaskId Driver) : Prop where
  nodup : (drivers.map Prod.fst).Nodup
  owner : ∀ {id : TaskId} {v : Driver}, Rows.get? id drivers = some v →
    ∃ r : Record, store.records[id]? = some r ∧ r.task.invocation = v.task.invocation

namespace State

/-- How many drivers hold a permit. -/
def held (s : State) : Nat := s.drivers.countP fun row => row.2.phase.holdsPermit

/-- How many tasks execute. -/
def executing (s : State) : Nat := s.drivers.countP fun row => row.2.phase.isExecuting

/-- Whoever executes a task holds a permit. -/
theorem executing_le_held (s : State) : s.executing ≤ s.held := by
  unfold executing held
  refine List.countP_mono_left fun row _ h => ?_
  generalize row.2.phase = p at h ⊢
  cases p <;> first | rfl | cases h

end State

/-! ## Drivers -/

namespace Manned

variable {store grown : Store} {drivers : Rows TaskId Driver} {id : TaskId} {task : Submission}

/-- A driver that changes its phase still runs the same task. -/
theorem set {p q : Phase} (h : Manned store drivers)
    (hget : Rows.get? id drivers = some ⟨task, p⟩) :
    Manned store (Rows.set id ⟨task, q⟩ drivers) := by
  refine ⟨by simpa only [Rows.keys_set] using h.nodup, fun {other v} hv => ?_⟩
  rw [Rows.get?_set] at hv
  split at hv
  · next ho =>
    subst ho
    obtain ⟨r, hr, htask⟩ := h.owner hget
    rw [hget] at hv
    cases hv
    exact ⟨r, hr, htask⟩
  · exact h.owner hv

/-- Of the drivers that are left each runs its task. -/
theorem erase (h : Manned store drivers) : Manned store (Rows.erase id drivers) := by
  refine ⟨h.nodup.sublist Rows.keys_erase_sublist, fun {other v} hv => ?_⟩
  rw [Rows.get?_erase h.nodup] at hv
  split at hv
  · cases hv
  · exact h.owner hv

/-- Drivers only look at which tasks there are and what they run. -/
theorem mono (h : Manned store drivers) (hk : store.Keeps grown) : Manned grown drivers := by
  refine ⟨h.nodup, fun {id v} hv => ?_⟩
  obtain ⟨r, hr, htask⟩ := h.owner hv
  obtain ⟨r', hr', hsame⟩ := hk _ _ hr
  exact ⟨r', hr', hsame.trans htask⟩

/-- A driver would have a record. -/
theorem get?_eq_none (h : Manned store drivers) (hrec : store.records[id]? = none) :
    Rows.get? id drivers = none := by
  cases hv : Rows.get? id drivers with
  | none => rfl
  | some v =>
    obtain ⟨r, hr, -⟩ := h.owner hv
    rw [hrec] at hr
    cases hr

/-- A task that is accepted gets a record and a driver. -/
theorem accept (h : Manned store drivers) (hfresh : store.records[id]? = none) :
    Manned (store.insert id task) (drivers ++ [(id, ⟨task, .waiting⟩)]) := by
  have hnone := h.get?_eq_none hfresh
  refine ⟨?_, fun {other v} hv => ?_⟩
  · rw [List.map_append, List.map_singleton]
    exact h.nodup.append (List.nodup_singleton _)
      (List.disjoint_singleton.mpr (Rows.get?_eq_none.mp hnone))
  · rw [Rows.get?_append] at hv
    -- a driver that is found in front of the new one is an old one
    cases hold : Rows.get? other drivers with
    | none =>
      rw [hold, Option.none_or] at hv
      split at hv
      · next ho =>
        cases hv
        subst ho
        exact ⟨.new id task, by simp [Store.records_insert], rfl⟩
      · cases hv
    | some w =>
      rw [hold, Option.some_or] at hv
      cases hv
      exact (h.mono (Store.keeps_insert hfresh)).owner hold

end Manned

section

variable {d : Dispatcher} {o : Options} {s t : State} {e : Event}

/-- One step: drivers come with their records and go one by one. -/
theorem Step.manned (h : Step d s e t) (hs : Manned s.store s.drivers) :
    Manned t.store t.drivers := by
  have hkeeps := h.keeps
  cases h with
  | request | refuse | reply | halt => exact hs
  | park | started | complete => exact hs.mono hkeeps
  | stop => simpa using hs
  | accept _ _ hfresh => exact hs.accept hfresh
  | acquire hget => exact hs.set hget
  | work hget => exact hs.set hget
  | announce hget | report hget =>
    simpa only [State.setPhase, State.send_store, State.send_drivers] using hs.set hget
  | release => exact hs.erase

/-- In a run every driver runs a task that the table has. -/
theorem Reachable.manned (h : Reachable d o s) : Manned s.store s.drivers := by
  induction h with
  | new => exact ⟨List.nodup_nil, fun hv => by cases hv⟩
  | step e _ hst ih => exact (Step.of_step hst).manned ih

/-! ## Permits -/

/-- A change of phase changes the number of held permits by what the two phases hold. -/
theorem State.held_setPhase {id : TaskId} {task : Submission} {p q : Phase}
    (hget : Rows.get? id s.drivers = some ⟨task, p⟩) :
    (s.setPhase id task q).held + (if p.holdsPermit then 1 else 0) =
      s.held + (if q.holdsPermit then 1 else 0) :=
  Rows.countP_set hget

/-- A driver that runs its task holds its permit before and after. -/
theorem Work.holdsPermit {id : TaskId} {task : Submission} {p q : Phase}
    (h : Work d id task e p q) : p.holdsPermit = true ∧ q.holdsPermit = true := by
  cases h <;> exact ⟨rfl, rfl⟩

/-- One step only hands permits over. -/
theorem Step.permits_add_held (h : Step d s e t) : t.permits + t.held = s.permits + s.held := by
  cases h with
  | request | refuse | reply | park | started | complete | halt => rfl
  | stop => simp [State.held]
  | accept => simp [State.held, Phase.holdsPermit]
  | @acquire id task hget hfree =>
    -- the permit is there, so taking it away is no subtraction from zero
    have hheld : (s.setPhase id task .admitted).held + 0 = s.held + 1 := State.held_setPhase hget
    show s.permits - 1 + (s.setPhase id task .admitted).held = _
    omega
  | @work id task e p q hget hwork =>
    have hheld := State.held_setPhase (q := q) hget
    rw [hwork.holdsPermit.1, hwork.holdsPermit.2] at hheld
    show s.permits + _ = _
    omega
  | @announce id task hget =>
    have hheld : (s.setPhase id task .announced).held + 1 = s.held + 1 := State.held_setPhase hget
    simp only [State.held, State.setPhase, State.send_drivers, State.send_permits] at hheld ⊢
    omega
  | @report id task result hget =>
    have hheld : (s.setPhase id task .reported).held + 1 = s.held + 1 := State.held_setPhase hget
    simp only [State.held, State.setPhase, State.send_drivers, State.send_permits] at hheld ⊢
    omega
  | @release id task hget =>
    have hheld : (Rows.erase id s.drivers).countP (fun row => row.2.phase.holdsPermit) + 1 =
        s.held := Rows.countP_erase hget
    show s.permits + 1 + (Rows.erase id s.drivers).countP _ = _
    omega

/-- In a run there are as many permits as threads, free or held. -/
theorem Reachable.permits_add_held (h : Reachable d o s) : s.permits + s.held = o.threads := by
  induction h with
  | new => rfl
  | step e _ hst ih => rw [(Step.of_step hst).permits_add_held, ih]

/-- So no more tasks are executed at a time than there are threads. -/
theorem Reachable.executing_le (h : Reachable d o s) : s.executing ≤ o.threads := by
  have := h.permits_add_held
  have := s.executing_le_held
  omega

end

end TaskRelay.Engine
