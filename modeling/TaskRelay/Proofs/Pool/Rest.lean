import TaskRelay.Pipe.System
import TaskRelay.Proofs.Pool.Jobs
import TaskRelay.Proofs.Pool.Size

/-!
# A pool goes on until it rests

A pool that nobody has dropped is at rest, or some job is running, or one of its callers and workers
can do something else than give up waiting (`goes_on`). A job that is running can end
(`exists_step_of_isRunning`); when it does is up to the job.
-/

namespace TaskRelay.Pool

section

variable {limits : Limits} {s t : State} {es : List Event} {e : Event} {job : Job} {n : Nat}

/-- Something that a caller or a worker can do, other than give up waiting. -/
structure Acts (s : State) (e : Event) : Prop where
  own : e.isOwn = true
  /-- A waiting worker could go on waiting. -/
  patient : ∀ worker, e ≠ .timeOut worker
  possible : ∃ t, s.step e = some t

/-- A pool is gone only if it was dropped. -/
theorem Step.dropped_eq (h : Step s e t) (he : e ≠ .drop) : t.dropped = s.dropped := by
  cases h with
  | drop => exact absurd rfl he
  | _ => rfl

/-- A pool that nobody drops stays. -/
theorem dropped_of_run {start : State} (hopen : Opening limits 0 start)
    (h : start.run es = some s) (hes : .drop ∉ es) : s.dropped = false := by
  refine run_induction (P := fun es s => .drop ∉ es → s.dropped = false)
    (fun _ => hopen.opens.alive) ?_ h hes
  intro es s e t _ ih hstep hno
  have he : e ≠ .drop := fun heq => hno (heq ▸ List.mem_append_right _ (List.mem_singleton_self _))
  rw [hstep.dropped_eq he]
  exact ih fun hmem => hno (List.mem_append_left _ hmem)

/-- No two workers have the same number. -/
theorem nodup_of_run {start : State} (hopen : Opening limits 0 start)
    (h : start.run es = some s) : (s.workers.map Prod.fst).Nodup :=
  (counted_of_opening hopen h).nodup

/-! ## Running jobs -/

/-- A job runs on a worker, or on its caller. -/
theorem State.isRunning_iff : s.isRunning job = true ↔
    (∃ n, (n, .running job) ∈ s.workers) ∨ Rows.get? job s.callers = some .running := by
  unfold State.isRunning
  rw [Bool.or_eq_true, List.any_eq_true, decide_eq_true_iff]
  refine or_congr_left ⟨?_, ?_⟩
  · rintro ⟨⟨n, w⟩, hmem, hw⟩
    exact ⟨n, of_decide_eq_true hw ▸ hmem⟩
  · rintro ⟨n, hmem⟩
    exact ⟨(n, .running job), hmem, decide_eq_true rfl⟩

/-- A running job can end. -/
theorem exists_step_of_isRunning (hnodup : (s.workers.map Prod.fst).Nodup)
    (h : s.isRunning job = true) : ∃ e, Acts s e ∧ s.ended? e = some job := by
  obtain ⟨n, hmem⟩ | hget := State.isRunning_iff.mp h
  · have hget := Rows.get?_of_mem hnodup hmem
    refine ⟨.finish n .returned, ⟨rfl, by simp, ?_⟩, ?_⟩
    · exact ⟨_, by simp only [State.step, hget]; rfl⟩
    · simp only [State.ended?, hget, Option.bind_some, Worker.runs?]
  · refine ⟨.finishInline job .returned, ⟨rfl, by simp, ?_⟩, rfl⟩
    exact ⟨_, by simp only [State.step, hget]; rfl⟩

/-! ## Going on -/

/-- Who is in a call can do the next thing, or runs the job. -/
theorem goes_on_of_caller {caller : Caller} (hnodup : (s.workers.map Prod.fst).Nodup)
    (hget : Rows.get? job s.callers = some caller) :
    (∃ e, Acts s e ∧ s.ended? e = none) ∨ s.isRunning job = true := by
  have hacts : ∀ {e : Event}, e.isOwn = true → (∀ worker, e ≠ .timeOut worker) →
      (∃ t, s.step e = some t) → s.ended? e = none → ∃ e, Acts s e ∧ s.ended? e = none :=
    fun hown hpatient hpossible hended => ⟨_, ⟨hown, hpatient, hpossible⟩, hended⟩
  -- the way of a call has one event for each of its places; only offering has two
  cases caller with
  | arriving =>
    exact .inl (hacts (e := .readIdle job) rfl (by simp)
      ⟨_, by simp only [State.step, hget]; rfl⟩ rfl)
  | measuring =>
    exact .inl (hacts (e := .readSize job) rfl (by simp)
      ⟨_, by simp only [State.step, hget]; rfl⟩ rfl)
  | growing seen =>
    exact .inl (hacts (e := .grow job false) rfl (by simp)
      ⟨_, by simp only [State.step, hget]; rfl⟩ rfl)
  | running => exact .inr (State.isRunning_iff.mpr (.inr hget))
  | offering =>
    left
    by_cases hlisten : s.limits.maxQueue = 0 ∧ s.someoneListens = true
    · -- without a queue the job has to go straight to a worker that listens
      obtain ⟨hqueue, hlisten⟩ := hlisten
      obtain ⟨⟨n, w⟩, hmem, hw⟩ := List.any_eq_true.mp hlisten
      obtain rfl : w = .listening := of_decide_eq_true hw
      have hworker := Rows.get?_of_mem hnodup hmem
      refine hacts (e := .handOver job n) rfl (by simp) ?_ rfl
      exact ⟨_, by simp only [State.step, hget, hworker, if_pos hqueue]; rfl⟩
    · refine hacts (e := .offer job) rfl (by simp) ?_ rfl
      simp only [State.step, hget, State.offerJob]
      rw [if_neg hlisten]
      split <;> exact ⟨_, rfl⟩

/-- A worker can do the next thing, or runs a job, or waits in vain. -/
theorem goes_on_of_worker {w : Worker} (hget : Rows.get? n s.workers = some w) :
    (∃ e, Acts s e ∧ s.ended? e = none) ∨ (∃ job, s.isRunning job = true) ∨
      w = .listening ∧ s.queue = [] := by
  have hacts : ∀ {e : Event}, e.isOwn = true → (∀ worker, e ≠ .timeOut worker) →
      (∃ t, s.step e = some t) → s.ended? e = none → ∃ e, Acts s e ∧ s.ended? e = none :=
    fun hown hpatient hpossible hended => ⟨_, ⟨hown, hpatient, hpossible⟩, hended⟩
  -- a worker that has waited counts itself busy, whatever came of it
  have hbusy : ∀ {next : Worker}, State.afterWait w = some next →
      ∃ e, Acts s e ∧ s.ended? e = none := fun hnext => by
    refine hacts (e := .countBusy n) rfl (by simp) ?_ rfl
    exact ⟨_, by simp only [State.step, hget, Option.bind_some, hnext]; rfl⟩
  cases w with
  | starting =>
    exact .inl (hacts (e := .countIdle n) rfl (by simp)
      ⟨_, by simp only [State.step, hget]; rfl⟩ rfl)
  | counted =>
    exact .inl (hacts (e := .wait n) rfl (by simp) ⟨_, by simp only [State.step, hget]; rfl⟩ rfl)
  | received | timedOut | hungUp => exact .inl (hbusy rfl)
  | running job =>
    exact .inr (.inl ⟨job, State.isRunning_iff.mpr (.inl ⟨n, Rows.mem_of_get? hget⟩)⟩)
  | checking =>
    exact .inl (hacts (e := .check n) rfl (by simp) ⟨_, by simp only [State.step, hget]; rfl⟩ rfl)
  | measuring =>
    exact .inl (hacts (e := .measure n) rfl (by simp) ⟨_, by simp only [State.step, hget]; rfl⟩ rfl)
  | retiring seen =>
    exact .inl (hacts (e := .retire n false) rfl (by simp)
      ⟨_, by simp only [State.step, hget]; rfl⟩ rfl)
  | leaving =>
    exact .inl (hacts (e := .leave n) rfl (by simp) ⟨_, by simp only [State.step, hget]; rfl⟩ rfl)
  -- one that listens can take a job if there is one
  | listening =>
    cases hqueue : s.queue with
    | nil => exact .inr (.inr ⟨rfl, rfl⟩)
    | cons job rest =>
      exact .inl (hacts (e := .receive n) rfl (by simp)
        ⟨_, by simp only [State.step, hget, hqueue]; rfl⟩ rfl)

/-- A pool that is not at rest goes on, or waits for a job to end. -/
theorem goes_on (hnodup : (s.workers.map Prod.fst).Nodup) (hrest : ¬ s.AtRest) :
    (∃ e, Acts s e ∧ s.ended? e = none) ∨ ∃ job, s.isRunning job = true := by
  cases hcallers : s.callers with
  | cons row callers =>
    obtain ⟨job, caller⟩ := row
    have hget : Rows.get? job s.callers = some caller := by
      rw [hcallers]
      exact if_pos rfl
    exact (goes_on_of_caller hnodup hget).imp_right fun hrun => ⟨job, hrun⟩
  | nil =>
    by_contra hstuck
    refine hrest (.inl ⟨hcallers, fun row hmem => ?_⟩)
    obtain hacts | hrun | hwaits := goes_on_of_worker (Rows.get?_of_mem hnodup hmem)
    · exact absurd (.inl hacts) hstuck
    · exact absurd (.inr hrun) hstuck
    · exact hwaits

end

end TaskRelay.Pool
