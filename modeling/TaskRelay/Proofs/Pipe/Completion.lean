import TaskRelay.Proofs.Engine.Settling
import TaskRelay.Proofs.Pipe.Rest

/-!
# A pipe of calls that succeed comes to its end

Whatever the schedule is, there is only so much to do (`work`): the calls are made, each submission
is taken to the engine and its answer put into a slot, each outcome is asked for once, and so is the
table; and pool and engine come to rest. Only setbacks make it longer: a worker that gives up
waiting goes around once more, and an exchange that fails for no reason is tried again.

> `completed_of_run`: in every run outputs and table are those of calls that were completed, in the
> order of the calls; when nothing can happen any more they are there; and a run without setbacks is
> only so long.
-/

namespace TaskRelay.Pipe.System

section

variable {d : Dispatcher} {registry : Registry} {limits : Pool.Limits} {opened : Pool.State}
  {o : Engine.Options} {calls : List Call} {values : List Value} {p q : System} {e : Event}
  {es : List Engine.Event}

/-! ## How long a run can be -/

/-- How many slots are still to be filled. -/
def pendings (p : System) : Nat := p.pipe.slots.toList.countP Slot.isPending

/-- How much of making a request and of answering it is done when it is made. -/
def posting : Option Posted → Nat
  | none => 0
  | some _ => 2

/-- How much there is left to do: calls are to be made, submissions to be taken to the engine, slots
to be filled, outcomes to be asked for and taken in, the table to be asked for, and the pool and the
engine have to go on. -/
def work (most : Nat) (p : System) : Nat :=
  (p.pipe.slots.size - p.made) * (most + 13) + p.pool.work most + p.engine.work +
    10 * (p.pipe.slots.size - p.pipe.world.submissions.length) + p.pendings +
    (3 * (p.pipe.slots.size - p.pipe.outputs.size) - posting p.pipe.world.question) +
    (2 - posting p.listing)

/-- How much more there is to do because of an event. -/
def Event.setback (most : Nat) : Event → Nat
  | .pool e => e.setback most
  | _ => 0

/-- Whether an event throws somebody back. -/
def Event.isSetback : Event → Bool
  | .pool e => e.isSetback
  | _ => false

/-- There are no more submissions than calls. -/
theorem Submitted.length_le (hp : Submitted calls p) :
    p.pipe.world.submissions.length ≤ calls.length := by
  have hsub : p.pipe.world.submissions.map Prod.fst ⊆ List.range calls.length := by
    intro place hmem
    obtain ⟨row, hrow, rfl⟩ := List.mem_map.mp hmem
    obtain ⟨c, _, _, hc, -⟩ := hp.filed hrow
    exact List.mem_range.mpr (List.getElem?_eq_some_iff.mp hc).1
  have hle := (List.subperm_of_subset hp.once hsub).length_le
  rwa [List.length_map, List.length_range] at hle

/-- A request is as much work for the engine as the command that it becomes. -/
theorem work_request_le (s : Engine.State) (r : Request) :
    (s.request r).work ≤ s.work + (Engine.Command.append s.asked.size r).work := by
  unfold Engine.State.request
  dsimp only
  split
  · exact Engine.State.work_send_le _ _
  · exact Nat.le_add_right ..

/-- A call that is made is one of those that were to be made. -/
theorem calls_succ {place : Nat} {slot : Slot} (hslot : p.pipe.slots[place]? = some slot)
    (each : Nat) : (p.pipe.slots.size - place) * each =
      (p.pipe.slots.size - (place + 1)) * each + each := by
  obtain ⟨left, hleft⟩ := Nat.exists_eq_add_of_lt (Array.getElem?_eq_some_iff.mp hslot).1
  have hnext : p.pipe.slots.size - (place + 1) = left := by omega
  have hnow : p.pipe.slots.size - place = left + 1 := by omega
  rw [hnext, hnow, Nat.succ_mul]

/-- A slot that is filled is one of those that were to be filled. -/
theorem pendings_fill {place : Nat} {definition args kwargs : String} (response : Engine.Response)
    (hslot : p.pipe.slots[place]? = some (.pending definition args kwargs)) :
    (p.pipe.slots.setIfInBounds place (Pipe.fill (.ok response))).toList.countP Slot.isPending + 1 =
      p.pendings := by
  obtain ⟨hlt, hslot⟩ := Array.getElem?_eq_some_iff.mp hslot
  have hlt' : place < p.pipe.slots.toList.length := hlt
  have hget : p.pipe.slots.toList[place] = .pending definition args kwargs := by
    rw [Array.getElem_toList]
    exact hslot
  have hpos : 0 < p.pipe.slots.toList.countP Slot.isPending :=
    List.countP_pos_iff.mpr ⟨_, hget ▸ List.getElem_mem hlt', rfl⟩
  rw [Array.toList_setIfInBounds, List.countP_set hlt', hget, isPending_fill]
  simp only [Slot.isPending, pendings, if_true, Bool.false_eq_true, if_false]
  omega

/-- One step leaves less to do, but for a setback. -/
theorem Step.work_lt {most : Nat} (h : Step d registry p e q)
    (hs : Sound d limits o calls values es p) (hq : Submitted calls q)
    (hcalls : List.Forall₂ (Succeeds d) calls values)
    (hmost : limits.normalized.maxThreads + 1 ≤ most) :
    q.work most + 1 ≤ p.work most + e.setback most := by
  have hsize := hs.submitted.size_eq
  cases h with
  | @call definition args kwargs pool hfree hslot hpool =>
    -- the call was reckoned with the whole way of its job through the pool
    have hmade := calls_succ hslot (most + 13)
    rw [(Pool.Step.of_step hpool).eq_of_call]
    simp only [work, System.engine, pendings, Pool.State.work_call]
    omega
  | @pass slot hslot =>
    have hmade := calls_succ hslot (most + 13)
    simp only [work, System.engine, pendings]
    omega
  | @pool e pool hown hfilled hpool =>
    have hless : pool.work most + 1 ≤ p.pool.work most + e.setback most := by
      obtain ⟨_, pes, hopen, hrun, hdrop, -⟩ := hs.employed.pool
      have hcounted := Pool.counted_of_opening hopen hrun
      refine (Pool.Step.of_step hpool).work_lt hown (Pool.dropped_of_run hopen hrun hdrop) ?_
      -- so many may have read the number of workers: the workers, and the one caller that there is
      have hlength : p.pool.workers.length = p.pool.size := by
        rw [hcounted.size_eq, Pool.State.numbers, List.length_map]
      have hmax := hcounted.le_max
      rw [Pool.limits_of_opening hopen hrun] at hmax
      have halone := hs.employed.alone
      omega
    simp only [work, System.engine, pendings, Event.setback]
    omega
  | @submit place definition args kwargs hslot hnew =>
    have hengine := work_request_le p.engine (.newTask (.ofTask definition args kwargs))
    have hlength := hq.length_le
    simp only [toDesk, List.length_append, List.length_singleton, Engine.Command.work]
      at hlength hengine
    simp only [work, toDesk, System.engine, pendings, List.length_append, List.length_singleton]
      at hengine ⊢
    omega
  | @fill place definition args kwargs posted response hslot =>
    have hfewer := pendings_fill response hslot
    simp only [work, System.engine, pendings, Array.size_setIfInBounds] at hfewer ⊢
    omega
  | @engine e engine hown hengine =>
    have hless := (Engine.Step.of_step hengine).work_lt hown
    simp only [work, toDesk, System.engine, pendings] at hless ⊢
    omega
  | @ask id hslot hnone =>
    have hengine := work_request_le p.engine (.awaitTask id)
    have hlt := (Array.getElem?_eq_some_iff.mp hslot).1
    simp only [work, toDesk, System.engine, pendings, Engine.Command.work, hnone, posting]
      at hengine ⊢
    omega
  | @look posted response hquestion hresponse =>
    obtain ⟨v, id, -, hread, hslot, -⟩ := hs.joined.readOutput_eq registry
      hs.submitted hs.history hs.running hcalls hquestion hresponse
    have hlt := (Array.getElem?_eq_some_iff.mp hslot).1
    rw [hread]
    simp only [work, take, System.engine, pendings, hquestion, posting, Array.size_push]
    omega
  | @refuse slot f hslot hfailure =>
    rw [hs.submitted.failure?_eq_none hs.history hs.running (submission?_ne_none hcalls) hslot]
      at hfailure
    cases hfailure
  | list houtcome hnone =>
    have hengine := work_request_le p.engine .getStoreState
    simp only [work, toDesk, System.engine, pendings, Engine.Command.work, hnone, posting]
      at hengine ⊢
    omega

/-- What there is to do at the beginning. -/
theorem work_new_le (hopen : Pool.Opening limits 0 opened) (o : Engine.Options)
    (calls : List Call) (most : Nat) :
    (new opened o calls).work most ≤
      calls.length * (most + 27) + (most + 7) * limits.normalized.minThreads + 2 := by
  have hsize : (new opened o calls).pipe.slots.size = calls.length := submitted_new.size_eq
  have hpendings : (new opened o calls).pendings ≤ calls.length := by
    rw [← hsize, ← Array.length_toList]
    exact List.countP_le_length
  have hpool : (new opened o calls).pool.work most ≤ (most + 7) * limits.normalized.minThreads :=
    hopen.opens.work_le most
  have hengine : (new opened o calls).engine.work = 0 := rfl
  have hproduct : calls.length * (most + 27) = calls.length * (most + 13) + 14 * calls.length := by
    rw [show most + 27 = most + 13 + 14 from rfl, Nat.mul_add, Nat.mul_comm calls.length 14]
  have hsubmissions : (new opened o calls).pipe.world.submissions.length = 0 := rfl
  have hposting : posting (new opened o calls).listing = 0 := rfl
  simp only [work, hsize, hengine, hsubmissions, hposting]
  have hcalls :=
    Nat.mul_le_mul_right (most + 13) (Nat.sub_le calls.length (new opened o calls).made)
  omega

/-- Nothing but a setback costs anything, and no setback costs more than that. -/
theorem Event.setback_le (most : Nat) (e : Event) :
    e.setback most ≤ if e.isSetback then most + 8 else 0 := by
  cases e with
  | pool e => exact e.setback_le most
  | _ => exact Nat.zero_le _

/-- Every event of a run has taken something from what there was to do, but for setbacks. -/
theorem length_add_work_le {events : List Event} {most : Nat}
    (hopen : Pool.Opening limits 0 opened)
    (h : (new opened o calls).run d registry events = some p)
    (hpermits : o.threads ≤ Engine.State.maxPermits)
    (hcalls : List.Forall₂ (Succeeds d) calls values)
    (hmost : limits.normalized.maxThreads + 1 ≤ most) :
    events.length + p.work most ≤
      (new opened o calls).work most + (most + 8) * events.countP Event.isSetback := by
  induction events using List.reverseRecOn generalizing p with
  | nil =>
    cases h
    exact Nat.le_of_eq (by simp)
  | append_singleton events e ih =>
    have hq := submitted_of_run h
    rw [run_append] at h
    obtain ⟨m, hm, hlast⟩ := Option.bind_eq_some_iff.mp h
    obtain ⟨q, hstep, hnil⟩ := Option.bind_eq_some_iff.mp hlast
    cases hnil
    obtain ⟨es, hs⟩ := sound_of_run hopen hm hpermits hcalls
    -- the last event took one from the work, unless it gave some back
    have hless := (Step.of_step hstep).work_lt hs hq hcalls hmost
    have hback := e.setback_le most
    have hbefore := ih hm
    rw [List.length_append, List.length_singleton, List.countP_append, List.countP_singleton,
      Nat.mul_add]
    cases hkind : e.isSetback <;> rw [hkind] at hback <;> simp at hback ⊢ <;> omega

/-- Whatever the limits of the pool are and however it has opened, however many threads the engine
has and whatever happens in which order: the engine runs; the outcome of the pipe is that all calls
have their outputs, in the order of the calls; a table that is sent afterwards has one task for each
call, and all are completed; if nothing can happen any more both are there; and but for setbacks
only so much can happen. -/
theorem completed_of_run {events : List Event} (hopen : Pool.Opening limits 0 opened)
    (h : (new opened o calls).run d registry events = some p) (hthreads : 0 < o.threads)
    (hpermits : o.threads ≤ Engine.State.maxPermits)
    (hcalls : List.Forall₂ (Succeeds d) calls values) :
    p.engine.running = true ∧
    (∀ {r}, p.pipe.outcome? = some r → r = .ok values) ∧
    (∀ {r}, p.table? = some r → ∃ table : StoreState, r = .ok table ∧
      table.tasks.length = calls.length ∧ ∀ task ∈ table.tasks, task.status = .completed) ∧
    (p.AtRest d registry → p.pipe.outcome?.isSome = true ∧ p.table?.isSome = true) ∧
    events.length ≤ calls.length * (limits.normalized.maxThreads + 28) +
      (limits.normalized.maxThreads + 8) * limits.normalized.minThreads + 2 +
      (limits.normalized.maxThreads + 9) * events.countP Event.isSetback := by
  obtain ⟨es, hs⟩ := sound_of_run hopen h hpermits hcalls
  refine ⟨hs.running, hs.outcome_eq hcalls, hs.table_eq hcalls, fun hrest => ?_, ?_⟩
  · refine ⟨?_, hs.table_isSome hrest hthreads hcalls⟩
    rw [hs.outcome_isSome hrest hthreads hcalls]
    rfl
  · have hlength := length_add_work_le hopen h hpermits hcalls (Nat.le_refl _)
    have hnew := work_new_le hopen o calls (limits.normalized.maxThreads + 1)
    simp only [Nat.add_assoc, Nat.reduceAdd] at hlength hnew ⊢
    omega

end

end TaskRelay.Pipe.System
