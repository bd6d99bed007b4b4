import Mathlib.Data.List.Induction
import TaskRelay.Pool.State

/-!
# What one step of a pool can do

`Step` lists what `State.step` can do, each possibility with what it needs and with the state that
it leads to. Most steps touch one row only: a caller on its way to the queue (`Approach`), or a
worker that does not get, run or end a job (`Turn`). What is left are the steps that move a job,
start a worker or end one. How a job ends makes no difference, since running it never breaks off
(`runJob_eq`).

> `Step.of_step`: every step of a pool is one of these.

A run is a list of events (`State.run`), and what holds where it starts and is kept by every step
holds after every run (`run_induction`).
-/

namespace TaskRelay.Pool

/-! ## The possibilities -/

/-- What a caller does on its way to the queue, if it starts no worker. -/
inductive Approach (s : State) (job : Job) : Event → Caller → Caller → Prop
  | busy (hidle : s.idle = 0) : Approach s job (.readIdle job) .arriving .measuring
  | spare (hidle : s.idle ≠ 0) : Approach s job (.readIdle job) .arriving .offering
  | measure : Approach s job (.readSize job) .measuring (.growing s.size)
  | full {seen : Nat} {spurious : Bool} (hfull : s.limits.maxThreads ≤ seen) :
      Approach s job (.grow job spurious) (.growing seen) .offering
  | again {seen : Nat} {spurious : Bool} (hroom : seen < s.limits.maxThreads)
      (hfail : ¬(s.size = seen ∧ spurious = false)) :
      Approach s job (.grow job spurious) (.growing seen) (.growing s.size)

/-- What a worker does without touching a job, and what the counter of idle workers is then. -/
inductive Turn (s : State) (n : Nat) : Event → Worker → Worker → Nat → Prop
  | countIdle : Turn s n (.countIdle n) .starting .counted (s.idle + 1)
  | wait : Turn s n (.wait n) .counted .listening s.idle
  | timeOut : Turn s n (.timeOut n) .listening .timedOut s.idle
  | hangUp (hdropped : s.dropped = true) (hqueue : s.queue = []) :
      Turn s n (.hangUp n) .listening .hungUp s.idle
  | countBusy {p q : Worker} (hafter : State.afterWait p = some q) :
      Turn s n (.countBusy n) p q (s.idle - 1)
  | check : Turn s n (.check n) .checking (if s.queue.isEmpty then .measuring else .starting) s.idle
  | measure : Turn s n (.measure n) .measuring (.retiring s.size) s.idle
  | stay {seen : Nat} {spurious : Bool} (hkept : seen ≤ s.limits.minThreads) :
      Turn s n (.retire n spurious) (.retiring seen) .starting s.idle
  | again {seen : Nat} {spurious : Bool} (habove : s.limits.minThreads < seen)
      (hfail : ¬(s.size = seen ∧ spurious = false)) :
      Turn s n (.retire n spurious) (.retiring seen) (.retiring s.size) s.idle

/-- One step, by what it does. -/
inductive Step (s : State) : Event → State → Prop
  | call {job : Job} (hlive : s.dropped = false) (hnew : Rows.get? job s.callers = none) :
      Step s (.call job) { s with callers := s.callers ++ [(job, .arriving)] }
  | approach {job : Job} {e : Event} {p q : Caller} (hget : Rows.get? job s.callers = some p)
      (happroach : Approach s job e p q) :
      Step s e { s with callers := Rows.set job q s.callers }
  | grow {job : Job} (hget : Rows.get? job s.callers = some (.growing s.size))
      (hroom : s.size < s.limits.maxThreads) :
      Step s (.grow job false)
        { s with
          size := s.size + 1
          spawned := s.spawned + 1
          workers := s.workers ++ [(s.spawned, .starting)]
          callers := Rows.set job .offering s.callers }
  | enqueue {job : Job} (hget : Rows.get? job s.callers = some .offering)
      (hroom : s.queue.length < s.limits.maxQueue) :
      Step s (.offer job)
        { s with queue := s.queue ++ [job], callers := Rows.erase job s.callers }
  | handOver {job : Job} {n : Nat} (hget : Rows.get? job s.callers = some .offering)
      (hworker : Rows.get? n s.workers = some .listening) (hqueue : s.limits.maxQueue = 0) :
      Step s (.handOver job n)
        { s with
          workers := Rows.set n (.received job) s.workers
          callers := Rows.erase job s.callers }
  | runInline {job : Job} (hget : Rows.get? job s.callers = some .offering)
      (hfull : s.limits.maxQueue ≤ s.queue.length)
      (hnobody : s.limits.maxQueue = 0 → s.someoneListens = false) :
      Step s (.offer job)
        { s with inlineRuns := s.inlineRuns + 1, callers := Rows.set job .running s.callers }
  | finishInline {job : Job} {ending : Ending} (hget : Rows.get? job s.callers = some .running) :
      Step s (.finishInline job ending)
        { s with finished := job :: s.finished, callers := Rows.erase job s.callers }
  | drop (hlive : s.dropped = false) (hcallers : s.callers = []) :
      Step s .drop { s with dropped := true }
  | turn {n idle : Nat} {e : Event} {p q : Worker} (hget : Rows.get? n s.workers = some p)
      (hturn : Turn s n e p q idle) :
      Step s e { s with idle := idle, workers := Rows.set n q s.workers }
  | receive {n : Nat} {job : Job} {rest : List Job} (hget : Rows.get? n s.workers = some .listening)
      (hqueue : s.queue = job :: rest) :
      Step s (.receive n)
        { s with queue := rest, workers := Rows.set n (.received job) s.workers }
  | finish {n : Nat} {job : Job} {ending : Ending}
      (hget : Rows.get? n s.workers = some (.running job)) :
      Step s (.finish n ending)
        { s with finished := job :: s.finished, workers := Rows.set n .starting s.workers }
  | retire {n : Nat} (hget : Rows.get? n s.workers = some (.retiring s.size))
      (habove : s.limits.minThreads < s.size) :
      Step s (.retire n false)
        { s with size := s.size - 1, workers := Rows.erase n s.workers }
  | leave {n : Nat} (hget : Rows.get? n s.workers = some .leaving) :
      Step s (.leave n) { s with size := s.size - 1, workers := Rows.erase n s.workers }

/-! ## Every step is one of them -/

/-- Who runs a job goes on, however the job ends. -/
theorem runJob_eq (ending : Ending) : runJob ending = .returned := by
  cases ending <;> rfl

section

variable {s t : State} {job : Job} {n seen : Nat} {spurious : Bool}

/-- The exchange of a caller is one of these steps. -/
theorem Step.of_tryGrow (hget : Rows.get? job s.callers = some (.growing seen)) :
    Step s (.grow job spurious) (s.tryGrow job seen spurious) := by
  unfold State.tryGrow
  split
  · next hfull => exact .approach hget (.full hfull)
  · next hroom =>
    split
    · next hsame =>
      obtain ⟨rfl, rfl⟩ := hsame
      exact .grow hget (Nat.lt_of_not_le hroom)
    · next hfail => exact .approach hget (.again (Nat.lt_of_not_le hroom) hfail)

/-- So is its attempt to put the job into the queue. -/
theorem Step.of_offerJob (hget : Rows.get? job s.callers = some .offering)
    (h : s.offerJob job = some t) : Step s (.offer job) t := by
  unfold State.offerJob at h
  split at h
  · next hroom =>
    cases h
    exact .enqueue hget hroom
  · next hfull =>
    split at h
    · cases h
    · next hnobody =>
      cases h
      refine .runInline hget (Nat.le_of_not_lt hfull) fun hqueue => ?_
      exact Bool.eq_false_iff.mpr fun hlistens => hnobody ⟨hqueue, hlistens⟩

/-- So is the exchange of a worker that is about to stop. -/
theorem Step.of_tryRetire (hget : Rows.get? n s.workers = some (.retiring seen)) :
    Step s (.retire n spurious) (s.tryRetire n seen spurious) := by
  unfold State.tryRetire
  split
  · next hkept => exact .turn hget (.stay hkept)
  · next habove =>
    split
    · next hsame =>
      obtain ⟨rfl, rfl⟩ := hsame
      exact .retire hget (Nat.lt_of_not_le habove)
    · next hfail => exact .turn hget (.again (Nat.lt_of_not_le habove) hfail)

/-- Whatever `State.step` does is one of these steps. -/
theorem Step.of_step {e : Event} (h : s.step e = some t) : Step s e t := by
  cases e with
  | call job =>
    simp only [State.step] at h
    split at h
    · cases h
    · next hno =>
      cases h
      rw [not_or] at hno
      exact .call (Bool.eq_false_iff.mpr hno.1) (Option.not_isSome_iff_eq_none.mp hno.2)
  | readIdle job =>
    simp only [State.step] at h
    split at h
    · next hget =>
      cases h
      by_cases hidle : s.idle = 0
      · rw [if_pos hidle]
        exact .approach hget (.busy hidle)
      · rw [if_neg hidle]
        exact .approach hget (.spare hidle)
    · cases h
  | readSize job =>
    simp only [State.step] at h
    split at h
    · next hget => cases h; exact .approach hget .measure
    · cases h
  -- the two exchanges and the offer have possibilities of their own
  | grow job spurious =>
    simp only [State.step] at h
    split at h
    · next hget => cases h; exact .of_tryGrow hget
    · cases h
  | offer job =>
    simp only [State.step] at h
    split at h
    · next hget => exact .of_offerJob hget h
    · cases h
  | handOver job n =>
    simp only [State.step] at h
    split at h
    · next hget hworker =>
      split at h
      · next hqueue => cases h; exact .handOver hget hworker hqueue
      · cases h
    · cases h
  | finishInline job ending =>
    simp only [State.step] at h
    split at h
    · next hget => cases h; exact .finishInline hget
    · cases h
  | drop =>
    simp only [State.step] at h
    split at h
    · cases h
    · next hno =>
      cases h
      rw [not_or] at hno
      exact .drop (Bool.eq_false_iff.mpr hno.1) (not_not.mp hno.2)
  | countIdle n =>
    simp only [State.step] at h
    split at h
    · next hget => cases h; exact .turn hget .countIdle
    · cases h
  | wait n =>
    simp only [State.step] at h
    split at h
    · next hget => cases h; exact .turn hget .wait
    · cases h
  | receive n =>
    simp only [State.step] at h
    split at h
    · next hget hqueue => cases h; exact .receive hget hqueue
    · cases h
  | timeOut n =>
    simp only [State.step] at h
    split at h
    · next hget => cases h; exact .turn hget .timeOut
    · cases h
  | hangUp n =>
    simp only [State.step] at h
    split at h
    · next hget hqueue =>
      split at h
      · next hdropped => cases h; exact .turn hget (.hangUp hdropped hqueue)
      · cases h
    · cases h
  | countBusy n =>
    simp only [State.step] at h
    split at h
    · next hnext =>
      obtain ⟨p, hget, hafter⟩ := Option.bind_eq_some_iff.mp hnext
      cases h
      exact .turn hget (.countBusy hafter)
    · cases h
  -- however a job ends, its worker goes on the same way
  | finish n ending =>
    simp only [State.step] at h
    split at h
    · next hget =>
      rw [runJob_eq] at h
      cases h
      exact .finish hget
    · cases h
  | check n =>
    simp only [State.step] at h
    split at h
    · next hget => cases h; exact .turn hget .check
    · cases h
  | measure n =>
    simp only [State.step] at h
    split at h
    · next hget => cases h; exact .turn hget .measure
    · cases h
  | retire n spurious =>
    simp only [State.step] at h
    split at h
    · next hget => cases h; exact .of_tryRetire hget
    · cases h
  | leave n =>
    simp only [State.step] at h
    split at h
    · next hget => cases h; exact .leave hget
    · cases h

end

/-! ## Runs -/

/-- What a list of events makes of a state, one after the other; nothing if one of them is not
possible. -/
def State.run (s : State) (es : List Event) : Option State := es.foldlM State.step s

section

variable {start s t : State} {es : List Event} {e : Event}

/-- The last event of a run is a step. -/
theorem run_concat : s.run (es ++ [e]) = (s.run es).bind fun t => t.step e := by
  unfold State.run
  rw [List.foldlM_append]
  refine Option.bind_congr fun m _ => ?_
  rw [List.foldlM_cons]
  exact bind_pure _

/-- What every step keeps, a run keeps from where it starts. -/
theorem run_keeps {P : State → Prop} (hstep : ∀ {s e t}, Step s e t → P s → P t)
    (h : s.run es = some t) (hs : P s) : P t := by
  induction es generalizing s with
  | nil =>
    cases h
    exact hs
  | cons e es ih =>
    obtain ⟨m, hm, hrest⟩ := Option.bind_eq_some_iff.mp h
    exact ih hrest (hstep (.of_step hm) hs)

/-- What holds where a run starts, and is kept by every step, holds where it ends. The property may
speak about the events so far. -/
theorem run_induction {P : List Event → State → Prop} (hstart : P [] start)
    (hstep : ∀ {es s e t}, start.run es = some s → P es s → Step s e t → P (es ++ [e]) t) :
    ∀ {es s}, start.run es = some s → P es s := by
  intro es
  induction es using List.reverseRecOn with
  | nil =>
    intro s h
    cases h
    exact hstart
  | append_singleton es e ih =>
    intro s h
    rw [run_concat] at h
    obtain ⟨m, hm, hlast⟩ := Option.bind_eq_some_iff.mp h
    exact hstep hm (ih hm) (.of_step hlast)

/-- The limits of a pool are those that it was made with, made usable. -/
theorem Step.limits_eq (h : Step s e t) : t.limits = s.limits := by
  cases h <;> rfl

end

end TaskRelay.Pool
