import TaskRelay.Pool.Limits
import TaskRelay.Rows

/-!
# The worker pool, step by step

A pool has a bounded queue of jobs, workers that take jobs from it, and callers that submit jobs.
Callers and workers share nothing but the queue and three counters, and each of them does one
thing to one of those at a time. `State.step` is one such thing. A run of the pool is a list of
`Event`s in any order, so every interleaving is a run.

* A caller looks whether a worker is idle. If none is it tries to start one: it reads the number
  of workers and, unless that is the most there may be, exchanges it for one more, starting over
  if the number has changed meanwhile. Then it offers its job to the queue, and runs the job
  itself if the queue is full.
* A worker counts itself idle, waits for a job, counts itself busy and runs the job, over and
  over. A job that panics is caught (`runJob`). If the worker has waited in vain it looks whether
  the queue is empty and, if there are more workers than are kept, exchanges their number for one
  less and stops. When the pool is gone and the queue is empty it stops too.

An exchange may fail for no reason, and so may a wait end while a job arrives.
-/

namespace TaskRelay.Pool

/-- Jobs are known by number. -/
abbrev Job := Nat

/-- What a worker does next. -/
inductive Worker where
  /-- It holds a slot and is about to count itself idle. -/
  | starting
  /-- It counts as idle and is about to wait. -/
  | counted
  /-- It waits for a job. -/
  | listening
  /-- It has got a job and still counts as idle. -/
  | received (job : Job)
  /-- It has waited in vain and still counts as idle. -/
  | timedOut
  /-- It has seen that the pool is gone, and still counts as idle. -/
  | hungUp
  | running (job : Job)
  /-- It is about to look whether the queue is empty. -/
  | checking
  /-- The queue was empty; it is about to read the number of workers. -/
  | measuring
  /-- It has read the number of workers and is about to exchange it. -/
  | retiring (seen : Nat)
  /-- It is about to give its slot back because the pool is gone. -/
  | leaving
deriving DecidableEq, Repr

/-- What a caller does next with its job. -/
inductive Caller where
  /-- It is about to look whether a worker is idle. -/
  | arriving
  /-- No worker was idle; it is about to read the number of workers. -/
  | measuring
  /-- It has read the number of workers and is about to exchange it. -/
  | growing (seen : Nat)
  /-- It is about to offer its job to the queue. -/
  | offering
  /-- It runs its job itself. -/
  | running
deriving DecidableEq, Repr

structure State where
  limits : Limits
  /-- Jobs that wait, first one first. -/
  queue : List Job
  /-- The counter of workers. -/
  size : Nat
  /-- The counter of idle workers. -/
  idle : Nat
  /-- The counter of jobs that callers ran themselves. -/
  inlineRuns : Nat
  /-- How many workers were ever started; the next one takes this number. -/
  spawned : Nat
  workers : Rows Nat Worker
  /-- Calls that are going on, by their jobs. -/
  callers : Rows Job Caller
  /-- Jobs that have ended, last one first. -/
  finished : List Job
  /-- Whether the pool is gone. -/
  dropped : Bool
deriving Repr

namespace State

/-- A pool with its kept workers, all about to count themselves idle. -/
def new (limits : Limits) : State :=
  let l := limits.normalized
  { limits := l
    queue := []
    size := l.minThreads
    idle := 0
    inlineRuns := 0
    spawned := l.minThreads
    workers := (List.range l.minThreads).map fun i => (i, .starting)
    callers := []
    finished := []
    dropped := false }

end State

/-- How code that somebody runs ends. -/
inductive Ending where
  | returned
  | panicked
deriving DecidableEq, Repr

/-- How running a job ends for who runs it: a panic of the job is caught there. -/
def runJob : Ending → Ending
  | .returned => .returned
  | .panicked => .returned

inductive Event where
  /-- A thread submits a job. -/
  | call (job : Job)
  /-- A caller looks whether a worker is idle. -/
  | readIdle (job : Job)
  /-- A caller reads the number of workers. -/
  | readSize (job : Job)
  /-- A caller exchanges the number of workers for one more; the exchange may fail for no
  reason. -/
  | grow (job : Job) (spurious : Bool)
  /-- A caller offers its job to the queue, or to no one. -/
  | offer (job : Job)
  /-- A caller hands its job to a waiting worker, because the queue holds none. -/
  | handOver (job : Job) (worker : Nat)
  /-- A job that its caller runs ends. -/
  | finishInline (job : Job) (ending : Ending)
  /-- The pool is dropped. -/
  | drop
  /-- A worker counts itself idle. -/
  | countIdle (worker : Nat)
  | wait (worker : Nat)
  /-- A waiting worker takes a job from the queue. -/
  | receive (worker : Nat)
  /-- A waiting worker gives up waiting. -/
  | timeOut (worker : Nat)
  /-- A waiting worker sees that the pool is gone. -/
  | hangUp (worker : Nat)
  /-- A worker counts itself busy. -/
  | countBusy (worker : Nat)
  /-- The job of a worker ends. -/
  | finish (worker : Nat) (ending : Ending)
  /-- A worker looks whether the queue is empty. -/
  | check (worker : Nat)
  /-- A worker reads the number of workers. -/
  | measure (worker : Nat)
  /-- A worker exchanges the number of workers for one less. -/
  | retire (worker : Nat) (spurious : Bool)
  /-- A worker gives its slot back. -/
  | leave (worker : Nat)
deriving DecidableEq, Repr

/-- Whether an event is something that callers and workers do by themselves. -/
def Event.isOwn : Event → Bool
  | .call _ => false
  | .drop => false
  | _ => true

namespace State

/-! ### What callers do -/

/-- The caller of a job goes on as `next`. -/
def setCaller (s : State) (job : Job) (next : Caller) : State :=
  { s with callers := Rows.set job next s.callers }

/-- The call of a job is over. -/
def endCall (s : State) (job : Job) : State := { s with callers := Rows.erase job s.callers }

/-- One more worker, which takes the next number. -/
def startWorker (s : State) : State :=
  { s with
    size := s.size + 1
    spawned := s.spawned + 1
    workers := s.workers ++ [(s.spawned, .starting)] }

/-- A caller that has read `seen` workers tries to start one. -/
def tryGrow (s : State) (job : Job) (seen : Nat) (spurious : Bool) : State :=
  if s.limits.maxThreads ≤ seen then s.setCaller job .offering
  else if s.size = seen ∧ spurious = false then s.startWorker.setCaller job .offering
  else s.setCaller job (.growing s.size)

/-- A caller runs its job itself. -/
def runInline (s : State) (job : Job) : State :=
  { s with inlineRuns := s.inlineRuns + 1 }.setCaller job .running

/-- Whether some worker waits for a job. -/
def someoneListens (s : State) : Bool := s.workers.any fun w => w.2 = .listening

/-- A caller offers its job to the queue. A queue without room for any job takes none, but then
the job goes to a waiting worker if there is one. -/
def offerJob (s : State) (job : Job) : Option State :=
  if s.queue.length < s.limits.maxQueue then
    some ({ s with queue := s.queue ++ [job] }.endCall job)
  else if s.limits.maxQueue = 0 ∧ s.someoneListens then none
  else some (s.runInline job)

/-! ### What workers do -/

/-- A worker goes on as `next`. -/
def setWorker (s : State) (worker : Nat) (next : Worker) : State :=
  { s with workers := Rows.set worker next s.workers }

/-- A worker is no more. -/
def endWorker (s : State) (worker : Nat) : State :=
  { s with workers := Rows.erase worker s.workers }

/-- A worker that has read `seen` workers tries to stop. -/
def tryRetire (s : State) (worker seen : Nat) (spurious : Bool) : State :=
  if seen ≤ s.limits.minThreads then s.setWorker worker .starting
  else if s.size = seen ∧ spurious = false then { s with size := seen - 1 }.endWorker worker
  else s.setWorker worker (.retiring s.size)

/-- A worker is through with running a job. If that has broken off, the worker is gone, and nobody
gives its slot back. -/
def afterJob (s : State) (worker : Nat) : Ending → State
  | .returned => s.setWorker worker .starting
  | .panicked => s.endWorker worker

/-- What a worker does once it counts as busy again. -/
def afterWait : Worker → Option Worker
  | .received job => some (.running job)
  | .timedOut => some .checking
  | .hungUp => some .leaving
  | _ => none

/-! ### One step -/

/-- What an event makes of a state; nothing if the event is not possible there. -/
def step (s : State) : Event → Option State
  | .call job =>
    if s.dropped ∨ (Rows.get? job s.callers).isSome then none
    else some { s with callers := s.callers ++ [(job, .arriving)] }
  | .readIdle job =>
    match Rows.get? job s.callers with
    | some .arriving => some (s.setCaller job (if s.idle = 0 then .measuring else .offering))
    | _ => none
  | .readSize job =>
    match Rows.get? job s.callers with
    | some .measuring => some (s.setCaller job (.growing s.size))
    | _ => none
  | .grow job spurious =>
    match Rows.get? job s.callers with
    | some (.growing seen) => some (s.tryGrow job seen spurious)
    | _ => none
  | .offer job =>
    match Rows.get? job s.callers with
    | some .offering => s.offerJob job
    | _ => none
  | .handOver job worker =>
    match Rows.get? job s.callers, Rows.get? worker s.workers with
    | some .offering, some .listening =>
      if s.limits.maxQueue = 0 then some ((s.setWorker worker (.received job)).endCall job)
      else none
    | _, _ => none
  | .finishInline job _ =>
    match Rows.get? job s.callers with
    | some .running => some ({ s with finished := job :: s.finished }.endCall job)
    | _ => none
  | .drop =>
    if s.dropped ∨ s.callers ≠ [] then none else some { s with dropped := true }
  | .countIdle worker =>
    match Rows.get? worker s.workers with
    | some .starting => some ({ s with idle := s.idle + 1 }.setWorker worker .counted)
    | _ => none
  | .wait worker =>
    match Rows.get? worker s.workers with
    | some .counted => some (s.setWorker worker .listening)
    | _ => none
  | .receive worker =>
    match Rows.get? worker s.workers, s.queue with
    | some .listening, job :: rest =>
      some ({ s with queue := rest }.setWorker worker (.received job))
    | _, _ => none
  | .timeOut worker =>
    match Rows.get? worker s.workers with
    | some .listening => some (s.setWorker worker .timedOut)
    | _ => none
  | .hangUp worker =>
    match Rows.get? worker s.workers, s.queue with
    | some .listening, [] => if s.dropped then some (s.setWorker worker .hungUp) else none
    | _, _ => none
  | .countBusy worker =>
    match (Rows.get? worker s.workers).bind afterWait with
    | some next => some ({ s with idle := s.idle - 1 }.setWorker worker next)
    | none => none
  | .finish worker ending =>
    match Rows.get? worker s.workers with
    | some (.running job) =>
      some ({ s with finished := job :: s.finished }.afterJob worker (runJob ending))
    | _ => none
  | .check worker =>
    match Rows.get? worker s.workers with
    | some .checking =>
      some (s.setWorker worker (if s.queue.isEmpty then .measuring else .starting))
    | _ => none
  | .measure worker =>
    match Rows.get? worker s.workers with
    | some .measuring => some (s.setWorker worker (.retiring s.size))
    | _ => none
  | .retire worker spurious =>
    match Rows.get? worker s.workers with
    | some (.retiring seen) => some (s.tryRetire worker seen spurious)
    | _ => none
  | .leave worker =>
    match Rows.get? worker s.workers with
    | some .leaving => some ({ s with size := s.size - 1 }.endWorker worker)
    | _ => none

end State

/-- The states that a pool with these limits can be in. -/
inductive Reachable (limits : Limits) : State → Prop where
  | new : Reachable limits (State.new limits)
  | step {s t : State} (e : Event) (h : Reachable limits s) (hst : s.step e = some t) :
    Reachable limits t

end TaskRelay.Pool
