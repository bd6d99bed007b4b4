import TaskRelay.Pool.Schedule

/-!
# Watching a pool

A `Session` submits jobs to a pool one at a time and looks at the pool whenever it has settled.
Some jobs wait at a gate until they are released; a job that its caller runs does not wait.
-/

namespace TaskRelay.Pool

/-- What a job does when it runs. -/
inductive Work where
  /-- It ends at once. -/
  | prompt
  /-- It panics at once. -/
  | panicking
  /-- It waits to be released. -/
  | gated
deriving DecidableEq, Repr

structure Session where
  pool : State
  /-- What the jobs do, by number. -/
  jobs : List Work
  /-- Jobs that were released, maybe before they were submitted. -/
  released : List Job

namespace Session

/-- How a job ends, if it can. -/
def ends (s : Session) (job : Job) : Option Ending :=
  match s.jobs[job]? with
  | some .gated => if job ∈ s.released then some .returned else none
  | some .panicking => some .panicked
  | _ => some .returned

/-- A session with a new pool that has settled. -/
def new (limits : Limits) : Session :=
  ⟨(State.new limits).settle fun _ => some .returned, [], []⟩

/-- Submits a job, which takes the next number. -/
def submit (work : Work) (s : Session) : Session :=
  let t := { s with jobs := s.jobs ++ [work] }
  { t with pool := t.pool.submit t.ends s.jobs.length }

/-- Opens the gate of a job. -/
def release (job : Job) (s : Session) : Session :=
  let t := { s with released := job :: s.released }
  { t with pool := t.pool.settle t.ends }

/-- Jobs that wait at their gates, in increasing order. -/
def held (s : Session) : List Job :=
  (s.pool.workers.filterMap fun w =>
    match w.2 with
    | .running job => if (s.ends job).isNone then some job else none
    | _ => none).mergeSort

/-- Jobs that have ended, first one first. -/
def done (s : Session) : List Job := s.pool.finished.reverse

end Session

/-! ### Bursts and retirement -/

/-- A pool that has got that many jobs in one go, of which every `panicEvery`-th panics. -/
def burst (limits : Limits) (jobs : Nat) (panicEvery : Option Nat) : State :=
  let ends := fun job =>
    match panicEvery with
    | some n => some (if job % n = 0 then Ending.panicked else .returned)
    | none => some .returned
  (List.range jobs).foldl (fun s job => s.submit ends job) ((State.new limits).settle ends)

/-- Whether all of the first jobs have ended, each once, and no others. -/
def State.ranEachOnce (s : State) (jobs : Nat) : Bool := s.finished.mergeSort = List.range jobs

/-- How a pool grows while jobs are held and shrinks when it has nothing to do. -/
structure Retirement where
  before : Nat
  grown : Nat
  settled : Nat
deriving DecidableEq, Repr

/-- Holds that many jobs, releases them, and lets all idle workers give up waiting. -/
def retirement (limits : Limits) (gates : Nat) : Retirement :=
  let start := Session.new limits
  let full := (List.range gates).foldl (fun s _ => s.submit .gated) start
  let empty := (List.range gates).foldl (fun s job => s.release job) full
  ⟨start.pool.size, full.pool.size, (empty.pool.retireIdle empty.ends).size⟩

end TaskRelay.Pool
