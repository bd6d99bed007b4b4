import TaskRelay.Pipe
import TaskRelay.Pool.State

/-!
# Pipes on a pool

A pipe hands each submission to a pool, as a job under the place of its call. A call whose arguments
were refused is no job. The submission is made while its job runs, on a worker or on the caller, so
the end of the job is the moment at which the slot of the call is filled. The pool may have any
other jobs besides.

`Pooled.step` is one event of the pool or one look of joining, so a run of a pooled pipe is a run of
its pool in which joining looks at its slots at any time.
-/

namespace TaskRelay

/-- The message with which a call is submitted; none if its arguments were refused. -/
def Call.message? (c : Call) : Option String :=
  match c.arguments with
  | .error _ => none
  | .ok (args, kwargs) => some (Request.newTask (.ofTask c.definition args kwargs)).encode

/-- The job of a worker that is running one. -/
def Pool.Worker.runs? : Pool.Worker → Option Pool.Job
  | .running job => some job
  | _ => none

/-- The job that ends in an event. -/
def Pool.State.ended? (s : Pool.State) : Pool.Event → Option Pool.Job
  | .finishInline job _ => some job
  | .finish worker _ => (Rows.get? worker s.workers).bind Pool.Worker.runs?
  | _ => none

namespace Pipe

variable {σ : Type}

/-- A pipe and the pool that its submissions are handed to. -/
structure Pooled (σ : Type) where
  pool : Pool.State
  pipe : Progress σ

namespace Pooled

/-- What happens next. -/
inductive Event where
  | pool (e : Pool.Event)
  /-- Joining looks at its next slot. -/
  | join
deriving DecidableEq, Repr

/-- What happens in the pool. -/
def Event.pool? : Event → Option Pool.Event
  | .pool e => some e
  | .join => none

def poolEvents (es : List Event) : List Pool.Event := es.filterMap Event.pool?

/-- All calls are added, on a pool that has opened, and nothing has happened yet. -/
def new (pool : Pool.State) (calls : List Call) (s : σ) : Pooled σ := ⟨pool, start calls s⟩

def step (wire : Wire σ) (registry : Registry) (p : Pooled σ) : Event → Option (Pooled σ)
  | .pool e =>
    (p.pool.step e).map fun pool =>
      match p.pool.ended? e with
      | some place => ⟨pool, submitAt wire place p.pipe⟩
      | none => ⟨pool, p.pipe⟩
  | .join => some ⟨p.pool, joinNext wire registry p.pipe⟩

/-- What a list of events makes of a pooled pipe; nothing if one of them is not possible. -/
def run (wire : Wire σ) (registry : Registry) (p : Pooled σ) (es : List Event) :
    Option (Pooled σ) :=
  es.foldlM (step wire registry) p

end Pooled

/-- The message with which the call at a place is submitted, if it is. -/
def messageAt? (calls : List Call) (place : Nat) : Option (Nat × String) :=
  (calls[place]?.bind Call.message?).map (place, ·)

/-- The messages of all calls that are submitted, in the order of the calls. -/
def messages (calls : List Call) : List (Nat × String) :=
  (List.range calls.length).filterMap (messageAt? calls)

end Pipe

end TaskRelay
