import TaskRelay.Pool.State

/-!
# A pool that is left to itself

`State.settle` lets callers and workers act until none of them can: a call goes on as soon as it
is made, then the workers act in the order of their numbers, exchanges succeed, and a waiting
worker gives up only when it is told to (`State.retireIdle`). Which jobs can end, and how, is up
to `ends`.

This is one of the runs of `State.step`:

> `Reachable.settle`: what is settled from a reachable state is reachable.
-/

namespace TaskRelay.Pool

namespace State

/-- The first worker that waits for a job. -/
def listener? (s : State) : Option Nat := (s.workers.find? fun w => w.2 = .listening).map Prod.fst

/-- What a caller does next. A queue without room for any job hands it to a waiting worker, if
there is one. -/
def callerEvent (s : State) (ends : Job → Option Ending) (job : Job) : Caller → Event
  | .arriving => .readIdle job
  | .measuring => .readSize job
  | .growing _ => .grow job false
  | .offering =>
    match s.limits.maxQueue, s.listener? with
    | 0, some worker => .handOver job worker
    | _, _ => .offer job
  | .running => .finishInline job ((ends job).getD .returned)

/-- What a worker does next, if it can do anything. -/
def workerEvent? (s : State) (ends : Job → Option Ending) (worker : Nat) : Worker → Option Event
  | .starting => some (.countIdle worker)
  | .counted => some (.wait worker)
  | .listening =>
    if s.queue ≠ [] then some (.receive worker)
    else if s.dropped then some (.hangUp worker)
    else none
  | .received _ => some (.countBusy worker)
  | .timedOut => some (.countBusy worker)
  | .hungUp => some (.countBusy worker)
  | .running job => (ends job).map (.finish worker)
  | .checking => some (.check worker)
  | .measuring => some (.measure worker)
  | .retiring _ => some (.retire worker false)
  | .leaving => some (.leave worker)

/-- What happens next: something in the oldest call, or else something of the first worker that
can do anything. -/
def nextEvent? (ends : Job → Option Ending) (s : State) : Option Event :=
  match s.callers with
  | (job, caller) :: _ => some (s.callerEvent ends job caller)
  | [] => s.workers.findSome? fun w => s.workerEvent? ends w.1 w.2

/-- At most that many things happen. -/
def settleWithin (ends : Job → Option Ending) : Nat → State → State
  | 0, s => s
  | n + 1, s =>
    match (s.nextEvent? ends).bind s.step with
    | none => s
    | some t => settleWithin ends n t

/-- No call, waiting job or worker does more than sixteen things before it comes to rest. -/
def effort (s : State) : Nat := 16 * (s.callers.length + s.queue.length + s.workers.length + 1)

/-- Things happen until nothing can. -/
def settle (ends : Job → Option Ending) (s : State) : State := settleWithin ends s.effort s

/-- A thread submits a job and everything settles. -/
def submit (ends : Job → Option Ending) (job : Job) (s : State) : State :=
  ((s.step (.call job)).getD s).settle ends

/-- The waiting workers give up waiting, one after the other. -/
def retireIdle (ends : Job → Option Ending) (s : State) : State :=
  (s.workers.map Prod.fst).foldl
    (fun s worker => ((s.step (.timeOut worker)).getD s).settle ends) s

end State

/-! ### Settling is a run -/

theorem Reachable.settleWithin {limits : Limits} {ends : Job → Option Ending} {n : Nat} {s : State}
    (h : Reachable limits s) : Reachable limits (s.settleWithin ends n) := by
  induction n generalizing s with
  | zero => exact h
  | succ n ih =>
    rw [State.settleWithin]
    split
    · exact h
    · next t ht =>
      obtain ⟨e, -, hst⟩ := Option.bind_eq_some_iff.mp ht
      exact ih (.step e h hst)

theorem Reachable.settle {limits : Limits} {ends : Job → Option Ending} {s : State}
    (h : Reachable limits s) : Reachable limits (s.settle ends) :=
  h.settleWithin

end TaskRelay.Pool
