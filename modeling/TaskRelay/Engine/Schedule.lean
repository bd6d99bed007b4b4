import TaskRelay.Client
import TaskRelay.Engine.State

/-!
# An engine that is left to itself

`Live.settle` lets the loop and the drivers act until none of them can: the loop goes first, then
the drivers in the order in which their tasks were accepted. Whether a task can end depends on
what is outside the engine, and its end may change that; both are up to a `Setting`.

`Setting.connection` is how a client talks to such an engine: it makes a request, lets everything
settle and takes the answer.

> `Reachable.settle`: what is settled from a reachable state is reachable.
-/

namespace TaskRelay.Engine

/-- What an engine runs, and what is around it. -/
structure Setting (ω : Type) where
  dispatcher : Dispatcher
  /-- The id of a task, by how many were accepted before. -/
  name : Nat → TaskId
  /-- Whether a task that runs can end now. -/
  mayEnd : ω → Submission → Bool
  /-- What is outside once a task has ended. -/
  ended : ω → Submission → ω

namespace Setting

/-- Tasks end when they run, and change nothing outside. -/
def plain (dispatcher : Dispatcher) (name : Nat → TaskId) : Setting Unit :=
  ⟨dispatcher, name, fun _ _ => true, fun _ _ => ()⟩

end Setting

/-- An engine with what is outside it. -/
structure Live (ω : Type) where
  state : State
  outside : ω

namespace Live

variable {ω : Type}

/-- What the driver of a task does next, if it can do anything. -/
def driverEvent? (e : Setting ω) (l : Live ω) (id : TaskId) (driver : Driver) : Option Event :=
  match driver.phase with
  | .waiting => if l.state.permits = 0 then none else some (.acquire id)
  | .admitted => some (.announce id)
  | .announced => some (.execute id)
  | .executing => if e.mayEnd l.outside driver.task then some (.finish id) else none
  | .executed _ => some (.report id)
  | .reported => some (.release id)

/-- What happens next: the loop handles a command, or else the first driver that can do anything
does it. -/
def nextEvent? (e : Setting ω) (l : Live ω) : Option Event :=
  if l.state.running ∧ l.state.channel ≠ [] then some (.process (e.name l.state.store.order.size))
  else l.state.drivers.findSome? fun d => l.driverEvent? e d.1 d.2

/-- What is outside after an event. -/
def outsideAfter (e : Setting ω) (l : Live ω) : Event → ω
  | .finish id =>
    match Rows.get? id l.state.drivers with
    | some driver => e.ended l.outside driver.task
    | none => l.outside
  | _ => l.outside

/-- Something happens. -/
def act (e : Setting ω) (l : Live ω) (event : Event) : Option (Live ω) :=
  (l.state.step e.dispatcher event).map fun state => ⟨state, l.outsideAfter e event⟩

/-- At most that many things happen. -/
def settleWithin (e : Setting ω) : Nat → Live ω → Live ω
  | 0, l => l
  | n + 1, l =>
    match (l.nextEvent? e).bind (l.act e) with
    | none => l
    | some m => settleWithin e n m

/-- No command or driver makes more than ten things happen before it is gone. -/
def effort (l : Live ω) : Nat := 10 * (l.state.channel.length + l.state.drivers.length + 1)

/-- Things happen until nothing can. -/
def settle (e : Setting ω) (l : Live ω) : Live ω := settleWithin e l.effort l

/-! ### Requests -/

/-- Makes a request and lets everything settle. A message that is no request never gets to the
engine. -/
def ask (e : Setting ω) (message : String) (l : Live ω) : Except Failure Ticket × Live ω :=
  match Request.decode message with
  | .error f => (.error f, l)
  | .ok r => (.ok l.state.asked.size, settle e { l with state := l.state.request r })

/-- The answer to a request. Whoever never gets one is told that the engine has stopped. -/
def response (l : Live ω) (ticket : Ticket) : Response :=
  (l.state.answer? ticket).getD State.stopped

end Live

/-- Makes a request and takes the answer. -/
def Setting.connection {ω : Type} (e : Setting ω) : Connection (Live ω) := fun message l =>
  match l.ask e message with
  | (.error f, l) => (.error f, l)
  | (.ok ticket, l) => (l.response ticket, l)

/-! ### Settling is a run -/

section

variable {ω : Type} {e : Setting ω} {o : Options}

theorem Reachable.settleWithin {n : Nat} {l : Live ω} (h : Reachable e.dispatcher o l.state) :
    Reachable e.dispatcher o (l.settleWithin e n).state := by
  induction n generalizing l with
  | zero => exact h
  | succ n ih =>
    rw [Live.settleWithin]
    split
    · exact h
    · next m hm =>
      obtain ⟨event, -, hact⟩ := Option.bind_eq_some_iff.mp hm
      obtain ⟨t, hst, rfl⟩ := Option.map_eq_some_iff.mp hact
      exact ih (.step event h hst)

theorem Reachable.settle {l : Live ω} (h : Reachable e.dispatcher o l.state) :
    Reachable e.dispatcher o (l.settle e).state :=
  h.settleWithin

end

end TaskRelay.Engine
