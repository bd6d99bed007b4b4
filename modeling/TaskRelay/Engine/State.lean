import TaskRelay.Dispatcher
import TaskRelay.Engine.Options
import TaskRelay.Engine.Store
import TaskRelay.Rows

/-!
# The engine, step by step

An engine has one loop that owns the task table and takes commands from a channel, first come,
first served. Clients put requests into the channel. For each accepted task there is a driver: it
waits for one of the permits, of which there are as many as threads, announces that the task is
being run, has it run, reports the outcome and gives the permit back. Announcements and reports
are commands too, so the loop may get to them much later.

`State.step` is one step of the loop or of one driver, and a run of the engine is a list of
`Event`s in any order. What the tasks do is up to a `Dispatcher`.
-/

namespace TaskRelay.Engine

/-- What the loop is asked to do. -/
inductive Command where
  /-- A client wants an answer. -/
  | append (ticket : Ticket) (request : Request)
  /-- A task is being run. -/
  | started (id : TaskId)
  /-- A task has an outcome. -/
  | complete (id : TaskId) (result : Envelope)
  | stop

/-- How far the driver of a task has got. -/
inductive Phase where
  /-- It waits for a permit. -/
  | waiting
  /-- It has a permit. -/
  | admitted
  /-- It has announced that the task is being run. -/
  | announced
  /-- The task runs. -/
  | executing
  /-- The task has run. -/
  | executed (result : Envelope)
  /-- It has reported the outcome and still has its permit. -/
  | reported

namespace Phase

/-- Whether the driver has a permit. -/
def holdsPermit : Phase → Bool
  | .waiting => false
  | _ => true

/-- Whether the outcome is still to be reported. -/
def isUnreported : Phase → Bool
  | .reported => false
  | _ => true

def isExecuting : Phase → Bool
  | .executing => true
  | _ => false

end Phase

/-- Runs one task. -/
structure Driver where
  task : Submission
  phase : Phase

structure State where
  /-- Whether the loop runs. -/
  running : Bool
  /-- Permits that no driver has. -/
  permits : Nat
  /-- Commands for the loop, first one first. -/
  channel : List Command
  store : Store
  drivers : Rows TaskId Driver
  /-- The requests that were made; a ticket is a place in this list. -/
  asked : Array Request
  /-- The answers that were given, last one first. -/
  answers : List (Ticket × Response)

inductive Event where
  /-- A client makes a request. -/
  | request (r : Request)
  /-- The engine is told to stop. -/
  | stop
  /-- The loop handles the next command; a task that it accepts gets this id. -/
  | process (fresh : TaskId)
  /-- A driver takes a permit. -/
  | acquire (id : TaskId)
  /-- A driver announces that its task is being run. -/
  | announce (id : TaskId)
  /-- A task begins to run. -/
  | execute (id : TaskId)
  /-- A task ends. -/
  | finish (id : TaskId)
  /-- The outcome of a task is lost. -/
  | lose (id : TaskId) (message : String)
  /-- A driver reports the outcome of its task. -/
  | report (id : TaskId)
  /-- A driver gives its permit back and is no more. -/
  | release (id : TaskId)

/-- Whether an event is something that the loop or a driver does by itself. -/
def Event.isOwn : Event → Bool
  | .request _ => false
  | .stop => false
  | .lose _ _ => false
  | _ => true

namespace State

/-! ### Starting -/

/-- There are no more permits than this. -/
def maxPermits : Nat := ((1 <<< 64) - 1) / 8

/-- An engine that has just been started. Its loop ends at once if it cannot have as many permits
as there are threads. -/
def new (o : Options) : State where
  running := o.threads ≤ maxPermits
  permits := o.threads
  channel := []
  store := .empty
  drivers := []
  asked := #[]
  answers := []

/-- Starts an engine, which takes at least one thread. -/
def start (o : Options) : Attempt State :=
  if o.threads = 0 then .error (.text "Max blocking threads cannot be set to 0") else .ok (new o)

/-- Starts an engine as a configuration says. -/
def ofConfig (c : Config) : Except Error (Attempt State) := (Options.ofConfig c).map start

/-! ### Requests and answers -/

/-- The answer to a request, once there is one. -/
def answer? (s : State) (ticket : Ticket) : Option Response := Rows.get? ticket s.answers

/-- Answers a request. -/
def answer (ticket : Ticket) (r : Response) (s : State) : State :=
  { s with answers := (ticket, r) :: s.answers }

/-- Answers requests, one after the other. -/
def answerAll (tickets : List Ticket) (r : Response) (s : State) : State :=
  tickets.foldl (fun s ticket => s.answer ticket r) s

/-- What a requester gets from an engine that has stopped. -/
def stopped : Response := .error Error.stopped.toFailure

/-- Puts a command into the channel; it is lost if the loop has ended. -/
def send (c : Command) (s : State) : State :=
  if s.running then { s with channel := s.channel ++ [c] } else s

/-- A client makes a request. -/
def request (r : Request) (s : State) : State :=
  let ticket := s.asked.size
  let s := { s with asked := s.asked.push r }
  if s.running then s.send (.append ticket r) else s.answer ticket stopped

/-! ### The loop -/

/-- Accepts a task. -/
def accept (ticket : Ticket) (id : TaskId) (task : Submission) (s : State) : State :=
  { s with
    store := s.store.insert id task
    drivers := s.drivers ++ [(id, Driver.mk task .waiting)] }.answer ticket (.ok id.toJson.compact)

/-- Answers a request for the outcome of a task, or lets it wait. -/
def await (ticket : Ticket) (id : TaskId) (s : State) : State :=
  match s.store.await id ticket with
  | (some r, store) => { s with store := store }.answer ticket r
  | (none, store) => { s with store := store }

/-- Records the outcome of a task and answers the requests that wait for it. -/
def complete (id : TaskId) (result : Envelope) (s : State) : State :=
  { s with store := s.store.complete id result }.answerAll (s.store.waiters id) (.ok result.encode)

/-- The request that a command brings. -/
def ticket? : Command → Option Ticket
  | .append ticket _ => some ticket
  | _ => none

/-- The requests that are not answered yet: those that wait for a task, and those in the
channel. -/
def pending (s : State) : List Ticket :=
  s.store.order.toList.flatMap (fun id => s.store.waiters id) ++ s.channel.filterMap ticket?

/-- The loop ends; everyone who still wants an answer is told so. -/
def halt (s : State) : State :=
  { s with running := false, channel := [] }.answerAll s.pending stopped

/-- What the loop does with a command. The id of a new task has to be one that no task has. -/
def handle (fresh : TaskId) (s : State) : Command → Option State
  | .append ticket (.newTask task) =>
    if fresh ∈ s.store.records then none else some (s.accept ticket fresh task)
  | .append ticket (.awaitTask id) => some (s.await ticket id)
  | .append ticket .getStoreState => some (s.answer ticket (.ok s.store.snapshot.encode))
  | .started id => some { s with store := s.store.start id }
  | .complete id result => some (s.complete id result)
  | .stop => some s.halt

/-! ### Drivers -/

/-- The driver of a task gets to another phase. -/
def setPhase (id : TaskId) (task : Submission) (phase : Phase) (s : State) : State :=
  { s with drivers := Rows.set id ⟨task, phase⟩ s.drivers }

/-- The outcome of running a task. -/
def outcome (d : Dispatcher) (task : Submission) : Envelope :=
  d.execute task.definition task.args task.kwargs

/-- What becomes of a task whose outcome is lost. -/
def lost (message : String) : Envelope := .failure Failure.panicKind message []

/-! ### One step -/

/-- What an event makes of a state; nothing if the event is not possible there. -/
def step (d : Dispatcher) (s : State) : Event → Option State
  | .request r => some (s.request r)
  | .stop => some (s.send .stop)
  | .process fresh =>
    match s.channel with
    | c :: rest => if s.running then { s with channel := rest }.handle fresh c else none
    | [] => none
  | .acquire id =>
    match Rows.get? id s.drivers with
    | some ⟨task, .waiting⟩ =>
      if s.permits = 0 then none
      else some ({ s with permits := s.permits - 1 }.setPhase id task .admitted)
    | _ => none
  | .announce id =>
    match Rows.get? id s.drivers with
    | some ⟨task, .admitted⟩ => some ((s.send (.started id)).setPhase id task .announced)
    | _ => none
  | .execute id =>
    match Rows.get? id s.drivers with
    | some ⟨task, .announced⟩ => some (s.setPhase id task .executing)
    | _ => none
  | .finish id =>
    match Rows.get? id s.drivers with
    | some ⟨task, .executing⟩ => some (s.setPhase id task (.executed (outcome d task)))
    | _ => none
  | .lose id message =>
    match Rows.get? id s.drivers with
    | some ⟨task, .executing⟩ => some (s.setPhase id task (.executed (lost message)))
    | _ => none
  | .report id =>
    match Rows.get? id s.drivers with
    | some ⟨task, .executed result⟩ =>
      some ((s.send (.complete id result)).setPhase id task .reported)
    | _ => none
  | .release id =>
    match Rows.get? id s.drivers with
    | some ⟨_, .reported⟩ =>
      some { s with permits := s.permits + 1, drivers := Rows.erase id s.drivers }
    | _ => none

end State

/-- The states that an engine with these options can be in. -/
inductive Reachable (d : Dispatcher) (o : Options) : State → Prop where
  | new : Reachable d o (State.new o)
  | step {s t : State} (e : Event) (h : Reachable d o s) (hst : s.step d e = some t) :
    Reachable d o t

end TaskRelay.Engine
