import TaskRelay.Engine.State
import TaskRelay.Pipe.Traffic

/-!
# A pipe with its pool and its engine

Here everything that takes part in a pipe acts by itself, one thing at a time, and a run is a list
of `System.Event`s in any order:

* the client makes its calls, one after the other. Each of them is handed to the pool, and while
  that goes on the client does nothing else. Then it joins: it looks at the slots in their order,
  asks for the outcome of each task, and waits for the answer. When all outputs are there it asks
  for the table of tasks.
* the pool runs the jobs, each of which takes its submission to the engine, waits for the answer and
  puts it into the slot of its call.
* the loop and the drivers of the engine do what they do.

What is not part of it: a pool or an engine that somebody else ends, and outcomes that are lost,
which happens only when an engine ends.
-/

namespace TaskRelay

/-- Whether a worker or a caller is running the job. -/
def Pool.State.isRunning (s : Pool.State) (job : Pool.Job) : Bool :=
  s.workers.any (fun w => w.2 = .running job) || Rows.get? job s.callers = some .running

namespace Pipe

/-! ### Messages -/

/-- What is known about a message that was taken to an engine: it is no request, or it is answered
under a ticket. -/
abbrev Posted := Except Failure Engine.Ticket

/-- Takes a message to an engine. -/
def post (message : String) (s : Engine.State) : Posted × Engine.State :=
  match Request.decode message with
  | .error f => (.error f, s)
  | .ok r => (.ok s.asked.size, s.request r)

/-- The response to a message, once there is one. -/
def response? (s : Engine.State) : Posted → Option Engine.Response
  | .error f => some (.error f)
  | .ok ticket => s.answer? ticket

/-! ### States -/

/-- What is between a pipe and an engine. -/
structure Desk where
  engine : Engine.State
  /-- The submissions that were taken to the engine, by the places of their calls. -/
  submissions : Rows Nat Posted
  /-- The question that joining waits with. -/
  question : Option Posted

structure System where
  pool : Pool.State
  /-- How many calls the client has made. -/
  made : Nat
  pipe : Progress Desk
  /-- The request for the table. -/
  listing : Option Posted

namespace System

inductive Event where
  /-- The client makes its next call. -/
  | call
  | pool (e : Pool.Event)
  /-- A job takes the submission of its call to the engine. -/
  | submit (place : Nat)
  /-- A job puts the answer into the slot of its call. -/
  | fill (place : Nat)
  | engine (e : Engine.Event)
  /-- Joining asks for the outcome of the task in its next slot. -/
  | ask
  /-- Joining takes in the answer, or what is wrong with its next slot. -/
  | look
  /-- The client asks for the table. -/
  | list

/-- The pool has opened, and nothing else has happened yet. -/
def new (pool : Pool.State) (o : Engine.Options) (calls : List Call) : System :=
  ⟨pool, 0, start calls ⟨.new o, [], none⟩, none⟩

def engine (p : System) : Engine.State := p.pipe.world.engine

/-- The client is not in a call. -/
def isFree (p : System) : Bool := p.pool.callers.isEmpty

/-- All calls are made, and joining goes on. -/
def isJoining (p : System) : Bool :=
  p.made = p.pipe.slots.size && p.isFree && p.pipe.problem.isNone

/-! ### One step -/

/-- A call whose arguments were refused is no job. -/
def callNext (p : System) : Option System :=
  match p.isFree, p.pipe.slots[p.made]? with
  | true, some (.pending _ _ _) =>
    (p.pool.step (.call p.made)).map fun pool => { p with pool := pool, made := p.made + 1 }
  | true, some _ => some { p with made := p.made + 1 }
  | _, _ => none

/-- No job ends before it has filled its slot. -/
def goOn (e : Pool.Event) (p : System) : Option System :=
  match e.isOwn, (p.pool.ended? e).bind fun place => p.pipe.slots[place]? with
  | false, _ => none
  | true, some (.pending _ _ _) => none
  | true, _ => (p.pool.step e).map fun pool => { p with pool := pool }

/-- Something goes to the engine. -/
def toDesk (p : System) (desk : Desk) : System := { p with pipe := { p.pipe with world := desk } }

def submit (place : Nat) (p : System) : Option System :=
  let desk := p.pipe.world
  match p.pool.isRunning place, p.pipe.slots[place]?, Rows.get? place desk.submissions with
  | true, some (.pending definition args kwargs), none =>
    let message := (Request.newTask (.ofTask definition args kwargs)).encode
    let (posted, engine) := post message desk.engine
    some (p.toDesk { desk with
      engine := engine
      submissions := desk.submissions ++ [(place, posted)] })
  | _, _, _ => none

def fillSlot (place : Nat) (p : System) : Option System :=
  match p.pipe.slots[place]?,
    (Rows.get? place p.pipe.world.submissions).bind (response? p.engine) with
  | some (.pending _ _ _), some response =>
    let slots := p.pipe.slots.setIfInBounds place (fill (.ok response))
    some { p with pipe := { p.pipe with slots := slots } }
  | _, _ => none

def ask (p : System) : Option System :=
  let desk := p.pipe.world
  match p.isJoining, p.pipe.slots[p.pipe.outputs.size]?, desk.question with
  | true, some (.answered (.ok id)), none =>
    let (posted, engine) := post (Request.awaitTask id).encode desk.engine
    some (p.toDesk { desk with engine := engine, question := some posted })
  | _, _, _ => none

/-- Joining is through with one more slot, or stops. -/
def take (p : System) (r : Except Failure Value) : System :=
  let pipe := { p.pipe with world := { p.pipe.world with question := none } }
  match r with
  | .ok v => { p with pipe := { pipe with outputs := pipe.outputs.push v } }
  | .error f => { p with pipe := { pipe with problem := some f } }

def look (registry : Registry) (p : System) : Option System :=
  match p.isJoining, p.pipe.world.question, p.pipe.slots[p.pipe.outputs.size]? with
  | true, some posted, _ =>
    (response? p.engine posted).map fun response => p.take (readOutput registry response)
  | true, none, some (.answered (.error f)) => some (p.take (.error f))
  | true, none, some .lost => some (p.take (.error dropped))
  | _, _, _ => none

def list (p : System) : Option System :=
  let desk := p.pipe.world
  match p.pipe.outcome?, p.listing with
  | some (.ok _), none =>
    let (posted, engine) := post Request.getStoreState.encode desk.engine
    some { p.toDesk { desk with engine := engine } with listing := some posted }
  | _, _ => none

/-- What an event makes of a system; nothing if the event is not possible there. -/
def step (d : Dispatcher) (registry : Registry) (p : System) : Event → Option System
  | .call => p.callNext
  | .pool e => p.goOn e
  | .submit place => p.submit place
  | .fill place => p.fillSlot place
  | .engine e =>
    if e.isOwn then
      (p.engine.step d e).map fun engine => p.toDesk { p.pipe.world with engine := engine }
    else none
  | .ask => p.ask
  | .look => p.look registry
  | .list => p.list

/-- What a list of events makes of a system; nothing if one of them is not possible. -/
def run (d : Dispatcher) (registry : Registry) (p : System) (es : List Event) : Option System :=
  es.foldlM (step d registry) p

/-- The table of tasks, once it is there. -/
def table? (p : System) : Option (Except Failure StoreState) :=
  (p.listing.bind (response? p.engine)).map (Client.readResponse StoreState.parse)

/-- Nothing can happen any more, except that workers give up waiting for jobs. -/
def AtRest (d : Dispatcher) (registry : Registry) (p : System) : Prop :=
  ∀ e, (∀ worker, e ≠ .pool (.timeOut worker)) → p.step d registry e = none

end System

end Pipe

end TaskRelay
