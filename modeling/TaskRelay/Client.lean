import TaskRelay.Description
import TaskRelay.Registry
import TaskRelay.StoreState

/-!
# Clients

A `Connection` takes a message to an engine and brings back the response; it is any function on
the state `σ` of what is behind it. A client writes requests, sends them, and reads responses; a
response of the wrong form breaks the protocol.

A client keeps no state of its own besides the registry that rebuilds failures.
-/

namespace TaskRelay

/-- Takes a message to an engine and brings back its response, or a failure. -/
abbrev Connection (σ : Type) := String → σ → Except Failure String × σ

namespace Client

variable {σ α : Type}

/-- What is said about a response that cannot be read. -/
def undecodable (e : DecodeError) : Failure :=
  .protocol ("undecodable response: " ++ e.message)

/-- Reads a response. -/
def readResponse (parse : String → Except DecodeError α) (response : Except Failure String) :
    Except Failure α :=
  match response with
  | .error f => .error f
  | .ok text => (parse text).mapError undecodable

/-- Sends a request and reads the response. -/
def send (connection : Connection σ) (parse : String → Except DecodeError α) (request : Request)
    (s : σ) : Except Failure α × σ :=
  let (response, s) := connection request.encode s
  (readResponse parse response, s)

/-- Submits a task to the default queue. -/
def newTask (connection : Connection σ) (definition args kwargs : String) (s : σ) :
    Except Failure TaskId × σ :=
  send connection TaskId.parse (.newTask (.ofTask definition args kwargs)) s

/-- Asks for the outcome of a task. -/
def awaitTask (connection : Connection σ) (id : TaskId) (s : σ) : Except Failure Envelope × σ :=
  send connection Envelope.parse (.awaitTask id) s

/-- Asks for the table of tasks. -/
def storeState (connection : Connection σ) (s : σ) : Except Failure StoreState × σ :=
  send connection StoreState.parse .getStoreState s

/-- Submits a call whose arguments have been written, or not: then nothing is sent. -/
def submitEncoded (connection : Connection σ) (definition : String)
    (arguments : Except Failure (String × String)) (s : σ) : Except Failure TaskId × σ :=
  match arguments with
  | .error f => (.error f, s)
  | .ok (args, kwargs) => newTask connection definition args kwargs s

/-- Submits a call of a task. -/
def submit (connection : Connection σ) (t : TaskType) (args : t.args.Carrier)
    (kwargs : t.kwargs.Carrier) (s : σ) : Except Failure TaskId × σ :=
  submitEncoded connection t.definition (t.encodeArguments args kwargs) s

/-- The description of a client. -/
def debugText (registry : Registry) : String :=
  Description.abridged "Client" [("registry", registry.debugText)]

end Client

/-! ### Futures -/

/-- A task that was submitted, with its outcome once that is known. -/
structure Future where
  id : TaskId
  resolved : Option Envelope

namespace Future

variable {σ : Type}

/-- A task of which nothing is known yet. -/
def ofTask (id : TaskId) : Future := ⟨id, none⟩

def isResolved (f : Future) : Bool := f.resolved.isSome

/-- The outcome of the task. It is asked for until it is known, and never again; a failed attempt
to ask is not kept. -/
def result (connection : Connection σ) (f : Future) (s : σ) :
    Except Failure Envelope × Future × σ :=
  match f.resolved with
  | some e => (.ok e, f, s)
  | none =>
    match Client.awaitTask connection f.id s with
    | (.ok e, s) => (.ok e, { f with resolved := some e }, s)
    | (.error failure, s) => (.error failure, f, s)

/-- The output in an envelope, as data of a shape, or the failure that the envelope stands for. -/
def output (registry : Registry) (shape : Shape) : Envelope → Except Failure shape.Carrier
  | .success result =>
    (shape.ofJson .value result.tree).mapError fun cause => .codec (.decode ⟨cause, none⟩)
  | .failure kind message trace => .error (registry.reconstruct kind message trace)

/-- The output of the task. -/
def wait (connection : Connection σ) (registry : Registry) (shape : Shape) (f : Future) (s : σ) :
    Except Failure shape.Carrier × Future × σ :=
  match f.result connection s with
  | (.ok e, f, s) => (output registry shape e, f, s)
  | (.error failure, f, s) => (.error failure, f, s)

/-- The description of a future. -/
def debugText (f : Future) : String :=
  Description.labelled "Future" [("task_id", f.id.debugText),
    ("resolved", Description.optional (f.resolved.map Envelope.debugText))]

end Future

end TaskRelay
