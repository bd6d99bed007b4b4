import TaskRelay.Registry

/-!
# Dispatching

A `Dispatcher` runs registered tasks, and whatever happens its answer is an envelope: a missing
field of the context, an unknown definition, an error of the task and a panic are all failures.

A panic that has been caught still has to be let go of. Its envelope is made by then (`execute`),
but nobody gets to see it if letting go breaks off in turn (`attempt`).

The three ways in lead to one another: `dispatchJson` reads a context and hands it to `dispatch`,
which checks its fields and hands them to `execute`. How a task is run is left open there
(`dispatchIn`), so that one can also look on.
-/

namespace TaskRelay

structure Dispatcher where
  registry : Registry

namespace Dispatcher

/-- The envelope of a panic, a failure of its own kind. -/
def ofCaught (c : Caught) : Envelope := .failure Failure.panicKind c.message c.frames

/-- The envelope of an attempt. -/
def settle : Attempt Envelope → Envelope
  | .ok e => e
  | .error p => ofCaught ⟨p.message, p.frames⟩

/-- Runs the task of a definition on the texts of its arguments. -/
def execute (d : Dispatcher) (definition args kwargs : String) : Envelope :=
  match d.registry.runner? definition with
  | none => .ofFailure (.unresolvedDefinition definition)
  | some run => settle (run args kwargs)

/-- What whoever asks for an attempt gets: a panic is caught, looked at and let go of. -/
def answer (x : Attempt Envelope) : Attempt Envelope := do
  match ← Attempt.caught x with
  | .ok e => return e
  | .error c => return ofCaught c

/-- What whoever asks for an execution gets. -/
def attempt (d : Dispatcher) (definition args kwargs : String) : Attempt Envelope :=
  match d.registry.runner? definition with
  | none => .ok (.ofFailure (.unresolvedDefinition definition))
  | some run => answer (run args kwargs)

/-! ### Contexts -/

/-- A field of a context, which has to be a text. -/
def requiredText (context : Value) (key : String) : Except Failure String :=
  match context.get? key with
  | none => .error (.validation ("Missing task " ++ key))
  | some .null => .error (.validation ("Missing task " ++ key))
  | some (.string s) => .ok s
  | some _ => .error (.validation ("Task " ++ key ++ " must be a string"))

/-- The fields of a context, checked in this order. -/
def validate (context : Value) : Except Failure (String × String × String) := do
  let definition ← requiredText context "definition"
  let args ← requiredText context "args"
  let kwargs ← requiredText context "kwargs"
  return (definition, args, kwargs)

/-- What is said about a context that is no JSON. -/
def malformedContext (e : DecodeError) : Failure :=
  .validation ("Malformed task context: " ++ e.message)

section

variable {m : Type → Type} [Monad m] (run : String → String → String → m Envelope)

/-- Hands the fields of a context to `run`. A context that has not got them is answered at once. -/
def dispatchIn (context : Value) : m Envelope :=
  match validate context with
  | .ok (definition, args, kwargs) => run definition args kwargs
  | .error f => return .ofFailure f

/-- The same from the text of a context to the text of an envelope. -/
def dispatchJsonIn (context : String) : m String := do
  match Value.parse context with
  | .ok context => return (← dispatchIn run context).encode
  | .error e => return (Envelope.ofFailure (malformedContext e)).encode

end

/-- Runs the task that a context names. -/
def dispatch (d : Dispatcher) (context : Value) : Envelope :=
  Id.run (dispatchIn (m := Id) d.execute context)

/-- From the text of a context to the text of an envelope. -/
def dispatchJson (d : Dispatcher) (context : String) : String :=
  Id.run (dispatchJsonIn (m := Id) d.execute context)

end Dispatcher

end TaskRelay
