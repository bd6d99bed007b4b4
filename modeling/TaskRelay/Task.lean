import TaskRelay.Envelope
import TaskRelay.Panic

/-!
# Tasks

Running a task takes up to five of six stages: decode the arguments, decode the named arguments,
build an instance, call it, and write its output or describe the error it returned. Each of them may
go wrong in its own way and each may break off. `Stages.run` strings them together: the first one
that goes wrong decides the outcome, and no later one is entered. How a stage is entered is left
open (`Stages.runIn`), so that one can also look on.

An error may have been caused by another one, and that by a third; a `Fault` is an error with all
of them.

A `TaskType` is a task whose data has shapes (`TaskType.stages`). Its arguments are written by
`TaskType.encodeArguments`, which accepts a list and an object and nothing else.
-/

namespace TaskRelay

/-- An error with what it was caused by. Its text is made when it is asked for, which may break off,
and so may asking for its cause. -/
inductive Fault where
  /-- Nothing else caused it. -/
  | root (text : Attempt String)
  | caused (text : Attempt String) (source : Fault)
  /-- Nobody gets to know what caused it. -/
  | obscure (text : Attempt String) (p : Panic)

namespace Fault

def text : Fault → Attempt String
  | root text => text
  | caused text _ => text
  | obscure text _ => text

/-- The texts of all causes, outermost first; the error itself is not among them. -/
def trace : Fault → Attempt (List String)
  | root _ => .ok []
  | caused _ source => do
    let text ← source.text
    let causes ← source.trace
    return text :: causes
  | obscure _ p => .error p

/-- An error with a text and the texts of its causes, outermost first. -/
def ofTexts (message : String) : List String → Fault
  | [] => .root (.ok message)
  | cause :: causes => .caused (.ok message) (ofTexts cause causes)

end Fault

/-- What running a task goes through. -/
inductive Stage where
  /-- Reading the positional arguments. -/
  | args
  /-- Reading the named arguments. -/
  | kwargs
  | build
  | call
  /-- Describing an error. -/
  | report
  /-- Writing an output. -/
  | output
deriving DecidableEq, Repr

/-- The stages of a task with arguments `α`, named arguments `κ`, instances `σ`, errors `ε` and
outputs `ω`. -/
structure Stages (α κ σ ε ω : Type) where
  decodeArgs : String → Attempt (Except CodecError α)
  decodeKwargs : String → Attempt (Except CodecError κ)
  build : Attempt σ
  call : σ → α → κ → Attempt (Except ε ω)
  /-- The name of the type of errors. -/
  errorKind : String
  /-- What there is to know about an error. -/
  fault : ε → Fault
  encode : ω → Attempt (Except CodecError Value)

/-- Runs a task on the texts of its arguments. -/
abbrev Runner := String → String → Attempt Envelope

namespace Stages

variable {α κ σ ε ω : Type}

/-- The outcome of a codec that refused. -/
def refused (e : CodecError) : Envelope := .ofFailure (.codec e)

/-- Describes an error of a kind: its text, and then those of its causes. -/
def describe (kind : String) (fault : Fault) : Attempt Envelope := do
  let message ← fault.text
  let trace ← fault.trace
  return .failure kind message trace

section

variable {m : Type → Type} [Monad m] (enter : {β : Type} → Stage → Attempt β → m β)

/-- Writes the output of a call. -/
def finish (t : Stages α κ σ ε ω) (output : ω) : m Envelope := do
  match ← enter .output (t.encode output) with
  | .error e => return refused e
  | .ok value => return .success value

/-- Builds an instance and calls it. -/
def invoke (t : Stages α κ σ ε ω) (args : α) (kwargs : κ) : m Envelope := do
  let instance' ← enter .build t.build
  match ← enter .call (t.call instance' args kwargs) with
  | .ok output => t.finish enter output
  | .error e => enter .report (describe t.errorKind (t.fault e))

/-- All stages in turn, each of them entered by `enter`. -/
def runIn (t : Stages α κ σ ε ω) (args kwargs : String) : m Envelope := do
  match ← enter .args (t.decodeArgs args) with
  | .error e => return refused e
  | .ok args =>
    match ← enter .kwargs (t.decodeKwargs kwargs) with
    | .error e => return refused e
    | .ok kwargs => t.invoke enter args kwargs

end

/-- All stages in turn. -/
def run (t : Stages α κ σ ε ω) : Runner := t.runIn (m := Attempt) fun _ attempt => attempt

end Stages

/-- An error of a task: the name of its type, its text, and what it was caused by. -/
structure TaskError where
  message : String
  causes : List String
deriving DecidableEq, Repr

/-- A task whose arguments and output have shapes. -/
structure TaskType where
  definition : String
  args : Shape
  kwargs : Shape
  output : Shape
  errorKind : String
  /-- Breaks off if no instance can be built. -/
  build : Attempt Unit
  call : args.Carrier → kwargs.Carrier → Attempt (Except TaskError output.Carrier)

namespace TaskType

/-- The stages of a task with shapes: reading and writing never break off. -/
def stages (t : TaskType) :
    Stages t.args.Carrier t.kwargs.Carrier Unit TaskError t.output.Carrier where
  decodeArgs s := .ok ((t.args.parse s).mapError .decode)
  decodeKwargs s := .ok ((t.kwargs.parse s).mapError .decode)
  build := t.build
  call _ args kwargs := t.call args kwargs
  errorKind := t.errorKind
  fault e := .ofTexts e.message e.causes
  encode output := .ok ((t.output.toValue output).mapError .encode)

def runner (t : TaskType) : Runner := t.stages.run

end TaskType

/-! ### Arguments on their way to the engine -/

namespace Arguments

/-- Positional arguments have to be a list. -/
def notList (definition : String) : Failure :=
  .validation ("positional arguments of " ++ definition ++ " must encode to a JSON array")

/-- Named arguments have to be an object. -/
def notObject (definition : String) : Failure :=
  .validation ("keyword arguments of " ++ definition ++ " must encode to a JSON object")

/-- The texts of arguments that have been written as values, or the first thing that is wrong:
the positional arguments are judged before the named ones. -/
def encode (definition : String) (args kwargs : Except CodecError Value) :
    Except Failure (String × String) :=
  match args with
  | .error e => .error (.codec e)
  | .ok args =>
    match args.tree with
    | .array _ =>
      match kwargs with
      | .error e => .error (.codec e)
      | .ok kwargs =>
        match kwargs.tree with
        | .object _ => .ok (args.text, kwargs.text)
        | _ => .error (notObject definition)
    | _ => .error (notList definition)

end Arguments

/-- The texts of the arguments of a call. -/
def TaskType.encodeArguments (t : TaskType) (args : t.args.Carrier) (kwargs : t.kwargs.Carrier) :
    Except Failure (String × String) :=
  Arguments.encode t.definition ((t.args.toValue args).mapError .encode)
    ((t.kwargs.toValue kwargs).mapError .encode)

end TaskRelay
