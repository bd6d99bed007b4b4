import TaskRelay.Shape.Read
import TaskRelay.Shape.ToJson

/-!
# Failures

Everything that can go wrong between a client and a task is a `Failure`. It travels under its
`kind` with its bare `message`; `display` is the text for people, with a word in front that says
what went wrong. Three kinds come back as what they were (`Failure.ofTaxonomy?`):

> `ofTaxonomy?_kind`: a failure that is rebuilt from its kind and message is the same failure.
-/

namespace TaskRelay

/-- Data that could not be read or written. -/
inductive CodecError where
  | decode (e : DecodeError)
  | encode (e : EncodeError)
  /-- A complaint of a task's own reader or writer. -/
  | custom (message : String)
deriving DecidableEq, Repr

def CodecError.message : CodecError → String
  | .decode e => e.message
  | .encode e => e.message
  | .custom message => message

/-- What can go wrong. -/
inductive Failure where
  /-- A configuration was read before it was set. -/
  | configuration (store : String)
  | protocol (message : String)
  | validation (message : String)
  | unresolvedDefinition (definition : String)
  /-- A failed task whose kind of error is registered here; `rebuilt` is the text of the error
  that was rebuilt from the message. -/
  | task (kind message rebuilt : String)
  /-- A failed task whose kind of error is not known here. -/
  | remoteTask (kind message : String) (trace : List String)
  | codec (e : CodecError)
  | workerPool (message : String)
deriving DecidableEq, Repr

namespace Failure

/-! ### Kinds -/

def validationKind : String := "tasklane::ValidationError"
def unresolvedDefinitionKind : String := "tasklane::UnresolvedDefinition"

/-- The kind of a task that broke off instead of returning. -/
def panicKind : String := "tasklane::Panic"

def configurationKind : String := "tasklane::ConfigurationError"
def protocolKind : String := "tasklane::ProtocolError"
def workerPoolKind : String := "tasklane::WorkerPoolError"
def codecKind : String := "serde_json::error::Error"

/-- The kind under which a failure travels. -/
def kind : Failure → String
  | .configuration _ => configurationKind
  | .protocol _ => protocolKind
  | .validation _ => validationKind
  | .unresolvedDefinition _ => unresolvedDefinitionKind
  | .task kind _ _ => kind
  | .remoteTask kind _ _ => kind
  | .codec _ => codecKind
  | .workerPool _ => workerPoolKind

/-! ### Texts -/

/-- What is said about a store that holds no configuration. -/
def notConfigured (store : String) : String := store ++ " not configured"

/-- The message with which a failure travels. -/
def message : Failure → String
  | .configuration store => notConfigured store
  | .protocol m => m
  | .validation m => m
  | .unresolvedDefinition d => d
  | .task _ m _ => m
  | .remoteTask _ m _ => m
  | .codec e => e.message
  | .workerPool m => m

/-- The text of a failure for people. -/
def display : Failure → String
  | .configuration store => notConfigured store
  | .protocol m => "Protocol error: " ++ m
  | .validation m => "Validation error: " ++ m
  | .unresolvedDefinition d => "Unresolved task definition: " ++ d
  | .task _ m _ => m
  | .remoteTask kind m _ => kind ++ ": " ++ m
  | .codec e => "Serde JSON error: " ++ e.message
  | .workerPool m => "Worker pool error: " ++ m

/-- What a failure was caused by, outermost cause first. Only a codec error has a cause of its
own; a failed task brings the causes that were reported with it. -/
def trace : Failure → List String
  | .remoteTask _ _ trace => trace
  | .codec e => [e.message]
  | _ => []

/-! ### Rebuilding -/

/-- The failure of a kind that comes back as what it was. -/
def ofTaxonomy? (kind message : String) : Option Failure :=
  if kind = validationKind then some (.validation message)
  else if kind = unresolvedDefinitionKind then some (.unresolvedDefinition message)
  else if kind = protocolKind then some (.protocol message)
  else none

theorem ofTaxonomy?_kind {kind message : String} {f : Failure}
    (h : ofTaxonomy? kind message = some f) : f.kind = kind ∧ f.message = message := by
  grind [ofTaxonomy?, Failure.kind, Failure.message]

end Failure

end TaskRelay
