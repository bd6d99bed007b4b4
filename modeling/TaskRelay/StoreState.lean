import TaskRelay.Request

/-!
# The task table as it is shown

A `StoreState` lists the tasks that an engine has accepted, in that order, each with how far it
has got.
-/

namespace TaskRelay

/-- How far a task has got. -/
inductive Status where
  | enqueued
  | processing
  | completed
  | retrying
  | failed
deriving DecidableEq, Repr

namespace Status

def name : Status → String
  | .enqueued => "enqueued"
  | .processing => "processing"
  | .completed => "completed"
  | .retrying => "retrying"
  | .failed => "failed"

/-- Whether nothing more will happen to the task. -/
def isTerminal : Status → Bool
  | .completed => true
  | .failed => true
  | _ => false

/-- All of them, in the order in which they are counted. -/
def all : List Status := [.enqueued, .processing, .completed, .retrying, .failed]

def cases : Cases :=
  .bare "enqueued" <| .bare "processing" <| .bare "completed" <| .bare "retrying" <|
  .bare "failed" .nil

def ofCase : cases.Carrier → Status
  | .inl () => .enqueued
  | .inr (.inl ()) => .processing
  | .inr (.inr (.inl ())) => .completed
  | .inr (.inr (.inr (.inl ()))) => .retrying
  | .inr (.inr (.inr (.inr (.inl ())))) => .failed

end Status

/-- A task in the table. -/
structure StoredTask where
  id : TaskId
  status : Status
  definition : String
  args : String
  kwargs : String
deriving DecidableEq, Repr

namespace StoredTask

def toJson (t : StoredTask) : Json :=
  .object [("id", t.id.toJson), ("status", .string t.status.name),
    ("definition", .string t.definition), ("args", .string t.args), ("kwargs", .string t.kwargs)]

def fields : Fields :=
  .cons (.required "id") .text <|
  .cons (.required "status") (.choice Status.cases) <|
  .cons (.required "definition") .text <|
  .cons (.required "args") .text <|
  .cons (.required "kwargs") .text .nil

def shape : Shape := .record "struct StoredTask" false fields

def ofData : shape.Carrier → StoredTask
  | (id, status, definition, args, kwargs, _) =>
    ⟨⟨id⟩, Status.ofCase status, definition, args, kwargs⟩

end StoredTask

/-- The tasks of an engine, in the order in which they were accepted. -/
structure StoreState where
  tasks : List StoredTask
deriving DecidableEq, Repr

namespace StoreState

/-- How many tasks have got that far. -/
def count (s : StoreState) (status : Status) : Nat :=
  s.tasks.countP fun t => t.status = status

def toJson (s : StoreState) : Json := .object [("tasks", .array (s.tasks.map StoredTask.toJson))]

/-- The text that is sent. -/
def encode (s : StoreState) : String := s.toJson.compact

def shape : Shape :=
  .record "struct StoreState" false (.cons (.required "tasks") (.list StoredTask.shape) .nil)

/-- The table in a text. -/
def parse (t : String) : Except DecodeError StoreState :=
  (shape.parse t).map fun (tasks, _) => ⟨tasks.map StoredTask.ofData⟩

end StoreState

end TaskRelay
