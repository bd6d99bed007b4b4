import TaskRelay.Failure
import TaskRelay.Json.Printer
import TaskRelay.Shape.Tagged

/-!
# Requests

What a client asks of an engine: to accept a task, to wait for one, or to list all of them. The
arguments of a task are carried as JSON text inside the JSON text of the request, so that the
request does not depend on what they look like.
-/

namespace TaskRelay

/-- The name an engine gives to an accepted task. -/
structure TaskId where
  text : String
deriving DecidableEq, Repr, Hashable, Inhabited

namespace TaskId

def toJson (id : TaskId) : Json := .string id.text

/-- The name in a text that holds nothing else. -/
def parse (s : String) : Except DecodeError TaskId := (Shape.text.parse s).map TaskId.mk

/-- The name as descriptions show it. -/
def debugText (id : TaskId) : String := "TaskId(" ++ Quoted.text id.text ++ ")"

/-- Names in increasing order, each once. -/
def sort (ids : List TaskId) : List TaskId :=
  (Members.sort (ids.map fun id => (id.text, ()))).map fun m => ⟨m.1⟩

end TaskId

/-- A task as it is submitted: its definition, its arguments as JSON text, and the queue that it
is meant for. -/
structure Submission where
  queue : String
  definition : String
  args : String
  kwargs : String
deriving DecidableEq, Repr

namespace Submission

/-- The queue of a submission that names none. -/
def defaultQueue : String := "default"

/-- A submission to the default queue. -/
def ofTask (definition args kwargs : String) : Submission :=
  ⟨defaultQueue, definition, args, kwargs⟩

end Submission

/-- What a client asks of an engine. -/
inductive Request where
  | newTask (task : Submission)
  | awaitTask (id : TaskId)
  | getStoreState
deriving DecidableEq, Repr

namespace Request

/-! ### Writing -/

def toJson : Request → Json
  | .newTask task =>
    .object [("type", .string "new_task"), ("queue", .string task.queue),
      ("definition", .string task.definition), ("args", .string task.args),
      ("kwargs", .string task.kwargs)]
  | .awaitTask id => .object [("type", .string "await_task"), ("task_id", id.toJson)]
  | .getStoreState => .object [("type", .string "get_store_state")]

/-- The text that is sent. -/
def encode (r : Request) : String := r.toJson.compact

/-! ### Reading -/

/-- The three kinds of request. -/
inductive Tag where
  | newTask
  | awaitTask
  | getStoreState
deriving DecidableEq, Repr

def tags : Tags Tag :=
  ⟨"internally tagged enum Request",
    [("new_task", .newTask), ("await_task", .awaitTask), ("get_store_state", .getStoreState)]⟩

def newTaskFields : Fields :=
  .cons (.required "queue") .text <|
  .cons (.required "definition") .text <|
  .cons (.required "args") .text <|
  .cons (.required "kwargs") .text .nil

def awaitTaskFields : Fields := .cons (.required "task_id") .text .nil

/-- The request of a tag and what was buffered with it. -/
def ofBuffered : Tag → Json → Except Cause Request
  | .newTask, j =>
    ((Shape.record "struct NewTask" false newTaskFields).ofJson .buffered j).map
      fun (queue, definition, args, kwargs, _) => .newTask ⟨queue, definition, args, kwargs⟩
  | .awaitTask, j =>
    ((Shape.record "struct variant Request::AwaitTask" false awaitTaskFields).ofJson
      .buffered j).map fun (id, _) => .awaitTask ⟨id⟩
  | .getStoreState, j => (Tagged.ofEmpty j).map fun _ => .getStoreState

/-- The request of a text. -/
def parse (s : String) : Except DecodeError Request := readAll (Tagged.readThen tags ofBuffered) s

/-- The request of a message; anything else breaks the protocol. -/
def decode (message : String) : Except Failure Request :=
  (parse message).mapError fun e => .protocol e.message

end Request

end TaskRelay
