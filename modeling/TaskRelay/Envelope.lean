import TaskRelay.Failure
import TaskRelay.Json.Printer
import TaskRelay.Shape.Tagged

/-!
# Envelopes

An `Envelope` is the final outcome of a task as it travels: a success with a value, or a failure
with its kind, its message and what caused it. It has two texts: `Envelope.encode`, with sorted
keys, is what is sent; `Envelope.declared` has the tag first. Both are read by `Envelope.parse`.
-/

namespace TaskRelay

/-- The outcome of a task. -/
inductive Envelope where
  | success (result : Value)
  | failure (kind message : String) (trace : List String)

namespace Envelope

def isSuccess : Envelope → Bool
  | .success _ => true
  | .failure _ _ _ => false

/-- The envelope of a failure. -/
def ofFailure (f : Failure) : Envelope := .failure f.kind f.message f.trace

/-! ### Writing -/

/-- The tree with the tag first. -/
def toJson : Envelope → Json
  | .success result => .object [("type", .string "success"), ("result", result.tree)]
  | .failure kind message trace =>
    .object [("type", .string "failure"), ("class", .string kind), ("message", .string message),
      ("backtrace", .array (trace.map .string))]

/-- The value of an envelope: the same members, sorted. -/
def toValue (e : Envelope) : Value := Value.ofJson e.toJson

/-- The text that is sent. -/
def encode (e : Envelope) : String := e.toValue.text

/-- The text with the tag first. -/
def declared (e : Envelope) : String := e.toJson.compact

/-! ### Reading -/

/-- The two kinds of envelope. -/
inductive Tag where
  | success
  | failure
deriving DecidableEq, Repr

/-- A failure may also call itself an error. -/
def tags : Tags Tag :=
  ⟨"internally tagged enum TaskResult",
    [("success", .success), ("error", .failure), ("failure", .failure)]⟩

def successFields : Fields := .cons (.required "result") .value .nil

def failureFields : Fields :=
  .cons (.required "class") .text <|
  .cons (.required "message") .text <|
  .cons (.blankable "backtrace") (.list .text) .nil

/-- The envelope of a tag and what was buffered with it. -/
def ofBuffered : Tag → Json → Except Cause Envelope
  | .success, j =>
    ((Shape.record "struct variant TaskResult::Success" false successFields).ofJson .buffered j).map
      fun (result, _) => .success result
  | .failure, j =>
    ((Shape.record "struct variant TaskResult::Failure" false failureFields).ofJson .buffered j).map
      fun (kind, message, trace, _) => .failure kind message trace

/-- The envelope of a text. -/
def parse (s : String) : Except DecodeError Envelope := readAll (Tagged.readThen tags ofBuffered) s

/-- The envelope of a message; anything else breaks the protocol. -/
def decode (message : String) : Except Failure Envelope :=
  (parse message).mapError fun e => .protocol e.message

end Envelope

end TaskRelay
