import TaskRelay.Sample.Tasks

/-!
# Sample error types

Kinds of errors that a client can rebuild: for each the kind under which it travels and the text
of the error that is rebuilt from a message.
-/

namespace TaskRelay.Sample

/-- A kind of error with the text of an error rebuilt from a message. -/
structure ErrorType where
  kind : String
  rebuild : String → String

/-- Rebuilds with a word in front of the message. -/
def announced (word message : String) : String := word ++ ": " ++ message

/-- The error type of a name. Two of them share a kind, one has a kind that always comes back as
what it was, and one has no name for its kind. -/
def errorType? (home : String) : String → Option ErrorType
  | "TaskFailed" => some ⟨failedKind home, id⟩
  | "Boom" => some ⟨"app::Boom", announced "boom"⟩
  | "BoomAgain" => some ⟨"app::Boom", announced "boom again"⟩
  | "Shadow" => some ⟨Failure.validationKind, announced "shadow"⟩
  | "PanicError" => some ⟨Failure.panicKind, announced "panic"⟩
  | "EmptyKind" => some ⟨"", announced "empty"⟩
  | _ => none

/-- Registers error types by name, in order. -/
def registerErrors (home : String) (names : List String) (r : Registry) : Registry :=
  (names.filterMap (errorType? home)).foldl (fun r e => r.registerError e.kind e.rebuild) r

end TaskRelay.Sample
