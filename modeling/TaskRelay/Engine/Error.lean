import TaskRelay.Failure

/-!
# What can go wrong with an engine

An engine may fail to start, may have stopped, or may be given an option that it cannot use. To a
client each of these looks like a broken protocol (`Engine.Error.toFailure`); a failure of another
kind passes through unchanged.
-/

namespace TaskRelay.Engine

inductive Error where
  /-- No thread could be started. -/
  | startup (message : String)
  | stopped
  /-- An option has a value that it cannot have. -/
  | invalidOption (name value : String)
  | failure (f : Failure)
deriving DecidableEq, Repr

namespace Error

def message : Error → String
  | .startup m => "Failed to start engine: " ++ m
  | .stopped => "Engine stopped"
  | .invalidOption name value => "Invalid engine option " ++ name ++ ": " ++ value
  | .failure f => f.display

/-- What a client is told. -/
def toFailure : Error → Failure
  | .failure f => f
  | e => .protocol e.message

end Error

end TaskRelay.Engine
