import TaskRelay.Failure

/-!
# Code that breaks off

A task may break off instead of returning. What it breaks off with is a `Panic`; an `Attempt` is
the outcome of code that may do so, so that a sequence of attempts ends with the first panic.

A panic can be caught (`Attempt.caught`). What is left of it then is its message and the frames it
was raised from, and it is let go of. That may break off once more, and nobody is there any more to
catch it.
-/

namespace TaskRelay

/-- What code breaks off with. The frames are those it was raised from, as far as the machine
tells. -/
inductive Panic where
  | text (message : String) (frames : List String := [])
  /-- Something that is no text. -/
  | wordless (frames : List String := [])
  /-- Something that is no text, and letting go of it breaks off again. -/
  | volatile (frames : List String) (again : Panic)
deriving DecidableEq, Repr

namespace Panic

/-- The message of a panic that brings none. -/
def wordlessMessage : String := "task panicked"

def message : Panic → String
  | .text m _ => m
  | .wordless _ => wordlessMessage
  | .volatile _ _ => wordlessMessage

def frames : Panic → List String
  | .text _ frames => frames
  | .wordless frames => frames
  | .volatile frames _ => frames

/-- What letting go of a panic breaks off with, if it does. -/
def again? : Panic → Option Panic
  | .text _ _ => none
  | .wordless _ => none
  | .volatile _ again => some again

end Panic

/-- The outcome of code that may break off. -/
abbrev Attempt (α : Type) := Except Panic α

/-- What is left of a panic that has been caught. -/
structure Caught where
  message : String
  frames : List String
deriving DecidableEq, Repr

/-- The outcome of code whose panics are caught. A panic is let go of once it has been looked at. -/
def Attempt.caught {α : Type} : Attempt α → Attempt (Except Caught α)
  | .ok a => .ok (.ok a)
  | .error p =>
    match p.again? with
    | none => .ok (.error ⟨p.message, p.frames⟩)
    | some again => .error again

end TaskRelay
