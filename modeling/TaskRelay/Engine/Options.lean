import TaskRelay.Config
import TaskRelay.Description
import TaskRelay.Engine.Error

/-!
# Engine options

How many tasks an engine runs at the same time, and whether it says so when it is ready. Options
are read from the canonical form of a configuration; what is absent or null keeps its default, and
the number of threads is judged before the ready signal.
-/

namespace TaskRelay.Engine

structure Options where
  /-- How many tasks run at the same time. -/
  threadCount : Ranged .size
  /-- Whether the engine says so when it is ready. -/
  readySignal : Bool
deriving DecidableEq

namespace Options

/-- Two threads and no signal. -/
def default : Options := ⟨⟨2, by decide, by decide⟩, false⟩

instance : Inhabited Options := ⟨default⟩

/-- How many tasks run at the same time. -/
def threads (o : Options) : Nat := o.threadCount.val.toNat

/-- At least one thread. -/
def atLeastOne (n : Ranged .size) : Ranged .size :=
  if n.val = 0 then ⟨1, by decide, by decide⟩ else n

/-- Sets the number of threads; an engine cannot do with none. -/
def withThreadCount (n : Ranged .size) (o : Options) : Options :=
  { o with threadCount := atLeastOne n }

/-! ### Reading -/

/-- A number of threads other than none. -/
def threadCount? : Json → Option (Ranged .size)
  | .number (.whole n) => if 0 < n.val then Ranged.ofInt? .size n.val else none
  | _ => none

/-- The number of threads that a map names. -/
def readThreadCount (members : List (String × Json)) : Except Error (Ranged .size) :=
  match Members.get? "thread_count" members with
  | none => .ok default.threadCount
  | some .null => .ok default.threadCount
  | some j =>
    match threadCount? j with
    | some n => .ok n
    | none => .error (.invalidOption "thread_count" j.compact)

/-- The ready signal that a map names. -/
def readReadySignal (members : List (String × Json)) : Except Error Bool :=
  match Members.get? "ready_signal" members with
  | none => .ok default.readySignal
  | some .null => .ok default.readySignal
  | some (.bool b) => .ok b
  | some j => .error (.invalidOption "ready_signal" j.compact)

/-- The options of a map. -/
def ofCanonical (members : List (String × Json)) : Except Error Options := do
  let threadCount ← readThreadCount members
  let readySignal ← readReadySignal members
  return ⟨threadCount, readySignal⟩

/-- The options of a configuration. -/
def ofConfig (c : Config) : Except Error Options := ofCanonical c.canonical

/-! ### Texts -/

def debugText (o : Options) : String :=
  Description.labelled "EngineOptions" [("thread_count", toString o.threadCount.val),
    ("ready_signal", Description.bool o.readySignal)]

/-- The description of an engine with these options. -/
def engineDebugText (o : Options) : String :=
  Description.abridged "LocalEngine" [("options", o.debugText)]

/-- What an engine says when it is ready, if it is to say so. -/
def readyText? (o : Options) (definitions : Nat) : Option String :=
  if o.readySignal then
    some ("Engine ready with " ++ toString o.threadCount.val ++ " threads and " ++
      toString definitions ++ " task definitions")
  else none

end Options

end TaskRelay.Engine
