import TaskRelay.Engine.Schedule
import TaskRelay.Sample.Tasks

/-!
# Gates

Some sample tasks wait for a gate before they end, and some open one. `holdOf` finds out which
gates a task has to do with, also when it is run by another task; `setting` is an engine among
gates that are opened one after the other.
-/

namespace TaskRelay.Sample

/-- The gates that a task has to do with. -/
structure Hold where
  /-- The gate that the task waits for. -/
  waitsFor : Option String
  /-- The gate that the task opens. -/
  opens : Option String
deriving DecidableEq, Repr

namespace Hold

/-- Has nothing to do with gates. -/
def none : Hold := ⟨.none, .none⟩

end Hold

/-- The arguments of a call of a task, if they can be read. -/
def readArguments? (t : TaskType) (args kwargs : String) : Option t.args.Carrier :=
  match t.args.parse args, t.kwargs.parse kwargs with
  | .ok args, .ok _ => some args
  | _, _ => .none

/-- The gates of a call of a task that waits itself. -/
def ownHold (definition args kwargs : String) : Hold :=
  if definition = gate.definition then
    match readArguments? gate args kwargs with
    | some (name, _) => ⟨some name, none⟩
    | none => .none
  else if definition = link.definition then
    match readArguments? link args kwargs with
    | some (first, second, _) => ⟨first, some second⟩
    | none => .none
  else .none

/-- The gates of a call of a task, where tasks may run one another `depth` times over. -/
def holdOf : (depth : Nat) → (definition args kwargs : String) → Hold
  | 0, definition, args, kwargs => ownHold definition args kwargs
  | depth + 1, definition, args, kwargs =>
    let t := redispatch fun () => .empty
    if definition = t.definition then
      match readArguments? t args kwargs with
      | some (definition, args, kwargs, _) => holdOf depth definition args kwargs
      | none => .none
    else ownHold definition args kwargs

/-- The gates that are open. -/
abbrev Gates := List String

namespace Gates

/-- Whether a task can end: the gate that it waits for is open. -/
def letEnd (opened : Gates) (h : Hold) : Bool :=
  match h.waitsFor with
  | some gate => gate ∈ opened
  | none => true

/-- The gates that are open once a task has ended. -/
def after (opened : Gates) (h : Hold) : Gates :=
  match h.opens with
  | some gate => gate :: opened
  | none => opened

end Gates

/-- The id of a task, by how many were accepted before. It has the form of a random id, with 32
digits in five groups; the last group counts. -/
def nameOf (n : Nat) : TaskId :=
  let digits := toString n
  ⟨"9b1d6c3e-52f7-4a08-8e64-" ++ String.ofList (List.replicate (12 - digits.length) '0') ++ digits⟩

/-- An engine for the sample tasks among gates. -/
def setting (home : String) (depth : Nat) : Engine.Setting Gates where
  dispatcher := ⟨registry home depth⟩
  name := nameOf
  mayEnd opened task := opened.letEnd (holdOf depth task.definition task.args task.kwargs)
  ended opened task := opened.after (holdOf depth task.definition task.args task.kwargs)

end TaskRelay.Sample
