import TaskRelay.Client

/-!
# Pipes

A pipe collects calls, hands their submissions to a pool of workers, and then waits for the
outcomes in the order of the calls. Each call has a `Slot`, which its submission fills whenever
the pool gets to it. Joining looks at the slots one after the other, waits at one that is not
filled yet, and stops at the first problem.

Submissions and joining go on side by side, so a run of a pipe is a list of `Move`s in any order.
How submissions and questions fare is up to a `Wire`, which is told which call they belong to and
may break off at a submission. `Pipe.sequential` is the loop that a pipe stands for: submit a
call, wait for it, and only then go on to the next one.
-/

namespace TaskRelay

/-- A call that was added to a pipe: the definition of its task, and the texts of its arguments
or what was wrong with them. -/
structure Call where
  definition : String
  arguments : Except Failure (String × String)

namespace Call

/-- A call of a task. -/
def ofTask (t : TaskType) (args : t.args.Carrier) (kwargs : t.kwargs.Carrier) : Call :=
  ⟨t.definition, t.encodeArguments args kwargs⟩

end Call

/-- What is known about the submission of a call. -/
inductive Slot where
  /-- The pool has not run it yet. -/
  | pending (definition args kwargs : String)
  /-- It was run, or its arguments were refused. -/
  | answered (r : Except Failure TaskId)
  /-- It broke off. -/
  | lost

/-- What is behind the submissions and questions of a pipe. Both get the place of the call. -/
structure Wire (σ : Type) where
  submit : Nat → String → σ → Attempt (Except Failure String) × σ
  ask : Nat → Connection σ

namespace Wire

/-- A connection that never breaks off and does not care which call a message belongs to. -/
def ofConnection {σ : Type} (connection : Connection σ) : Wire σ where
  submit _ message s :=
    let (response, s) := connection message s
    (.ok response, s)
  ask _ := connection

end Wire

namespace Pipe

variable {σ : Type}

/-- The slot of a call when it is added. -/
def slotOf (c : Call) : Slot :=
  match c.arguments with
  | .error f => .answered (.error f)
  | .ok (args, kwargs) => .pending c.definition args kwargs

/-- The slot after its submission was answered. -/
def fill : Attempt (Except Failure String) → Slot
  | .error _ => .lost
  | .ok response => .answered (Client.readResponse TaskId.parse response)

/-! ### A run -/

/-- A pipe that is being joined. -/
structure Progress (σ : Type) where
  slots : Array Slot
  /-- Undecoded outputs of the slots that joining is through with. -/
  outputs : Array Value
  /-- The problem at which joining stopped. -/
  problem : Option Failure
  /-- What is behind the wire. -/
  world : σ

/-- What happens next. -/
inductive Move where
  /-- The pool runs the submission of the call at a place. -/
  | submit (place : Nat)
  /-- Joining looks at its next slot. -/
  | join
deriving DecidableEq, Repr

/-- All calls are added, and nothing has happened yet. -/
def start (calls : List Call) (s : σ) : Progress σ :=
  ⟨(calls.map slotOf).toArray, #[], none, s⟩

/-- Runs the submission at a place, if it is pending. -/
def submitAt (wire : Wire σ) (place : Nat) (p : Progress σ) : Progress σ :=
  match p.slots[place]? with
  | some (.pending definition args kwargs) =>
    let message := (Request.newTask (.ofTask definition args kwargs)).encode
    let (response, s) := wire.submit place message p.world
    { p with slots := p.slots.setIfInBounds place (fill response), world := s }
  | _ => p

/-- What is said about a submission that broke off. -/
def dropped : Failure := .workerPool "submission was dropped before completing"

/-- The undecoded output of a submitted task. -/
def waitFor (wire : Wire σ) (registry : Registry) (place : Nat) (id : TaskId) (s : σ) :
    Except Failure Value × σ :=
  let (r, _, s) := (Future.ofTask id).wait (wire.ask place) registry .value s
  (r, s)

/-- The undecoded output of a slot; nothing while the slot is pending. -/
def joinSlot? (wire : Wire σ) (registry : Registry) (place : Nat) (slot : Slot) (s : σ) :
    Option (Except Failure Value × σ) :=
  match slot with
  | .pending _ _ _ => none
  | .answered (.ok id) => some (waitFor wire registry place id s)
  | .answered (.error f) => some (.error f, s)
  | .lost => some (.error dropped, s)

/-- Looks at the next slot, unless joining is over. -/
def joinNext (wire : Wire σ) (registry : Registry) (p : Progress σ) : Progress σ :=
  match p.problem, p.slots[p.outputs.size]? with
  | none, some slot =>
    match joinSlot? wire registry p.outputs.size slot p.world with
    | none => p
    | some (.ok v, s) => { p with outputs := p.outputs.push v, world := s }
    | some (.error f, s) => { p with problem := some f, world := s }
  | _, _ => p

def step (wire : Wire σ) (registry : Registry) (p : Progress σ) : Move → Progress σ
  | .submit place => submitAt wire place p
  | .join => joinNext wire registry p

/-- Makes moves, one after the other. -/
def play (wire : Wire σ) (registry : Registry) (moves : List Move) (p : Progress σ) : Progress σ :=
  moves.foldl (step wire registry) p

/-- The undecoded outputs of all calls, or the problem; nothing while joining goes on. -/
def Progress.outcome? (p : Progress σ) : Option (Except Failure (List Value)) :=
  match p.problem with
  | some f => some (.error f)
  | none => if p.outputs.size = p.slots.size then some (.ok p.outputs.toList) else none

/-- First all submissions in the order of the calls, then all slots. -/
def inOrder (count : Nat) : List Move :=
  (List.range count).map .submit ++ List.replicate count .join

/-- Outputs as data of a shape, or the first of them that is none. -/
def decodeAll (shape : Shape) (values : List Value) : Except Failure (List shape.Carrier) :=
  (OfJson.items (shape.ofJson .value) (values.map Value.tree)).mapError
    fun cause => .codec (.decode ⟨cause, none⟩)

/-- The outputs of all calls as data of a shape. -/
def Progress.decoded? (p : Progress σ) (shape : Shape) :
    Option (Except Failure (List shape.Carrier)) :=
  p.outcome?.map fun r => r.bind (decodeAll shape)

/-! ### The loop that a pipe stands for -/

/-- Submits a call and waits for its undecoded output. -/
def callOne (wire : Wire σ) (registry : Registry) (place : Nat) (c : Call) (s : σ) :
    Except Failure Value × σ :=
  match c.arguments with
  | .error f => (.error f, s)
  | .ok (args, kwargs) =>
    let message := (Request.newTask (.ofTask c.definition args kwargs)).encode
    let (response, s) := wire.submit place message s
    match fill response with
    | .answered (.ok id) => waitFor wire registry place id s
    | .answered (.error f) => (.error f, s)
    | _ => (.error dropped, s)

/-- One call after the other, from a place on, up to the first problem. -/
def sequentialFrom (wire : Wire σ) (registry : Registry) :
    (place : Nat) → List Call → σ → Except Failure (List Value) × σ
  | _, [], s => (.ok [], s)
  | place, c :: calls, s =>
    match callOne wire registry place c s with
    | (.error f, s) => (.error f, s)
    | (.ok v, s) =>
      let (r, s) := sequentialFrom wire registry (place + 1) calls s
      (r.map (v :: ·), s)

/-- One call after the other. -/
def sequential (wire : Wire σ) (registry : Registry) (calls : List Call) (s : σ) :
    Except Failure (List Value) × σ :=
  sequentialFrom wire registry 0 calls s

end Pipe

end TaskRelay
