import TaskRelay.CommandLine.Bench
import TaskRelay.Engine.Schedule
import TaskRelay.Pipe.System

/-!
# The benchmark

Sends a batch of tasks with large inputs through a pipe to an engine of its own, checks that every
task has measured its input, and counts the tasks that the engine lists afterwards.

All tasks have the same input, the payload. Once the engine is ready, and before anything is sent,
it has to be made, also when there are no tasks; and on its way every call makes texts of its own.
How much of that the machine has room for is not up to the program (`Memory`). With the first text
that there is no room for it ends.

`roundTrip` is the run in which every submission is answered before the next one is made. The pool
and the engine may act in any other order just as well: `outcome?` is what a run of the whole
`Pipe.System` comes to.
-/

namespace TaskRelay.Bench

/-- Returns the length of its input in bytes. -/
def measure : TaskType where
  definition := "tasklane_bench::Measure"
  args := .tuple (.cons .text .nil)
  kwargs := .noMembers
  output := .int .size
  errorKind := "core::convert::Infallible"
  build := .ok ()
  call := fun ((input : String), _) _ =>
    .ok (.ok ((Ranged.ofInt? .size input.utf8ByteSize).getD Ranged.zero))

/-- Knows the one task of the benchmark. -/
def registry : Registry := Registry.empty.registerTask measure

/-- The engine of the benchmark. -/
def setting : Engine.Setting Unit := .plain ⟨registry⟩ fun n => ⟨toString n⟩

/-! ### Memory -/

/-- Why a text cannot be made. -/
inductive Refusal where
  /-- No text has that many bytes. -/
  | tooLarge
  /-- There is no room for that many bytes. -/
  | outOfMemory (size : Nat)
deriving DecidableEq, Repr

namespace Refusal

def message : Refusal → String
  | .tooLarge => "capacity overflow"
  | .outOfMemory size => "memory allocation of " ++ toString size ++ " bytes failed"

/-- A text that is too large is a panic of the program, which then ends with a code. Without memory
the program cannot go on at all: the system ends it. -/
def exit : Refusal → Option Nat
  | .tooLarge => some 101
  | .outOfMemory _ => none

end Refusal

/-- A text has fewer bytes than this: distances between them are signed numbers of 64 bits. -/
def textLimit : Nat := 1 <<< 63

/-- The memory that a run finds. -/
structure Memory where
  /-- Whether there is room for a text of `size` bytes, and for all that it takes to make it (the
  buffers in which a text is written piece by piece are larger than the text), once texts of `made`
  bytes have been made. -/
  hasRoom (made size : Nat) : Bool

namespace Memory

/-- So many bytes, none of which is used twice. -/
def ofBytes (bytes : Nat) : Memory := ⟨fun made size => made + size ≤ bytes⟩

/-- What is wrong with making a text of `size` bytes, if anything. -/
def refusal? (memory : Memory) (made size : Nat) : Option Refusal :=
  if textLimit ≤ size then some .tooLarge
  else if memory.hasRoom made size then none
  else some (.outOfMemory size)

/-- The first thing that is wrong with making texts of these sizes, one after the other. -/
def firstRefusal? (memory : Memory) (made : Nat) : List Nat → Option Refusal
  | [] => none
  | size :: sizes =>
    match memory.refusal? made size with
    | some r => some r
    | none => memory.firstRefusal? (made + size) sizes

end Memory

namespace Settings

/-- The bytes of the payload. -/
def payloadBytes (s : Settings) : Nat := s.payloadSize.val.toNat

/-- The bytes of the arguments of a call as a text, where the payload stands in quotes and
brackets. -/
def argumentsBytes (s : Settings) : Nat := s.payloadBytes + 4

/-- The bytes of the message with which a call is submitted. -/
def messageBytes (s : Settings) : Nat := s.payloadBytes + 106

/-- What a call makes of the payload before it is handed to the pool: a copy, a value, and the text
of its arguments. -/
def callSizes (s : Settings) : List Nat := [s.payloadBytes, s.payloadBytes, s.argumentsBytes]

/-- What is made of that afterwards: the message, the arguments as they are read from it, a copy of
them for the loop of the engine, another one for the driver, and the input as it is read from
that. -/
def taskSizes (s : Settings) : List Nat :=
  [s.messageBytes, s.argumentsBytes, s.argumentsBytes, s.argumentsBytes, s.payloadBytes]

/-- The messages are too large. They are made by the jobs of the pool, so that only these break off,
and the submissions are lost. -/
def isLost (s : Settings) : Bool := s.tasks.val.toNat ≠ 0 && textLimit ≤ s.messageBytes

/-- The sizes of the texts that all calls make, one call after the other. -/
def sizes (s : Settings) : List Nat :=
  (List.replicate s.tasks.val.toNat
    (s.callSizes ++ if s.isLost then [] else s.taskSizes)).flatten

end Settings

/-- What ends a run before it is through, if anything: the payload is made first. -/
def Memory.shortage? (memory : Memory) (s : Settings) : Option Refusal :=
  match memory.refusal? 0 s.payloadBytes with
  | some r => some r
  | none => memory.firstRefusal? s.payloadBytes s.sizes

/-- A text of that many bytes. -/
def payload (size : Ranged .size) : String :=
  String.ofList (List.replicate size.val.toNat 'x')

/-! ### A run -/

/-- The calls of a run: all alike. A run of no calls makes no payload. -/
def calls (s : Settings) : List Call :=
  match s.tasks.val.toNat with
  | 0 => []
  | n + 1 => List.replicate (n + 1) (.ofTask measure (payload s.payloadSize, ()) ())

theorem calls_eq_replicate (s : Settings) : calls s =
    List.replicate s.tasks.val.toNat (.ofTask measure (payload s.payloadSize, ()) ()) := by
  rw [calls]
  split <;> simp [*]

/-- What came of a run. -/
structure Outcome where
  /-- What the tasks measured. -/
  lengths : List (Ranged .size)
  /-- What the engine listed afterwards. -/
  state : StoreState

/-- Sends the calls through a pipe and asks for the table of tasks. -/
def roundTrip (s : Settings) (l : Engine.Live Unit) : Except Failure Outcome := do
  let connection := setting.connection
  let calls := calls s
  let p := Pipe.play (.ofConnection connection) registry (Pipe.inOrder calls.length)
    (Pipe.start calls l)
  let lengths ← (p.decoded? measure.output).getD (.error Pipe.dropped)
  let state ← (Client.storeState connection p.world).1
  return ⟨lengths, state⟩

/-- What came of a run in which everything has acted by itself; nothing while it goes on. -/
def outcome? (p : Pipe.System) : Option (Except Failure Outcome) :=
  match p.pipe.decoded? measure.output with
  | none => none
  | some (.error f) => some (.error f)
  | some (.ok lengths) => p.table?.map fun r => r.map fun state => ⟨lengths, state⟩

/-- Whether every task has measured its input. -/
def Outcome.isRight (o : Outcome) (s : Settings) : Bool :=
  o.lengths = List.replicate s.tasks.val.toNat s.payloadSize

/-- What is said at the end of a run. -/
def Outcome.text (o : Outcome) (s : Settings) : String :=
  "Completed " ++ toString o.lengths.length ++ " tasks of " ++ toString s.payloadSize.val ++
    " bytes (" ++ toString o.state.tasks.length ++ " stored)"

/-! ### The program -/

/-- What the program shows, and how it ends. -/
structure Transcript where
  /-- The exit code; none if the system ends the program. -/
  exit : Option Nat
  /-- What is said when the engine is ready. -/
  ready : Option String
  /-- What is said at the end of a run. -/
  completed : Option String
  /-- What is shown instead of a run. -/
  output : String
  complaints : String
deriving DecidableEq, Repr

/-- What is said when nothing chooses what is to be logged. -/
def defaultLogging : String :=
  "No environment variables found that can initialize tracing_subscriber::EnvFilter. " ++
    "Using defaults."

/-- What is said about a run that fails. -/
def failed (message : String) : String := "Error: " ++ message

/-- A text of lines, each with its end. -/
def ofLines (lines : List String) : String := String.join (lines.map (· ++ "\n"))

/-- How the program ends when its run has come to that. -/
def ending (s : Settings) (ready : Option String) : Except Failure Outcome → Transcript
  | .error f => ⟨some 1, ready, none, "", ofLines [defaultLogging, failed f.display]⟩
  | .ok o =>
    ⟨some (if o.isRight s then 0 else 1), ready, some (o.text s), "", ofLines [defaultLogging]⟩

/-- How the program ends when there is no room for a text. -/
def brokenOff (ready : Option String) (r : Refusal) : Transcript :=
  ⟨r.exit, ready, none, "", ofLines [defaultLogging, r.message]⟩

/-- Runs the benchmark. -/
def run (s : Settings) (memory : Memory) : Transcript :=
  match Engine.Options.ofConfig (s.config .empty) with
  | .error e => ⟨some 1, none, none, "", ofLines [defaultLogging, failed e.message]⟩
  | .ok options =>
    let ready := options.readyText? registry.definitions.length
    match memory.shortage? s with
    | some r => brokenOff ready r
    | none =>
      ending s ready (if s.isLost then .error Pipe.dropped else roundTrip s ⟨.new options, ()⟩)

/-- Runs the benchmark as a command line says, in the memory of the machine. Where that is not
known, as in `main`, 32 GiB stand in for it. -/
def program (arguments : List String) (memory : Memory := .ofBytes (1 <<< 35)) : Transcript :=
  match Settings.parse arguments with
  | .ok s => run s memory
  | .error .help => ⟨some 0, none, none, ofLines help, ""⟩
  | .error (.complaint c) => ⟨some 2, none, none, "", c.message⟩

end TaskRelay.Bench
