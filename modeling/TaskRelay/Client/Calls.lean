import TaskRelay.Client

/-!
# A future that is asked again and again

The outcome of a task may be asked for as often as one likes. `Future.calls` makes any calls in any
order and reports on each of them: what it returned, and which messages it sent.

A connection may answer each time as it likes. `Connection.answer` is its answer to a message that
it was given so many times before.
-/

namespace TaskRelay

variable {σ : Type}

namespace Connection

/-- What is behind the connection after the same message was sent that many times. -/
def after (connection : Connection σ) (message : String) (s : σ) : Nat → σ
  | 0 => s
  | n + 1 => (connection message (connection.after message s n)).2

/-- The answer to a message that was sent that many times before. -/
def answer (connection : Connection σ) (message : String) (s : σ) (n : Nat) :
    Except Failure String :=
  (connection message (connection.after message s n)).1

/-- The connection that writes down what it is given, first message first. -/
def recorded (connection : Connection σ) : Connection (σ × List String) := fun message s =>
  let (response, world) := connection message s.1
  (response, world, s.2 ++ [message])

end Connection

namespace Future

/-- What a future can be asked. -/
inductive Call where
  | result
  | wait
  | isResolved
deriving DecidableEq, Repr

/-- Whether a call needs the outcome. -/
def Call.needsOutcome : Call → Bool
  | .result => true
  | .wait => true
  | .isResolved => false

/-- What a call returns. -/
inductive Reply (α : Type) where
  | result (outcome : Except Failure Envelope)
  | wait (output : Except Failure α)
  | isResolved (b : Bool)

/-- What came of a call: what it returned, and the messages that it sent. -/
structure Report (α : Type) where
  reply : Reply α
  sent : List String

/-- Makes a call. -/
def call (connection : Connection σ) (registry : Registry) (shape : Shape) (f : Future) (s : σ) :
    Call → Reply shape.Carrier × Future × σ
  | .result =>
    let (outcome, f, s) := f.result connection s
    (.result outcome, f, s)
  | .wait =>
    let (output, f, s) := f.wait connection registry shape s
    (.wait output, f, s)
  | .isResolved => (.isResolved f.isResolved, f, s)

/-- Makes calls one after the other. -/
def calls (connection : Connection σ) (registry : Registry) (shape : Shape) :
    Future → σ → List Call → List (Report shape.Carrier)
  | _, _, [] => []
  | f, s, c :: rest =>
    let (reply, f, s, sent) := f.call connection.recorded registry shape (s, []) c
    ⟨reply, sent⟩ :: calls connection registry shape f s rest

end Future

end TaskRelay
