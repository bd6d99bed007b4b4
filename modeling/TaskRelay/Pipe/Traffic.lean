import TaskRelay.Pipe.Pooled

/-!
# What a pipe sends, and what it is told

`Wire.logged` writes down every message together with its answer. It adds to the state of the wire
and changes nothing else (`Pooled.forget_run`).

`Answers` says for every call how its submission and the question for its outcome are answered.
A wire may give such answers whatever its state is (`Wire.Gives`), or they may be the ones that were
given in some run (`Answers.Agree`).
-/

namespace TaskRelay

/-- Messages with their answers, first one first, under the places of the calls that they belong
to. -/
structure Traffic where
  submissions : Rows Nat (String × Attempt (Except Failure String))
  questions : Rows Nat (String × Except Failure String)

namespace Traffic

def empty : Traffic := ⟨[], []⟩

def submitted (place : Nat) (message : String) (response : Attempt (Except Failure String))
    (t : Traffic) : Traffic :=
  { t with submissions := t.submissions ++ [(place, message, response)] }

def asked (place : Nat) (message : String) (response : Except Failure String) (t : Traffic) :
    Traffic :=
  { t with questions := t.questions ++ [(place, message, response)] }

/-- The messages without their answers. -/
def texts {α : Type} (rows : Rows Nat (String × α)) : List (Nat × String) :=
  rows.map fun row => (row.1, row.2.1)

/-- The task that the submission of the call at a place has brought. -/
def accepted? (t : Traffic) (place : Nat) : Option TaskId :=
  match Rows.get? place t.submissions with
  | some (_, .ok response) => (Client.readResponse TaskId.parse response).toOption
  | _ => none

/-- The question for the outcome of that task. -/
def question? (t : Traffic) (place : Nat) : Option (Nat × String) :=
  (t.accepted? place).map fun id => (place, (Request.awaitTask id).encode)

end Traffic

variable {σ : Type}

/-- The wire that writes everything down. -/
def Wire.logged (wire : Wire σ) : Wire (σ × Traffic) where
  submit place message s :=
    let (response, world) := wire.submit place message s.1
    (response, world, s.2.submitted place message response)
  ask place message s :=
    let (response, world) := wire.ask place message s.1
    (response, world, s.2.asked place message response)

/-! ### Answers -/

/-- The undecoded output in the answer to a question. -/
def Pipe.readOutput (registry : Registry) (response : Except Failure String) :
    Except Failure Value :=
  (Client.readResponse Envelope.parse response).bind (Future.output registry .value)

/-- How the messages of each call are answered. -/
structure Answers where
  submission : Nat → Attempt (Except Failure String)
  question : Nat → Except Failure String

/-- The wire answers like that in every state. -/
structure Wire.Gives (wire : Wire σ) (answers : Answers) : Prop where
  submit : ∀ place message s, (wire.submit place message s).1 = answers.submission place
  ask : ∀ place message s, (wire.ask place message s).1 = answers.question place

namespace Answers

/-- The wire that gives these answers and has no state. -/
def wire (answers : Answers) : Wire Unit where
  submit place _ s := (answers.submission place, s)
  ask place _ s := (answers.question place, s)

theorem gives_wire (answers : Answers) : answers.wire.Gives answers :=
  ⟨fun _ _ _ => rfl, fun _ _ _ => rfl⟩

/-- All messages were answered like that. -/
structure Agree (answers : Answers) (t : Traffic) : Prop where
  submission : ∀ row ∈ t.submissions, row.2.2 = answers.submission row.1
  question : ∀ row ∈ t.questions, row.2.2 = answers.question row.1

/-- What a call comes to: the complaint about its arguments, or what went wrong with its
submission, or what is read from the answer to the question for its outcome. -/
def verdict (answers : Answers) (registry : Registry) (place : Nat) (c : Call) :
    Except Failure Value :=
  match c.arguments, answers.submission place with
  | .error f, _ => .error f
  | .ok _, .error _ => .error Pipe.dropped
  | .ok _, .ok response =>
    match Client.readResponse TaskId.parse response with
    | .error f => .error f
    | .ok _ => Pipe.readOutput registry (answers.question place)

end Answers

/-! ### Writing things down changes nothing -/

namespace Pipe

theorem waitFor_eq {wire : Wire σ} {registry : Registry} {place : Nat} {id : TaskId} {s : σ} :
    waitFor wire registry place id s =
      (readOutput registry (wire.ask place (Request.awaitTask id).encode s).1,
        (wire.ask place (Request.awaitTask id).encode s).2) := by
  unfold waitFor Future.wait Future.result Client.awaitTask Client.send readOutput
  dsimp only [Future.ofTask]
  cases Client.readResponse Envelope.parse
    (wire.ask place (Request.awaitTask id).encode s).1 <;> rfl

/-- The pipe without what was written down. -/
def Progress.forget (p : Progress (σ × Traffic)) : Progress σ :=
  ⟨p.slots, p.outputs, p.problem, p.world.1⟩

theorem forget_submitAt {wire : Wire σ} {place : Nat} {p : Progress (σ × Traffic)} :
    (submitAt wire.logged place p).forget = submitAt wire place p.forget := by
  unfold submitAt
  simp only [Progress.forget]
  split <;> rfl

theorem forget_joinNext {wire : Wire σ} {registry : Registry} {p : Progress (σ × Traffic)} :
    (joinNext wire.logged registry p).forget = joinNext wire registry p.forget := by
  unfold joinNext
  simp only [Progress.forget]
  split
  · next slot hproblem hslot =>
    unfold joinSlot?
    cases slot with
    | pending => rfl
    | lost => rfl
    | answered r =>
      cases r with
      | error f => rfl
      | ok id =>
        simp only [waitFor_eq]
        simp only [Wire.logged]
        cases readOutput registry
          (wire.ask p.outputs.size (Request.awaitTask id).encode p.world.1).1 <;> rfl
  · rfl

namespace Pooled

/-- The pooled pipe without what was written down. -/
def forget (p : Pooled (σ × Traffic)) : Pooled σ := ⟨p.pool, p.pipe.forget⟩

theorem forget_step {wire : Wire σ} {registry : Registry} {e : Event} {p : Pooled (σ × Traffic)} :
    (p.step wire.logged registry e).map forget = p.forget.step wire registry e := by
  cases e with
  | join =>
    simp only [step, forget, Option.map_some, forget_joinNext]
  | pool e =>
    simp only [step, forget, Option.map_map]
    refine congrArg (Option.map · (p.pool.step e)) (funext fun pool => ?_)
    cases p.pool.ended? e with
    | none => rfl
    | some place => exact congrArg (Pooled.mk pool) forget_submitAt

theorem forget_run {wire : Wire σ} {registry : Registry} {es : List Event}
    {p : Pooled (σ × Traffic)} :
    (p.run wire.logged registry es).map forget = p.forget.run wire registry es := by
  induction es generalizing p with
  | nil => rfl
  | cons e es ih =>
    show ((p.step wire.logged registry e).bind fun q => q.run wire.logged registry es).map forget =
      (p.forget.step wire registry e).bind fun q => q.run wire registry es
    rw [← forget_step, Option.map_bind, Option.bind_map]
    exact Option.bind_congr fun q _ => ih

end Pooled

end Pipe

end TaskRelay
