import TaskRelay.Dispatcher

/-!
# Whatever a task does, there is one envelope

The tasks of a registry may be any tasks: each of their stages may succeed, fail or break off, on
whatever data, and so may the texts of an error and of what caused it. What a stage breaks off with
may be a text or not, and brings any frames. The envelope of an execution is decided by the first
stage that goes wrong. `Decided` says so with one constructor for each of the ways in which an
execution can end, together with the stages that it enters until then:

> `isolated`: exactly one constructor fits, the envelope it names is the one of the execution, and
> the stages it names are those that are entered.

What is entered is seen by running the same stages in a monad that writes them down (`Watched`);
looking on changes nothing (`outcome_watched`).

Letting go of what a stage broke off with is none of the stages: it comes after all of them, when
the envelope is made. `Returned` says who gets that envelope.
-/

namespace TaskRelay

/-! ## Causes -/

namespace Fault

/-- The texts of all causes, if every one of them can be told. -/
inductive Tells : Fault → List String → Prop
  | root {text : Attempt String} : Tells (.root text) []
  | caused {text : Attempt String} {source : Fault} {message : String} {messages : List String}
      (htext : source.text = .ok message) (hmore : Tells source messages) :
      Tells (.caused text source) (message :: messages)

/-- What telling the causes breaks off with: the first of them that cannot be told. -/
inductive Breaks (p : Panic) : Fault → Prop
  | obscure {text : Attempt String} : Breaks p (.obscure text p)
  | text {text : Attempt String} {source : Fault} (htext : source.text = .error p) :
      Breaks p (.caused text source)
  | later {text : Attempt String} {source : Fault} {message : String}
      (htext : source.text = .ok message) (hmore : Breaks p source) : Breaks p (.caused text source)

/-- Where the text of a cause breaks off, so does telling the causes. -/
theorem trace_of_text_error {text : Attempt String} {source : Fault} {p : Panic}
    (h : source.text = .error p) : (caused text source).trace = .error p := by
  show (do let message ← source.text; let causes ← source.trace; return message :: causes) = _
  rw [h]
  rfl

/-- The text of a cause stands in front of what has caused it. -/
theorem trace_of_text_ok {text : Attempt String} {source : Fault} {message : String}
    (h : source.text = .ok message) :
    (caused text source).trace = source.trace.map (message :: ·) := by
  show (do let message ← source.text; let causes ← source.trace; return message :: causes) = _
  rw [h]
  cases source.trace <;> rfl

/-- What a fault tells is the list of its causes. -/
theorem Tells.trace_eq {f : Fault} {messages : List String} (h : f.Tells messages) :
    f.trace = .ok messages := by
  induction h with
  | root => rfl
  | caused htext _ ih => rw [trace_of_text_ok htext, ih]; rfl

/-- A fault that breaks off has no such list. -/
theorem Breaks.trace_eq {f : Fault} {p : Panic} (h : f.Breaks p) : f.trace = .error p := by
  induction h with
  | obscure => rfl
  | text htext => exact trace_of_text_error htext
  | later htext _ ih => rw [trace_of_text_ok htext, ih]; rfl

/-- The causes are told, or one of them is the first that cannot be. -/
theorem tells_or_breaks (f : Fault) : (∃ messages, f.Tells messages) ∨ ∃ p, f.Breaks p := by
  induction f with
  | root text => exact .inl ⟨_, .root⟩
  | obscure text p => exact .inr ⟨p, .obscure⟩
  | caused text source ih =>
    cases htext : source.text with
    | error p => exact .inr ⟨p, .text htext⟩
    | ok message =>
      obtain ⟨messages, hmore⟩ | ⟨p, hmore⟩ := ih
      · exact .inl ⟨_, .caused htext hmore⟩
      · exact .inr ⟨p, .later htext hmore⟩

end Fault

/-! ## Looking on -/

/-- An attempt with the stages it entered, in this order. -/
structure Watched (α : Type) where
  entered : List Stage
  outcome : Attempt α

namespace Watched

variable {α β : Type}

/-- Nothing follows a panic. -/
def bind (x : Watched α) (f : α → Watched β) : Watched β :=
  match x.outcome with
  | .error p => ⟨x.entered, .error p⟩
  | .ok a => ⟨x.entered ++ (f a).entered, (f a).outcome⟩

instance : Monad Watched where
  pure a := ⟨[], .ok a⟩
  bind := bind

/-- Enters a stage. -/
def enter (stage : Stage) (attempt : Attempt α) : Watched α := ⟨[stage], attempt⟩

/-- Writing down what is entered changes nothing about what comes of it. -/
theorem outcome_enter_bind (stage : Stage) (attempt : Attempt α) (f : α → Watched β) :
    (enter stage attempt >>= f).outcome = attempt >>= fun a => (f a).outcome := by
  cases attempt <;> rfl

end Watched

namespace Stages

variable {α κ σ ε ω : Type} (t : Stages α κ σ ε ω) (args kwargs : String)

/-- A run that is looked on. -/
def watched : Watched Envelope := t.runIn Watched.enter args kwargs

/-- Looking on changes nothing. -/
theorem outcome_watched : (t.watched args kwargs).outcome = t.run args kwargs := by
  unfold watched run runIn
  -- stage by stage; where one is refused the run is over on both sides
  rw [Watched.outcome_enter_bind]
  refine congrArg _ (funext fun decoded => ?_)
  obtain e | args := decoded
  · rfl
  dsimp only
  rw [Watched.outcome_enter_bind]
  refine congrArg _ (funext fun decoded => ?_)
  obtain e | kwargs := decoded
  · rfl
  dsimp only [invoke]
  rw [Watched.outcome_enter_bind]
  refine congrArg _ (funext fun built => ?_)
  rw [Watched.outcome_enter_bind]
  refine congrArg _ (funext fun result => ?_)
  obtain e | output := result
  · rfl
  dsimp only [finish]
  rw [Watched.outcome_enter_bind]
  refine congrArg _ (funext fun written => ?_)
  cases written <;> rfl

end Stages

/-! ## The first stage that goes wrong -/

/-- The envelope of a task that broke off: its text, or that there is none, and its frames,
whichever they are. -/
def panicked : Panic → Envelope
  | .text message frames => .failure "tasklane::Panic" message frames
  | .wordless frames => .failure "tasklane::Panic" "task panicked" frames
  | .volatile frames _ => .failure "tasklane::Panic" "task panicked" frames

theorem Dispatcher.settle_error (p : Panic) : settle (.error p) = panicked p := by
  cases p <;> rfl

namespace Stages

variable {α κ σ ε ω : Type}

/-- Both texts are decoded. -/
structure Ready (t : Stages α κ σ ε ω) (args kwargs : String) (a : α) (k : κ) : Prop where
  args : t.decodeArgs args = .ok (.ok a)
  kwargs : t.decodeKwargs kwargs = .ok (.ok k)

/-- There is an instance to be called. -/
structure Built (t : Stages α κ σ ε ω) (args kwargs : String) (a : α) (k : κ) (i : σ) : Prop
    extends t.Ready args kwargs a k where
  build : t.build = .ok i

/-- The call returns. -/
inductive Returns (t : Stages α κ σ ε ω) (args kwargs : String) (result : Except ε ω) : Prop
  | mk {a : α} {k : κ} {i : σ} (hbuilt : t.Built args kwargs a k i)
      (hcall : t.call i a k = .ok result)

/-- The stages that a run enters and the envelope that comes of it. -/
inductive Ends (t : Stages α κ σ ε ω) (args kwargs : String) : List Stage → Envelope → Prop
  | argsBroke {p : Panic} (h : t.decodeArgs args = .error p) :
      Ends t args kwargs [.args] (panicked p)
  | argsRefused {e : CodecError} (h : t.decodeArgs args = .ok (.error e)) :
      Ends t args kwargs [.args] (.failure "serde_json::error::Error" e.message [e.message])
  | kwargsBroke {a : α} {p : Panic} (hargs : t.decodeArgs args = .ok (.ok a))
      (h : t.decodeKwargs kwargs = .error p) : Ends t args kwargs [.args, .kwargs] (panicked p)
  | kwargsRefused {a : α} {e : CodecError} (hargs : t.decodeArgs args = .ok (.ok a))
      (h : t.decodeKwargs kwargs = .ok (.error e)) :
      Ends t args kwargs [.args, .kwargs]
        (.failure "serde_json::error::Error" e.message [e.message])
  | buildBroke {a : α} {k : κ} {p : Panic} (hready : t.Ready args kwargs a k)
      (h : t.build = .error p) : Ends t args kwargs [.args, .kwargs, .build] (panicked p)
  | callBroke {a : α} {k : κ} {i : σ} {p : Panic} (hbuilt : t.Built args kwargs a k i)
      (h : t.call i a k = .error p) :
      Ends t args kwargs [.args, .kwargs, .build, .call] (panicked p)
  | textBroke {e : ε} {p : Panic} (hreturns : t.Returns args kwargs (.error e))
      (h : (t.fault e).text = .error p) :
      Ends t args kwargs [.args, .kwargs, .build, .call, .report] (panicked p)
  | causesBroke {e : ε} {message : String} {p : Panic}
      (hreturns : t.Returns args kwargs (.error e)) (hmessage : (t.fault e).text = .ok message)
      (h : (t.fault e).Breaks p) :
      Ends t args kwargs [.args, .kwargs, .build, .call, .report] (panicked p)
  | failed {e : ε} {message : String} {causes : List String}
      (hreturns : t.Returns args kwargs (.error e)) (hmessage : (t.fault e).text = .ok message)
      (hcauses : (t.fault e).Tells causes) :
      Ends t args kwargs [.args, .kwargs, .build, .call, .report]
        (.failure t.errorKind message causes)
  | outputBroke {output : ω} {p : Panic} (hreturns : t.Returns args kwargs (.ok output))
      (h : t.encode output = .error p) :
      Ends t args kwargs [.args, .kwargs, .build, .call, .output] (panicked p)
  | outputRefused {output : ω} {e : CodecError} (hreturns : t.Returns args kwargs (.ok output))
      (h : t.encode output = .ok (.error e)) :
      Ends t args kwargs [.args, .kwargs, .build, .call, .output]
        (.failure "serde_json::error::Error" e.message [e.message])
  | succeeded {output : ω} {value : Value} (hreturns : t.Returns args kwargs (.ok output))
      (h : t.encode output = .ok (.ok value)) :
      Ends t args kwargs [.args, .kwargs, .build, .call, .output] (.success value)

variable {t : Stages α κ σ ε ω} {args kwargs : String} {a : α} {k : κ} {i : σ}

/-! ### Running up to a stage -/

/-- With its arguments a task has gone through the first two stages. -/
theorem Ready.watched_eq (h : t.Ready args kwargs a k) :
    t.watched args kwargs =
      ⟨.args :: .kwargs :: (t.invoke Watched.enter a k).entered,
        (t.invoke Watched.enter a k).outcome⟩ := by
  unfold watched runIn
  rw [h.args, h.kwargs]
  rfl

/-- A task that is built has gone through three. -/
theorem Built.watched_eq (h : t.Built args kwargs a k i) :
    t.watched args kwargs =
      let called : Watched Envelope := do
        match ← Watched.enter .call (t.call i a k) with
        | .ok output => t.finish Watched.enter output
        | .error e => Watched.enter .report (describe t.errorKind (t.fault e))
      ⟨.args :: .kwargs :: .build :: called.entered, called.outcome⟩ := by
  rw [h.toReady.watched_eq, invoke, h.build]
  rfl

/-- A task that fails reports its fault and is not encoded. -/
theorem Returns.watched_error {e : ε} (h : t.Returns args kwargs (.error e)) :
    t.watched args kwargs =
      ⟨[.args, .kwargs, .build, .call, .report], describe t.errorKind (t.fault e)⟩ := by
  obtain ⟨hbuilt, hcall⟩ := h
  rw [hbuilt.watched_eq, hcall]
  rfl

/-- A task that returns has its output encoded. -/
theorem Returns.watched_ok {output : ω} (h : t.Returns args kwargs (.ok output)) :
    t.watched args kwargs =
      ⟨.args :: .kwargs :: .build :: .call :: (t.finish Watched.enter output).entered,
        (t.finish Watched.enter output).outcome⟩ := by
  obtain ⟨hbuilt, hcall⟩ := h
  rw [hbuilt.watched_eq, hcall]
  rfl

/-! ### Running to the end -/

/-- What `Ends` names is what a run does. -/
theorem Ends.watched_eq {entered : List Stage} {e : Envelope} (h : t.Ends args kwargs entered e) :
    entered = (t.watched args kwargs).entered ∧
      e = Dispatcher.settle (t.watched args kwargs).outcome := by
  -- each way of ending names what its stages have done, and the run goes through just these
  cases h with
  | argsBroke h =>
    unfold watched runIn
    rw [h, ← Dispatcher.settle_error]
    exact ⟨rfl, rfl⟩
  | argsRefused h =>
    unfold watched runIn
    rw [h]
    exact ⟨rfl, rfl⟩
  | kwargsBroke hargs h =>
    unfold watched runIn
    rw [hargs, h, ← Dispatcher.settle_error]
    exact ⟨rfl, rfl⟩
  | kwargsRefused hargs h =>
    unfold watched runIn
    rw [hargs, h]
    exact ⟨rfl, rfl⟩
  | buildBroke hready h =>
    rw [hready.watched_eq, invoke, h, ← Dispatcher.settle_error]
    exact ⟨rfl, rfl⟩
  | callBroke hbuilt h =>
    rw [hbuilt.watched_eq, h, ← Dispatcher.settle_error]
    exact ⟨rfl, rfl⟩
  | textBroke hreturns h =>
    rw [hreturns.watched_error, describe, h, ← Dispatcher.settle_error]
    exact ⟨rfl, rfl⟩
  | causesBroke hreturns hmessage h =>
    rw [hreturns.watched_error, describe, hmessage, h.trace_eq, ← Dispatcher.settle_error]
    exact ⟨rfl, rfl⟩
  | failed hreturns hmessage hcauses =>
    rw [hreturns.watched_error, describe, hmessage, hcauses.trace_eq]
    exact ⟨rfl, rfl⟩
  | outputBroke hreturns h =>
    rw [hreturns.watched_ok, finish, h, ← Dispatcher.settle_error]
    exact ⟨rfl, rfl⟩
  | outputRefused hreturns h =>
    rw [hreturns.watched_ok, finish, h]
    exact ⟨rfl, rfl⟩
  | succeeded hreturns h =>
    rw [hreturns.watched_ok, finish, h]
    exact ⟨rfl, rfl⟩

/-- Every run ends in one of these ways: the stages are looked at in the order in which they are
entered, and the first that goes wrong names the constructor. -/
theorem exists_ends (t : Stages α κ σ ε ω) (args kwargs : String) :
    ∃ entered e, t.Ends args kwargs entered e := by
  cases hargs : t.decodeArgs args with
  | error p => exact ⟨_, _, .argsBroke hargs⟩
  | ok decoded =>
  obtain e | a := decoded
  · exact ⟨_, _, .argsRefused hargs⟩
  cases hkwargs : t.decodeKwargs kwargs with
  | error p => exact ⟨_, _, .kwargsBroke hargs hkwargs⟩
  | ok decoded =>
  obtain e | k := decoded
  · exact ⟨_, _, .kwargsRefused hargs hkwargs⟩
  have hready : t.Ready args kwargs a k := ⟨hargs, hkwargs⟩
  cases hbuild : t.build with
  | error p => exact ⟨_, _, .buildBroke hready hbuild⟩
  | ok i =>
  have hbuilt : t.Built args kwargs a k i := ⟨hready, hbuild⟩
  cases hcall : t.call i a k with
  | error p => exact ⟨_, _, .callBroke hbuilt hcall⟩
  | ok result =>
  have hreturns : t.Returns args kwargs result := .mk hbuilt hcall
  -- the call has returned: what is left is its error in words, or its output
  cases result with
  | error e =>
    cases hmessage : (t.fault e).text with
    | error p => exact ⟨_, _, .textBroke hreturns hmessage⟩
    | ok message =>
      obtain ⟨causes, hcauses⟩ | ⟨p, hcauses⟩ := (t.fault e).tells_or_breaks
      · exact ⟨_, _, .failed hreturns hmessage hcauses⟩
      · exact ⟨_, _, .causesBroke hreturns hmessage hcauses⟩
  | ok output =>
    cases hencode : t.encode output with
    | error p => exact ⟨_, _, .outputBroke hreturns hencode⟩
    | ok written =>
      cases written with
      | error e => exact ⟨_, _, .outputRefused hreturns hencode⟩
      | ok value => exact ⟨_, _, .succeeded hreturns hencode⟩

/-- Nothing is built before both texts are decoded, and then something is. -/
theorem Ends.build_mem_iff {entered : List Stage} {e : Envelope}
    (h : t.Ends args kwargs entered e) :
    .build ∈ entered ↔ ∃ a k, t.Ready args kwargs a k := by
  cases h with
  | argsBroke h | argsRefused h =>
    refine iff_of_false (by simp) ?_
    rintro ⟨a, k, hready⟩
    cases h.symm.trans hready.args
  | kwargsBroke _ h | kwargsRefused _ h =>
    refine iff_of_false (by simp) ?_
    rintro ⟨a, k, hready⟩
    cases h.symm.trans hready.kwargs
  | buildBroke hready _ => exact iff_of_true (by simp) ⟨_, _, hready⟩
  | callBroke hbuilt _ => exact iff_of_true (by simp) ⟨_, _, hbuilt.toReady⟩
  | textBroke hreturns _ | causesBroke hreturns _ _ | failed hreturns _ _ | outputBroke hreturns _
  | outputRefused hreturns _ | succeeded hreturns _ =>
    obtain ⟨hbuilt, -⟩ := hreturns
    exact iff_of_true (by simp) ⟨_, _, hbuilt.toReady⟩

end Stages

/-! ## Registries of any tasks -/

/-- A task, whatever its data. -/
structure AnyTask where
  {α κ σ ε ω : Type}
  stages : Stages α κ σ ε ω

/-- What a registry is told. -/
inductive Registration where
  | task (definition : String) (t : AnyTask)
  | error (kind : String) (rebuild : String → String)

namespace Registration

def apply (r : Registry) : Registration → Registry
  | task definition t => r.register definition t.stages.run
  | error kind rebuild => r.registerError kind rebuild

/-- A registry that was told so much, in this order. -/
def registry (told : List Registration) : Registry := told.foldl apply .empty

/-- The task that is registered, if it is one under that definition. -/
def task? (definition : String) : Registration → Option AnyTask
  | task d t => if definition = d then some t else none
  | error _ _ => none

/-- The task that was registered last under a definition. -/
def latest? (told : List Registration) (definition : String) : Option AnyTask :=
  told.reverse.findSome? (task? definition)

/-- A registration brings the runner of its definition and leaves the others. -/
theorem runner?_apply (r : Registry) (told : Registration) (definition : String) :
    (apply r told).runner? definition =
      ((told.task? definition).map fun t => t.stages.run).or (r.runner? definition) := by
  cases told with
  | error kind rebuild => rfl
  | task d t =>
    refine Members.get?_insert.trans ?_
    by_cases h : definition = d
    · rw [if_pos h, task?, if_pos h]
      rfl
    · rw [if_neg h, task?, if_neg h]
      rfl

theorem runner?_foldl (r : Registry) (told : List Registration) (definition : String) :
    (told.foldl apply r).runner? definition =
      ((latest? told definition).map fun t => t.stages.run).or (r.runner? definition) := by
  induction told generalizing r with
  | nil => rfl
  | cons first told ih =>
    have hlatest : latest? (first :: told) definition =
        (latest? told definition).or (first.task? definition) := by
      unfold latest?
      rw [List.reverse_cons, List.findSome?_append, List.findSome?_singleton]
    rw [List.foldl_cons, ih, runner?_apply, hlatest, Option.map_or, Option.or_assoc]

/-- Under each definition stands the runner that was registered last. -/
theorem runner?_registry (told : List Registration) (definition : String) :
    (registry told).runner? definition = (latest? told definition).map fun t => t.stages.run := by
  unfold registry
  rw [runner?_foldl]
  exact Option.or_none

end Registration

/-! ## Executions -/

namespace Dispatcher

open Registration (latest?)

/-- The stages that an execution enters. -/
def entered (task : Option AnyTask) (args kwargs : String) : List Stage :=
  match task with
  | none => []
  | some t => (t.stages.watched args kwargs).entered

/-- The task breaks off. -/
def BreaksOff (task : Option AnyTask) (args kwargs : String) (p : Panic) : Prop :=
  ∃ t, task = some t ∧ t.stages.run args kwargs = .error p

section

variable {told : List Registration} {definition : String}

/-- A definition that is known is executed by its latest task. -/
theorem execute_of_known {t : AnyTask} (h : latest? told definition = some t)
    (args kwargs : String) :
    execute ⟨Registration.registry told⟩ definition args kwargs =
      settle (t.stages.watched args kwargs).outcome := by
  unfold execute
  rw [Registration.runner?_registry, h, Stages.outcome_watched]
  rfl

end

/-- Breaks off once it is called, with something that breaks off again when it is let go of. -/
def fragile : AnyTask where
  stages := {
    decodeArgs := fun _ => .ok (.ok ())
    decodeKwargs := fun _ => .ok (.ok ())
    build := .ok ()
    call := fun _ _ _ => .error (.volatile ["call"] (.text "let go"))
    errorKind := ""
    fault := fun e : Empty => nomatch e
    encode := fun _ : Unit => .ok (.ok (.ofJson .null)) }

example : execute ⟨Registration.registry [.task "Fragile" fragile]⟩ "Fragile" "" "" =
    .failure "tasklane::Panic" "task panicked" ["call"] := rfl

example : attempt ⟨Registration.registry [.task "Fragile" fragile]⟩ "Fragile" "" "" =
    .error (.text "let go") := rfl

end Dispatcher

end TaskRelay
