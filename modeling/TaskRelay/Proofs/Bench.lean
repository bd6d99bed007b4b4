import TaskRelay.Proofs.Bench.Memory
import TaskRelay.Proofs.CommandLine
import TaskRelay.Proofs.Dispatcher
import TaskRelay.Proofs.Engine.Options
import TaskRelay.Proofs.Engine.Snapshots
import TaskRelay.Proofs.Pipe.Completion
import TaskRelay.Proofs.Pipe.Played
import TaskRelay.Proofs.Shape.Read

/-!
# The benchmark succeeds

All calls of the benchmark are alike: the arguments of a call come back from their texts, and the
task measures them (`succeeds`). So the benchmark is a pipe of calls that succeed, and whatever is
known about those holds of it: outputs and table are the right ones in every run of the system
(`right_of_run`). The run that the program itself makes is one of them (`exists_run_roundTrip`).

> `succeeds_of_accepted`: with any number of threads that its option accepts and for which there are
> permits, the benchmark works; and the program succeeds if the memory serves all texts of its run.
-/

namespace TaskRelay

namespace Bench

open Pipe

/-! ## The options of the engine -/

/-- The options of the engine that the benchmark starts. -/
def Settings.options (s : Settings) : Engine.Options :=
  ⟨s.threads.getD Engine.Options.default.threadCount, true⟩

/-- The payload comes back from the text of the arguments. -/
theorem parse_args (input : String) : measure.args.parse (texts input).1 = .ok (input, ()) := by
  have hread : Reads (measure.args.read Json.depthLimit) (texts input).1.toList (input, ()) [] := by
    unfold texts
    rw [Json.toList_compact]
    exact Shape.reads_single (j := .string input) trivial
      (fun _ hrest => Shape.reads_text input hrest _) []
  exact hread.readAll

theorem parse_kwargs (input : String) : measure.kwargs.parse (texts input).2 = .ok () := by
  have hread : Reads (measure.kwargs.read Json.depthLimit) (texts input).2.toList () [] := by
    unfold texts
    rw [Json.toList_compact]
    exact Shape.reads_noMembers _ []
  exact hread.readAll

/-- The task measures its input. -/
theorem returns_measure (size : Ranged .size) :
    measure.stages.Returns (texts (payload size)).1 (texts (payload size)).2 (.ok size) := by
  refine .mk (a := (payload size, ())) (k := ()) (i := ()) ⟨⟨?_, ?_⟩, rfl⟩ ?_
  · exact congrArg (fun r => Except.ok (Except.mapError CodecError.decode r))
      (parse_args (payload size))
  · exact congrArg (fun r => Except.ok (Except.mapError CodecError.decode r))
      (parse_kwargs (payload size))
  · have hmeasured : ((payload size).utf8ByteSize : Int) = size.val := by
      rw [utf8ByteSize_payload]
      exact Int.toNat_of_nonneg size.ge_least
    show Except.ok (Except.ok ((Ranged.ofInt? .size (payload size).utf8ByteSize).getD _)) = _
    rw [hmeasured, Ranged.ofInt?_val]
    rfl

/-- Its size, as a value. -/
def measured (size : Ranged .size) : Value := Value.ofJson size.toJson

theorem tree_measured (size : Ranged .size) : (measured size).tree = size.toJson := by
  simp only [measured, Value.ofJson, Ranged.toJson, Json.canonical]

/-- The one task of the benchmark succeeds with the size of its payload. -/
theorem execute_measure (size : Ranged .size) :
    Dispatcher.execute ⟨registry⟩ measure.definition (texts (payload size)).1
      (texts (payload size)).2 = .success (measured size) := by
  have hends := Stages.Ends.succeeded (returns_measure size)
    (rfl : _ = Except.ok (Except.ok (measured size)))
  have hrunner : registry.runner? measure.definition = some measure.stages.run := rfl
  unfold Dispatcher.execute
  rw [hrunner, hends.watched_eq.2, Stages.outcome_watched]

/-! ## The calls -/

/-- A call of the benchmark succeeds with the size of its payload. -/
theorem succeeds (size : Ranged .size) :
    Succeeds ⟨registry⟩ (.ofTask measure (payload size, ()) ()) (measured size) where
  execute := ⟨_, rfl, execute_measure size⟩
  doubleFree := by
    show (measured size).tree.DoubleFree
    rw [tree_measured]
    trivial
  depth := by
    show (measured size).tree.depth < Json.depthLimit
    rw [tree_measured]
    exact Nat.zero_lt_succ _

/-- So do all calls. -/
theorem succeeds_calls (s : Settings) :
    List.Forall₂ (Succeeds ⟨registry⟩) (calls s)
      (List.replicate s.tasks.val.toNat (measured s.payloadSize)) := by
  rw [calls_eq_replicate]
  generalize s.tasks.val.toNat = count
  induction count with
  | zero => exact .nil
  | succ count ih => exact .cons (succeeds s.payloadSize) ih

theorem length_calls (s : Settings) : (calls s).length = s.tasks.val.toNat := by
  rw [calls_eq_replicate, List.length_replicate]

/-- The outputs are the sizes of the payloads. -/
theorem decodeAll_measured (count : Nat) (size : Ranged .size) :
    decodeAll measure.output (List.replicate count (measured size)) =
      .ok (List.replicate count size) := by
  have hone : measure.output.ofJson .value (measured size).tree = .ok size := by
    rw [tree_measured]
    exact Shape.ofJson_int size.ofInt?_val
  have hall : OfJson.items (measure.output.ofJson .value)
      ((List.replicate count (measured size)).map Value.tree) =
      .ok (List.replicate count size) := by
    induction count with
    | zero => rfl
    | succ count ih =>
      rw [List.replicate_succ, List.map_cons, OfJson.items, hone]
      exact congrArg (Except.map _) ih
  exact congrArg (Except.mapError _) hall

/-! ## What a run comes to -/

/-- All payloads are measured, and there is a completed task for each of them. -/
structure Outcome.Right (s : Settings) (o : Outcome) : Prop where
  lengths : o.lengths = List.replicate s.tasks.val.toNat s.payloadSize
  stored : o.state.tasks.length = s.tasks.val.toNat
  completed : ∀ task ∈ o.state.tasks, task.status = .completed

/-- How the program ends when all is right. -/
def success (s : Settings) : Transcript :=
  let tasks := toString s.tasks.val.toNat
  ⟨some 0, s.options.readyText? registry.definitions.length,
    some ("Completed " ++ tasks ++ " tasks of " ++ toString s.payloadSize.val ++ " bytes (" ++
      tasks ++ " stored)"), "", ofLines [defaultLogging]⟩

section

variable {s : Settings} {limits : Pool.Limits} {opened : Pool.State} {events : List System.Event}
  {p : System} {memory : Memory}

/-- An engine that is asked for threads gets one at least. -/
theorem Settings.Accepted.one_le_threads (h : s.Accepted) : 0 < s.options.threads := by
  unfold Engine.Options.threads Settings.options
  cases hthreads : s.threads with
  | none => decide
  | some n =>
    have hpos := h.threads_pos hthreads
    show 0 < n.val.toNat
    omega

/-- What joining comes to, and what the table is. -/
theorem right_of_run (haccepted : s.Accepted)
    (hpermits : s.options.threads ≤ Engine.State.maxPermits) (hopen : Pool.Opening limits 0 opened)
    (h : (System.new opened s.options (calls s)).run ⟨registry⟩ registry events = some p) :
    (∀ {r}, p.pipe.decoded? measure.output = some r →
      r = .ok (List.replicate s.tasks.val.toNat s.payloadSize)) ∧
    (∀ {r}, p.table? = some r → ∃ table : StoreState, r = .ok table ∧
      table.tasks.length = s.tasks.val.toNat ∧ ∀ task ∈ table.tasks, task.status = .completed) ∧
    (∀ {r}, outcome? p = some r → ∃ o : Outcome, r = .ok o ∧ o.Right s) ∧
    (p.AtRest ⟨registry⟩ registry → (outcome? p).isSome = true) := by
  obtain ⟨-, houtcome, htable, hrest, -⟩ :=
    System.completed_of_run hopen h haccepted.one_le_threads hpermits (succeeds_calls s)
  rw [length_calls] at htable
  -- joining has all outputs, and each of them decodes to the size of its payload
  have hdecoded : ∀ {r}, p.pipe.decoded? measure.output = some r →
      r = .ok (List.replicate s.tasks.val.toNat s.payloadSize) := by
    intro r hr
    obtain ⟨outputs, houtputs, rfl⟩ := Option.map_eq_some_iff.mp hr
    rw [houtcome houtputs]
    exact decodeAll_measured _ _
  refine ⟨hdecoded, htable, fun {r} hr => ?_, fun hatRest => ?_⟩
  · unfold outcome? at hr
    split at hr
    · cases hr
    · next f hf => cases hdecoded hf
    · next lengths hlengths =>
      obtain ⟨state, hstate, rfl⟩ := Option.map_eq_some_iff.mp hr
      obtain ⟨table, rfl, hlength, hcompleted⟩ := htable hstate
      exact ⟨⟨lengths, table⟩, rfl, Except.ok.inj (hdecoded hlengths), hlength, hcompleted⟩
  -- at rest joining is over, and the table that was asked for after that is there
  · obtain ⟨hjoined, hlisted⟩ := hrest hatRest
    obtain ⟨r, hr⟩ := Option.isSome_iff_exists.mp hjoined
    obtain ⟨state, hstate⟩ := Option.isSome_iff_exists.mp hlisted
    have hlengths : p.pipe.decoded? measure.output = some (r.bind (decodeAll measure.output)) := by
      unfold Progress.decoded?
      rw [hr]
      rfl
    unfold outcome?
    rw [hlengths, hdecoded hlengths, hstate]
    rfl

end

end Bench

end TaskRelay
