import TaskRelay.Proofs.Engine.Quiescence
import TaskRelay.Proofs.Engine.Remote
import TaskRelay.Proofs.Registry

/-!
# A failure keeps its kind and message

A task that fails at the engine fails with the same kind and the same message at the client. In
between its failure is an outcome in the table, a text, an envelope again, and at last whatever the
registry of the client takes that envelope for (`Registry.Rebuilt`). A failure holds nothing but
texts, so none of this depends on how deep a reader goes.

Who waits gets to an end if the engine does: a request that is still open when nothing can go on
would have to be parked at a task that has not ended (`State.Quiescent.answered_of_run`).

> `wait_of_failure`: the task may be lost with its worker, and the engine may be stopped before the
> answer. Otherwise who waits gets the failure that executing the task gave.
-/

namespace TaskRelay

/-- Waiting for a task that nothing is known of yet is asking for its outcome once. -/
theorem Future.wait_ofTask {σ : Type} {connection : Connection σ} {id : TaskId} {s t : σ}
    {outcome : Except Failure Envelope} (registry : Registry) (shape : Shape)
    (h : Client.awaitTask connection id s = (outcome, t)) :
    (Future.ofTask id).wait connection registry shape s =
      (outcome.bind (Future.output registry shape), ⟨id, outcome.toOption⟩, t) := by
  simp only [Future.wait, Future.result, Future.ofTask, h]
  cases outcome <;> rfl

/-- A failure comes back from its text. -/
theorem Envelope.parse_encode_failure (kind message : String) (trace : List String) :
    parse (failure kind message trace).encode = .ok (.failure kind message trace) := by
  have hdepth : 0 < Json.depthLimit := by decide
  exact parse_encode trivial hdepth

namespace Engine

section

variable {d : Dispatcher} {o : Options} {s t : State} {es : List Event} {id : TaskId}

/-- A request has an answer once nothing can go on. -/
theorem State.Quiescent.answered_of_run {ticket : Ticket} (hq : t.Quiescent)
    (h : (State.new o).run d es = some t) (hthreads : 0 < o.threads)
    (hlt : ticket < t.asked.size) : t.answer? ticket ≠ none := by
  intro hopen
  have hreach := Reachable.of_run h
  -- a loop that has ended leaves no request open
  have hrun := (hreach.count_pending hlt hopen).1
  have hparked := hreach.wellFormed.parked_eq_nil fun hrec => (hq.ended h hrun hthreads hrec).2
  exact hq.answered hreach hparked hlt hopen

/-- What the engine sends to who awaits a task that a client has submitted. -/
theorem response_of_newTask {before submitting awaiting : List Event} {parts : List (List Event)}
    {definition args kwargs : String} {l : Scheduled} {response : Response}
    (hbefore : (State.new o).run d before = some s)
    (hnew : Client.newTask (Scheduled.connection d) definition args kwargs
      (some ⟨s, submitting :: parts⟩) = (.ok id, some l))
    (hrun : l.state.run d (.request (.awaitTask id) :: awaiting) = some t)
    (hans : t.answer? l.state.asked.size = some response) :
    (t.running = false ∧ response = State.stopped) ∨
      ∃ result : Envelope, response = .ok result.encode ∧
        Explained d (before ++ submitting ++ awaiting) id (definition, args, kwargs) result := by
  obtain ⟨-, hmiddle, r₁, hrec₁, htask⟩ := Scheduled.submitted_of_newTask hbefore hnew
  rcases outcome_of_awaitTask hmiddle hrec₁ hrun hans with
    hstopped | ⟨r₂, result, hrec₂, hresult, hresponse⟩
  · exact .inl hstopped
  · have hend := run_trans hmiddle hrun
    obtain ⟨r', hrec', hsame⟩ := run_record hrun hrec₁
    rw [hrec₂] at hrec'
    cases hrec'
    have hwhy := explained_of_run hend hrec₂ hresult
    rw [hsame, htask] at hwhy
    refine .inr ⟨result, hresponse, ?_⟩
    -- the two requests lose nothing
    rcases hwhy with hexecuted | ⟨text, hmem, hlost⟩
    · exact .inl hexecuted
    · exact .inr ⟨text, by simpa using hmem, hlost⟩

/-- Who waits for a failed outcome gets a failure that is made from it. -/
theorem wait_of_failed {awaiting : List Event} {parts : List (List Event)}
    {kind message : String} {trace : List String} {l : Scheduled} (registry : Registry)
    (shape : Shape) (hparts : l.parts = awaiting :: parts)
    (hrun : l.state.run d (.request (.awaitTask id) :: awaiting) = some t)
    (hans : t.answer? l.state.asked.size =
      some (.ok (Envelope.failure kind message trace).encode)) :
    ∃ f future, (Future.ofTask id).wait (Scheduled.connection d) registry shape (some l) =
      (.error f, future, some ⟨t, parts⟩) ∧ registry.Rebuilt kind message trace f := by
  have hread : Client.readResponse Envelope.parse
      (.ok (Envelope.failure kind message trace).encode) = .ok (.failure kind message trace) := by
    rw [Client.readResponse, Envelope.parse_encode_failure]
    rfl
  have hawait : Client.awaitTask (Scheduled.connection d) id (some l) =
      (.ok (.failure kind message trace), some ⟨t, parts⟩) := by
    unfold Client.awaitTask
    rw [Scheduled.send_eq hparts hrun hans, hread]
  exact ⟨_, _, Future.wait_ofTask registry shape hawait, registry.rebuilt_reconstruct ..⟩

end

/-- A client submits a task that fails when it is executed, and waits for its output, while anything
may happen at the engine before, in between and meanwhile, until the request is answered or nothing
can go on. What it gets is a failure: with the kind and the message of the execution, and what its
registry makes of them. Only if a worker was lost that had the task, it gets the failure that stands
for that, and only if the engine has stopped, it is told so. -/
theorem wait_of_failure {d : Dispatcher} {o : Options} {s t : State} {id : TaskId}
    {before submitting awaiting : List Event} {parts : List (List Event)}
    {definition args kwargs kind message : String} {trace : List String} {l : Scheduled}
    (registry : Registry) (shape : Shape) (hthreads : 0 < o.threads)
    (hbefore : (State.new o).run d before = some s)
    (hnew : Client.newTask (Scheduled.connection d) definition args kwargs
      (some ⟨s, submitting :: awaiting :: parts⟩) = (.ok id, some l))
    (hfail : d.execute definition args kwargs = .failure kind message trace)
    (hrun : l.state.run d (.request (.awaitTask id) :: awaiting) = some t)
    (hend : t.answer? l.state.asked.size ≠ none ∨ t.Quiescent) :
    ∃ f future, (Future.ofTask id).wait (Scheduled.connection d) registry shape (some l) =
      (.error f, future, some ⟨t, parts⟩) ∧
      (f.kind = kind ∧ f.message = message ∧ registry.Rebuilt kind message trace f ∨
        (∃ text, .lose id text ∈ before ++ submitting ++ awaiting ∧
          registry.Rebuilt Failure.panicKind text [] f) ∨
        t.running = false ∧ f = Error.stopped.toFailure) := by
  obtain ⟨hparts, hmiddle, -⟩ := Scheduled.submitted_of_newTask hbefore hnew
  -- where nothing can go on every request is answered
  have hanswered : t.answer? l.state.asked.size ≠ none := by
    rcases hend with hanswered | hq
    · exact hanswered
    · obtain ⟨hlt, -⟩ := Array.getElem?_eq_some_iff.mp (run_asked hrun)
      exact hq.answered_of_run (run_trans hmiddle hrun) hthreads hlt
  obtain ⟨response, hans⟩ := Option.ne_none_iff_exists'.mp hanswered
  rcases response_of_newTask hbefore hnew hrun hans with
    ⟨hstopped, rfl⟩ | ⟨result, rfl, hexecuted | ⟨text, hmem, hlost⟩⟩
  · have hawait : Client.awaitTask (Scheduled.connection d) id (some l) =
        (.error Error.stopped.toFailure, some ⟨t, parts⟩) := Scheduled.send_eq hparts hrun hans
    exact ⟨_, _, Future.wait_ofTask registry shape hawait, .inr (.inr ⟨hstopped, rfl⟩)⟩
  · have hresult : result = .failure kind message trace := hexecuted.trans hfail
    rw [hresult] at hans
    obtain ⟨f, future, hwait, hrebuilt⟩ := wait_of_failed registry shape hparts hrun hans
    exact ⟨f, future, hwait, .inl ⟨hrebuilt.kind_eq, hrebuilt.message_eq, hrebuilt⟩⟩
  · rw [hlost] at hans
    obtain ⟨f, future, hwait, hrebuilt⟩ := wait_of_failed registry shape hparts hrun hans
    exact ⟨f, future, hwait, .inr (.inl ⟨text, hmem, hrebuilt⟩)⟩

/-- A dispatcher for a task that always fails. -/
def boom : Dispatcher :=
  ⟨Registry.empty.register "Boom" fun _ _ => .ok (.failure "app::Boom" "\"it\" broke" ["cause"])⟩

/-- A registry that knows that kind of failure, and another under a kind that comes back anyway. -/
def knowing : Registry :=
  (Registry.empty.registerError "app::Boom" ("boom: " ++ ·)).registerError
    Failure.validationKind ("shadow: " ++ ·)

/-- The failure arrives with its kind and message, and is rebuilt where its kind is known. -/
theorem wait_of_failure_boom : ∃ l l' future,
    Client.newTask (Scheduled.connection boom) "Boom" "[]" "\x7b\x7d"
      (some ⟨State.new .default, awaitOnce⟩) = (.ok ⟨"a"⟩, some l) ∧
    (Future.ofTask ⟨"a"⟩).wait (Scheduled.connection boom) knowing .text (some l) =
      (.error (.task "app::Boom" "\"it\" broke" "boom: \"it\" broke"), future, some l') := by
  obtain ⟨m, l', hnew, hawait, hrunning, -⟩ := exists_awaitOnce boom "Boom"
  obtain ⟨l, awaiting, response, rfl, hparts', hrun, hans, -⟩ := Scheduled.of_send hawait
  have hbefore : (State.new .default).run boom [] = some (State.new .default) := rfl
  obtain ⟨hparts, -⟩ := Scheduled.submitted_of_newTask hbefore hnew
  rw [hparts'] at hparts
  obtain ⟨rfl, -⟩ := List.cons.inj hparts
  obtain ⟨f, future, hwait, ⟨-, -, hrebuilt⟩ | ⟨text, hmem, -⟩ | ⟨hstopped, -⟩⟩ :=
    wait_of_failure knowing .text (by decide) hbefore hnew rfl hrun (.inl (by simp [hans]))
  -- the kind is registered and none of the three that are rebuilt by themselves
  · have hf : f = .task "app::Boom" "\"it\" broke" "boom: \"it\" broke" := by
      cases hrebuilt with
      | validation hkind | unresolvedDefinition hkind | protocol hkind =>
        exact absurd hkind (by decide)
      | task hkind hregistered =>
        cases hregistered
        rfl
      | remoteTask hkind hunknown => cases hunknown
    rw [hf] at hwait
    exact ⟨l, _, future, hnew, hwait⟩
  · simp [Event.drive] at hmem
  · rw [hrunning] at hstopped
    cases hstopped

end Engine

end TaskRelay
