import TaskRelay.Proofs.Engine.Life
import TaskRelay.Proofs.Engine.Tickets
import TaskRelay.Proofs.Message

/-!
# What requests are answered with

An answer is given at one moment and stays. `Right` says what an answer has to do with the request
and the table, now or at that moment:

> `right_of_run`: after every run, every answer is right for its request.

With the outcomes of `Life` and the places of `Tickets` this gives the contract of an engine
(`answers_of_run`): nothing is answered twice; who waits for a task gets the outcome of executing
what was submitted, no matter when and how often it was asked for; and who has no answer yet is
parked with the task or still in the channel.
-/

namespace TaskRelay.Engine

section

variable {d : Dispatcher} {o : Options} {s t u : State} {e : Event} {es : List Event}
  {request : Request} {response : Response} {ticket : Ticket} {id : TaskId}

/-- The run came through this state. -/
def Passed (d : Dispatcher) (o : Options) (es : List Event) (u : State) : Prop :=
  ∃ fs, fs <+: es ∧ (State.new o).run d fs = some u

/-- A longer run came through the same states. -/
theorem Passed.mono {fs : List Event} (h : Passed d o es u) : Passed d o (es ++ fs) u := by
  obtain ⟨before, hpre, hrun⟩ := h
  exact ⟨before, hpre.trans (List.prefix_append es fs), hrun⟩

/-- A run came through the state that it ends in. -/
theorem Passed.last (h : (State.new o).run d es = some s) : Passed d o es s :=
  ⟨es, List.prefix_refl es, h⟩

/-- Why a request can have been answered like this. -/
inductive Right (d : Dispatcher) (o : Options) (es : List Event) (s : State) (ticket : Ticket) :
    Request → Response → Prop
  /-- The loop has ended. -/
  | stopped {request : Request} (hrun : s.running = false) :
      Right d o es s ticket request State.stopped
  /-- The id of a task that runs what was submitted. -/
  | accepted {task : Submission} {id : TaskId} {r : Record} (hrec : s.store.records[id]? = some r)
      (htask : r.task.invocation = task.invocation) :
      Right d o es s ticket (.newTask task) (.ok id.toJson.compact)
  /-- There was no such task at a time when the request had been made. -/
  | unknown {id : TaskId} {u : State} (hu : Passed d o es u)
      (hasked : u.asked[ticket]? = some (.awaitTask id)) (hrec : u.store.records[id]? = none) :
      Right d o es s ticket (.awaitTask id) (.error (Store.unknown id))
  /-- The outcome that the table holds. -/
  | outcome {id : TaskId} {r : Record} {result : Envelope} (hrec : s.store.records[id]? = some r)
      (hresult : r.result = some result) : Right d o es s ticket (.awaitTask id) (.ok result.encode)
  /-- The table as it was at a time when the request had been made. -/
  | listed {u : State} (hu : Passed d o es u) (hasked : u.asked[ticket]? = some .getStoreState) :
      Right d o es s ticket .getStoreState (.ok u.store.snapshot.encode)

/-- What was right stays right. -/
theorem Right.step (h : Right d o es s ticket request response) (hstep : Step d s e t)
    (hs : s.running = true → Tracked d es s) : Right d o (es ++ [e]) t ticket request response := by
  cases h with
  | stopped hrun =>
    -- a loop that has ended does not start again
    refine .stopped (Bool.eq_false_iff.mpr fun ht => ?_)
    rw [hstep.running ht] at hrun
    cases hrun
  | accepted hrec htask =>
    obtain ⟨r', hrec', hsame⟩ := hstep.keeps _ _ hrec
    exact .accepted hrec' (hsame.trans htask)
  | unknown hu hasked hrec => exact .unknown hu.mono hasked hrec
  | outcome hrec hresult =>
    obtain ⟨r', hrec', hresult'⟩ := hstep.result_stays hs hrec hresult
    exact .outcome hrec' hresult'
  | listed hu hasked => exact .listed hu.mono hasked

/-- What the loop answers at once is right. -/
theorem Reply.right (h : Reply s.store request response) (hu : (State.new o).run d es = some s)
    (hasked : s.asked[ticket]? = some request) (hstore : t.store = s.store) :
    Right d o (es ++ [e]) t ticket request response := by
  cases h with
  | unknown hrec => exact .unknown (Passed.last hu).mono hasked hrec
  | known hrec hresult => exact .outcome (hstore ▸ hrec) hresult
  | listed => exact .listed (Passed.last hu).mono hasked

/-- A pending request was asked. -/
theorem Filed.exists_asked (h : Filed s) (hmem : ticket ∈ s.pending) :
    ∃ request, s.asked[ticket]? = some request := by
  rw [State.pending_eq, List.mem_append] at hmem
  rcases hmem with hmem | hmem
  · obtain ⟨id, -, hwaits⟩ := List.mem_flatMap.mp hmem
    exact ⟨_, h.parked hwaits⟩
  · obtain ⟨request, hc⟩ := State.mem_queued.mp hmem
    exact ⟨request, h.queued hc⟩

/-- An answer was there before the step, or it is right for a request that was asked before. -/
theorem Step.answer (h : Step d s e t) (hu : (State.new o).run d es = some s)
    (hmem : (ticket, response) ∈ t.answers) :
    (ticket, response) ∈ s.answers ∨
      ∃ request, t.asked[ticket]? = some request ∧
        Right d o (es ++ [e]) t ticket request response := by
  have hfiled := (Reachable.of_run hu).filed
  cases h with
  | request | park | started | acquire | work | release => exact .inl hmem
  | stop | announce | report =>
    simp only [State.setPhase, State.send_answers] at hmem
    exact .inl hmem
  -- only these steps answer anybody; each of the first three answers one request
  | @refuse r hrun =>
    rcases List.mem_cons.mp hmem with hmem | hmem
    · cases hmem
      exact .inr ⟨r, Array.getElem?_push_size, .stopped hrun⟩
    · exact .inl hmem
  | @accept fresh ticket' task rest hrun hch hfresh =>
    rcases List.mem_cons.mp hmem with hmem | hmem
    · cases hmem
      refine .inr ⟨_, hfiled.queued (hch ▸ List.mem_cons_self ..), ?_⟩
      exact .accepted (r := .new fresh task) (by simp [Store.records_insert]) rfl
    · exact .inl hmem
  | @reply fresh ticket' request' response' rest hrun hch hreply =>
    rcases List.mem_cons.mp hmem with hmem | hmem
    · cases hmem
      have hasked := hfiled.queued (hch ▸ List.mem_cons_self ..)
      exact .inr ⟨_, hasked, hreply.right hu hasked rfl⟩
    · exact .inl hmem
  -- these two answer all that are parked, one after the other
  | @complete fresh id result rest hrun hch =>
    rcases List.mem_append.mp hmem with hmem | hmem
    · obtain ⟨waiter, hwaits, heq⟩ := List.mem_map.mp hmem
      cases heq
      have hparked := List.mem_reverse.mp hwaits
      refine .inr ⟨_, hfiled.parked hparked, ?_⟩
      cases hrec : s.store.records[id]? with
      | none => simp [Store.waiters, hrec] at hparked
      | some r =>
        exact .outcome (r := r.complete result)
          (by simp [Store.complete, Store.records_modify, hrec]) rfl
    · exact .inl hmem
  | @halt fresh rest hrun hch =>
    rcases List.mem_append.mp hmem with hmem | hmem
    · obtain ⟨waiter, hwaits, heq⟩ := List.mem_map.mp hmem
      cases heq
      obtain ⟨request, hasked⟩ := hfiled.exists_asked (List.mem_reverse.mp hwaits)
      exact .inr ⟨request, hasked, .stopped rfl⟩
    · exact .inl hmem

/-- What was asked stays asked. -/
theorem Step.asked (h : Step d s e t) (hasked : s.asked[ticket]? = some request) :
    t.asked[ticket]? = some request := by
  cases h with
  | request | refuse => exact getElem?_push_of_some hasked
  | stop | announce | report => simpa only [State.setPhase, State.send_asked] using hasked
  | _ => exact hasked

/-- Every answer of a run is one that its request can have had, and its ticket belongs to a request.
-/
theorem right_of_run (h : (State.new o).run d es = some s) (hmem : (ticket, response) ∈ s.answers) :
    ∃ request, s.asked[ticket]? = some request ∧ Right d o es s ticket request response := by
  refine run_induction (P := fun es s => ∀ {ticket response}, (ticket, response) ∈ s.answers →
    ∃ request, s.asked[ticket]? = some request ∧
      Right d o es s ticket request response) ?_ ?_ h hmem
  · intro ticket response hmem
    cases hmem
  · intro es s e t hu _ ih hstep ticket response hmem
    rcases hstep.answer hu hmem with hold | hnew
    · obtain ⟨request, hasked, hright⟩ := ih hold
      exact ⟨request, hstep.asked hasked, hright.step hstep (tracked_of_run hu)⟩
    · exact hnew

/-- The answer to a request that is known. -/
theorem right_of_answer (h : (State.new o).run d es = some s)
    (hasked : s.asked[ticket]? = some request) (hans : s.answer? ticket = some response) :
    Right d o es s ticket request response := by
  obtain ⟨request', hasked', hright⟩ := right_of_run h (Rows.mem_of_get? hans)
  rw [hasked] at hasked'
  cases hasked'
  exact hright

/-- Who was given an id has a task of that id in the table, which runs what was submitted. -/
theorem record_of_answer {task : Submission} (h : (State.new o).run d es = some s)
    (hasked : s.asked[ticket]? = some (.newTask task))
    (hans : s.answer? ticket = some (.ok id.toJson.compact)) :
    ∃ r : Record, s.store.records[id]? = some r ∧ r.task.invocation = task.invocation := by
  have hright := right_of_answer h hasked hans
  -- the answer is the text of some id, and no other id has that text
  generalize htext : id.toJson.compact = text at hright
  cases hright with
  | accepted hrec htask =>
    rw [TaskId.compact_injective htext]
    exact ⟨_, hrec, htask⟩

/-- Who waited for a task with success was answered with the outcome in the table. -/
theorem result_of_answer {text : String} (h : (State.new o).run d es = some s)
    (hasked : s.asked[ticket]? = some (.awaitTask id))
    (hans : s.answer? ticket = some (.ok text)) :
    ∃ (r : Record) (result : Envelope), s.store.records[id]? = some r ∧ r.result = some result ∧
      text = result.encode := by
  cases right_of_answer h hasked hans with
  | outcome hrec hresult => exact ⟨_, _, hrec, hresult, rfl⟩

/-- What clients can rely on, in every order of requests, steps of drivers and steps of the loop:
nothing is answered twice; a successful answer to who waited is the outcome of executing what was
submitted, if nothing of that was lost; and who has no answer yet is still in the channel or parked
with the task, which then has no outcome. -/
theorem answers_of_run (h : (State.new o).run d es = some s) :
    (s.answers.map Prod.fst).Nodup ∧
    (∀ {submitted awaited : Ticket} {task : Submission} {id : TaskId} {text : String},
      (∀ message, Event.lose id message ∉ es) →
      s.asked[submitted]? = some (.newTask task) →
      s.answer? submitted = some (.ok id.toJson.compact) →
      s.asked[awaited]? = some (.awaitTask id) →
      s.answer? awaited = some (.ok text) →
      text = (d.execute task.definition task.args task.kwargs).encode) ∧
    (∀ {awaited : Ticket} {id : TaskId}, s.asked[awaited]? = some (.awaitTask id) →
      s.answer? awaited = none → (∀ request, Command.append awaited request ∉ s.channel) →
      (∃ r : Record, s.store.records[id]? = some r ∧ r.result = none ∧
        r.waiters.count awaited = 1) ∧
      ∀ other, other ≠ id → awaited ∉ s.store.waiters other) ∧
    (∀ {ticket : Ticket}, ticket < s.asked.size → s.answer? ticket = none →
      s.pending.count ticket = 1) := by
  have hreach := Reachable.of_run h
  refine ⟨hreach.nodup_answers, ?_, hreach.parked,
    fun hlt hopen => (hreach.count_pending hlt hopen).2⟩
  intro submitted awaited task id text hjoin hsubmitted hid hawaited hans
  -- the id leads to the record of the submission, and the answer is the outcome in that
  obtain ⟨r, hrec, htask⟩ := record_of_answer h hsubmitted hid
  obtain ⟨r', result, hrec', hresult, rfl⟩ := result_of_answer h hawaited hans
  rw [hrec] at hrec'
  cases hrec'
  have hexec := (explained_of_run h hrec hresult).eq_execute hjoin
  rw [htask] at hexec
  rw [hexec]
  rfl

/-- One client waits before the task is run and another one afterwards. -/
def waitTwice : List Event :=
  [.request (.newTask echoTask), .process ⟨"a"⟩, .request (.awaitTask ⟨"a"⟩), .process ⟨""⟩] ++
    Event.drive ⟨"a"⟩ ++
    [.process ⟨""⟩, .process ⟨""⟩, .request (.awaitTask ⟨"a"⟩), .process ⟨""⟩]

/-- The requests of such a run, and that they were answered. -/
theorem exists_run_waitTwice : ∃ s, (State.new .default).run echo waitTwice = some s ∧
    s.asked = #[.newTask echoTask, .awaitTask ⟨"a"⟩, .awaitTask ⟨"a"⟩] ∧
    s.answer? 0 = some (.ok (TaskId.mk "a").toJson.compact) ∧
    ∃ text, s.answer? 1 = some (.ok text) ∧ s.answer? 2 = some (.ok text) := by
  have hthreads : Options.default.threads = 2 := by decide
  have hpermits : 2 ≤ State.maxPermits := by decide
  simp [waitTwice, Event.drive, State.run, State.step, State.new, State.request, State.send,
    State.handle, State.accept, State.await, State.complete, State.answer, State.answerAll,
    State.answer?, State.setPhase, Store.insert, Store.empty, Store.await, Store.modify,
    Store.start, Store.complete, Store.waiters, Record.new, Record.start, Record.complete,
    Record.park, Rows.get?, Rows.set, Rows.erase, hthreads, hpermits]

/-- Both get the arguments back. -/
theorem answers_of_run_waitTwice : ∃ s, (State.new .default).run echo waitTwice = some s ∧
    s.answer? 1 = some (.ok (Envelope.success (.ofString "[]")).encode) ∧
    s.answer? 2 = some (.ok (Envelope.success (.ofString "[]")).encode) ∧
    (s.answers.map Prod.fst).Nodup := by
  obtain ⟨s, hrun, hasked, hid, text, hparked, hlate⟩ := exists_run_waitTwice
  have hright := answers_of_run hrun
  have hsubmitted : s.asked[0]? = some (.newTask echoTask) := by simp [hasked]
  have hawaited : s.asked[1]? = some (.awaitTask ⟨"a"⟩) := by simp [hasked]
  have htext : text = (echo.execute "Echo" "[]" "{}").encode :=
    hright.2.1 (by simp [waitTwice, Event.drive]) hsubmitted hid hawaited hparked
  subst htext
  exact ⟨s, hrun, hparked, hlate, hright.1⟩

end

end TaskRelay.Engine
