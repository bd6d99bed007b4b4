import TaskRelay.Proofs.Engine.Snapshots

/-!
# Clients agree on what they were told

What one client has been told binds what any client is told from then on. An id is given out when
its task is in the table already, and tasks stay there, so nobody who asks for that task later hears
that there is none, and every table that is sent later lists it. An outcome is sent when the table
holds it already, with the status that goes with it, and outcomes stay, so everyone who asks for it
later gets the same text at once, and every table that is sent later shows that the task has ended.

A request for a task that is there may still have to wait. Whoever waits can only be told the
outcome, or that the engine has stopped (`run_waits`).

> `agreement_of_run`: how an answer binds the answers to the requests that the loop gets to later.
-/

namespace TaskRelay.Engine

section

variable {d : Dispatcher} {o : Options} {s t u v w : State} {e : Event} {es fs gs : List Event}
  {id fresh : TaskId} {r : Record} {ticket : Ticket} {result : Envelope} {rest : List Command}

/-! ## What stays -/

/-- An outcome in the table stays there for the rest of the run. -/
theorem run_result (hs : (State.new o).run d es = some s) (h : s.run d fs = some t)
    (hrec : s.store.records[id]? = some r) (hresult : r.result = some result) :
    ∃ r' : Record, t.store.records[id]? = some r' ∧ r'.result = some result := by
  refine run_keeps_from (P := fun m => ∃ r' : Record, m.store.records[id]? = some r' ∧
    r'.result = some result) ?_ hs h ⟨r, hrec, hresult⟩
  rintro es s e t hs hstep ⟨r', hrec', hresult'⟩
  exact hstep.result_stays (tracked_of_run hs) hrec' hresult'

/-! ## Who waits -/

/-- A request waits for a task: it is parked there, and the loop may still get to the outcome. -/
def Waits (s : State) (id : TaskId) (ticket : Ticket) : Prop :=
  s.running = true ∧ ticket ∈ s.store.waiters id

/-- How a request that waits may be answered. -/
inductive Awaited : Response → Prop
  | outcome (result : Envelope) : Awaited (.ok result.encode)
  | stopped : Awaited State.stopped

/-- Whoever waits is never told that there is no such task. -/
theorem Awaited.ne_unknown {response : Response} (h : Awaited response) :
    response ≠ .error (Store.unknown id) := by
  cases h with
  | outcome => simp
  | stopped =>
    intro heq
    -- the two texts differ in their first letters
    have hmessage : "Engine stopped" = "Unknown task " ++ id.text :=
      Failure.protocol.inj (Except.error.inj heq)
    have hletters := congrArg String.toList hmessage
    rw [String.toList_append] at hletters
    have hfirst := congrArg List.head? hletters
    rw [List.head?_append] at hfirst
    have hstopped : "Engine stopped".toList.head? = some 'E' := rfl
    have hunknown : "Unknown task ".toList.head? = some 'U' := rfl
    rw [hstopped, hunknown, Option.some_or] at hfirst
    cases hfirst

/-- Whoever waits for a task is parked. -/
theorem Store.WellFormed.mem_parked {s : Store} (hw : s.WellFormed)
    (hwaits : ticket ∈ s.waiters id) : ticket ∈ s.parked := by
  refine List.mem_flatMap.mpr ⟨id, ?_, hwaits⟩
  by_contra hnone
  have hrec : s.records[id]? = none :=
    Option.eq_none_iff_forall_ne_some.mpr fun r hr => hnone ((hw.mem_order id).mpr ⟨r, hr⟩)
  simp [Store.waiters, hrec] at hwaits

/-- Whoever waits has no answer yet. -/
theorem Waits.answer? (hwaits : Waits s id ticket) (h : Reachable d o s) :
    s.answer? ticket = none := by
  obtain ⟨hrun, hmem⟩ := hwaits
  have hledger := h.nodup_ledger
  unfold State.ledger State.unanswered at hledger
  rw [if_pos hrun] at hledger
  have hparked := List.mem_append_left s.queued (h.wellFormed.mem_parked hmem)
  exact Rows.get?_eq_none.mpr fun hans => (List.nodup_append.mp hledger).2.2 _ hans _ hparked rfl

/-- Whoever waits goes on waiting, or is answered as one who waited. -/
theorem Step.waits (h : Step d s e t) (hw : s.store.WellFormed) (hwaits : Waits s id ticket) :
    Waits t id ticket ∨ ∃ response, (ticket, response) ∈ t.answers ∧ Awaited response := by
  obtain ⟨hrun, hmem⟩ := hwaits
  cases h with
  | request | refuse | reply | acquire | work | release => exact .inl ⟨hrun, hmem⟩
  | stop | announce | report =>
    refine .inl ⟨?_, ?_⟩
    · simpa only [State.setPhase, State.send_running] using hrun
    · simpa only [State.setPhase, State.send_store] using hmem
  | @accept fresh ticket' task rest hrun hch hfresh =>
    -- somebody waits for the task, so it is in the table, and no new one takes its id
    have hne : fresh ≠ id := fun he => by
      subst he
      simp [Store.waiters, hfresh] at hmem
    refine .inl ⟨hrun, ?_⟩
    rw [Store.waiters_insert, if_neg hne]
    exact hmem
  | @park fresh other ticket' r rest hrun hch hrec hresult =>
    refine .inl ⟨hrun, ?_⟩
    rw [Store.waiters_modify hrec]
    split
    · next ho =>
      subst ho
      rw [Store.waiters_of_record hrec] at hmem
      exact List.mem_append_left _ hmem
    · exact hmem
  | started =>
    refine .inl ⟨hrun, ?_⟩
    rw [Store.waiters_start]
    exact hmem
  | @complete fresh other result rest hrun hch =>
    -- the outcome of this task answers the one who waits; that of another one leaves them waiting
    by_cases ho : other = id
    · subst ho
      refine .inr ⟨_, List.mem_append_left _ ?_, .outcome result⟩
      exact List.mem_map.mpr ⟨ticket, List.mem_reverse.mpr hmem, rfl⟩
    · refine .inl ⟨hrun, ?_⟩
      show ticket ∈ (s.store.modify other _).waiters id
      cases hrec : s.store.records[other]? with
      | none => rwa [Store.waiters_modify_of_none hrec]
      | some r => rwa [Store.waiters_modify hrec, if_neg ho]
  -- and the end of the loop answers all
  | halt =>
    refine .inr ⟨_, List.mem_append_left _ ?_, .stopped⟩
    refine List.mem_map.mpr ⟨ticket, List.mem_reverse.mpr ?_, rfl⟩
    rw [State.pending_eq]
    exact List.mem_append_left _ (hw.mem_parked hmem)

/-- In a run a request waits on, until it is answered by the outcome or by the end of the loop. -/
theorem run_waits (hs : (State.new o).run d es = some s) (h : s.run d fs = some t)
    (hwaits : Waits s id ticket) :
    Waits t id ticket ∨ ∃ response, (ticket, response) ∈ t.answers ∧ Awaited response := by
  refine run_keeps_from (P := fun m => Waits m id ticket ∨
    ∃ response, (ticket, response) ∈ m.answers ∧ Awaited response) ?_ hs h (.inl hwaits)
  rintro es s e t hs hstep (hwaits | ⟨response, hmem, hawaited⟩)
  · exact hstep.waits (Reachable.of_run hs).wellFormed hwaits
  · exact .inr ⟨response, hstep.answers_suffix.subset hmem, hawaited⟩

/-! ## Who asks for a task that is there -/

/-- The loop answers with the outcome, or lets the request wait if there is none yet. -/
theorem await_of_record (hch : s.channel = .append ticket (.awaitTask id) :: rest)
    (hrec : s.store.records[id]? = some r) (h : s.step d (.process fresh) = some t) :
    (∃ result, r.result = some result ∧ t.answer? ticket = some (.ok result.encode)) ∨
      r.result = none ∧ Waits t id ticket := by
  simp only [State.step, hch, State.handle, State.await, Store.await, hrec] at h
  cases hresult : r.result with
  | none =>
    rw [hresult] at h
    split at h
    · next hrun =>
      cases h
      refine .inr ⟨rfl, hrun, ?_⟩
      rw [Store.waiters_modify hrec, if_pos rfl]
      exact List.mem_append_right _ (List.mem_singleton_self _)
    · cases h
  | some result =>
    rw [hresult] at h
    split at h
    · cases h
      exact .inl ⟨result, rfl, if_pos rfl⟩
    · cases h

/-- Whoever waits, or has an outcome, is never told that there is no such task. -/
theorem not_unknown_of_waits (hs : (State.new o).run d es = some s) (h : s.run d fs = some t)
    (hwaits : Waits s id ticket ∨
      ∃ result : Envelope, s.answer? ticket = some (.ok result.encode)) :
    t.answer? ticket ≠ some (.error (Store.unknown id)) := by
  intro hans
  have ht := Reachable.of_run (run_trans hs h)
  rcases hwaits with hwaits | ⟨result, hearly⟩
  · rcases run_waits hs h hwaits with hwaits | ⟨response, hmem, hawaited⟩
    · rw [hwaits.answer? ht] at hans
      cases hans
    · have hsame : t.answer? ticket = some response := Rows.get?_of_mem ht.nodup_answers hmem
      rw [hsame] at hans
      exact hawaited.ne_unknown (Option.some.inj hans)
  · rw [run_answer hs h hearly] at hans
    cases hans

/-! ## Who asks for the table -/

/-- A request was answered with a table that has a task like this. -/
def Shown (s : State) (ticket : Ticket) (p : StoredTask → Prop) : Prop :=
  ∃ text table, s.answer? ticket = some (.ok text) ∧ StoreState.parse text = .ok table ∧
    ∃ task ∈ table.tasks, p task

/-- The table that is sent shows every task that there is a record of, as the record has it. -/
theorem shown_of_record (hw : s.store.WellFormed)
    (hch : s.channel = .append ticket .getStoreState :: rest)
    (hrec : s.store.records[id]? = some r) (h : s.step d (.process fresh) = some t) :
    Shown t ticket (· = r.task) := by
  refine ⟨_, _, answer_of_getStoreState hch h, StoreState.parse_encode _, r.task, ?_, rfl⟩
  exact hw.mem_snapshot.mpr ⟨r, hw.id_eq hrec ▸ hrec, rfl⟩

/-- What is shown may be said in less detail. -/
theorem Shown.mono {p q : StoredTask → Prop} (h : Shown s ticket p)
    (himp : ∀ task, p task → q task) : Shown s ticket q := by
  obtain ⟨text, table, hans, hparse, task, hmem, hp⟩ := h
  exact ⟨text, table, hans, hparse, task, hmem, himp task hp⟩

/-! ## What was heard before -/

section

variable {submitted awaited : Ticket} {task : Submission} {text : String}

/-- Who asks for a task whose id was given out before is answered with the outcome or waits. -/
theorem await_of_newTask (hs : (State.new o).run d es = some s) (hu : s.run d fs = some u)
    (hch : u.channel = .append ticket (.awaitTask id) :: rest)
    (hv : u.step d (.process fresh) = some v) (hasked : s.asked[submitted]? = some (.newTask task))
    (hans : s.answer? submitted = some (.ok id.toJson.compact)) :
    Waits v id ticket ∨ ∃ result : Envelope, v.answer? ticket = some (.ok result.encode) := by
  obtain ⟨r, hrec, -⟩ := record_of_answer hs hasked hans
  obtain ⟨r', hrec', -⟩ := run_record hu hrec
  rcases await_of_record hch hrec' hv with ⟨result, -, hearly⟩ | ⟨-, hwaits⟩
  · exact .inr ⟨result, hearly⟩
  · exact .inl hwaits

/-- Whoever was told the id of a task finds the task in a table that is asked for afterwards. -/
theorem shown_of_newTask (hs : (State.new o).run d es = some s) (hu : s.run d fs = some u)
    (hch : u.channel = .append ticket .getStoreState :: rest)
    (hv : u.step d (.process fresh) = some v) (hasked : s.asked[submitted]? = some (.newTask task))
    (hans : s.answer? submitted = some (.ok id.toJson.compact)) :
    Shown v ticket fun shown => shown.id = id ∧ shown.definition = task.definition ∧
      shown.args = task.args ∧ shown.kwargs = task.kwargs := by
  have hw := (Reachable.of_run (run_trans hs hu)).wellFormed
  obtain ⟨r, hrec, htask⟩ := record_of_answer hs hasked hans
  obtain ⟨r', hrec', hsame⟩ := run_record hu hrec
  refine (shown_of_record hw hch hrec' hv).mono ?_
  rintro _ rfl
  obtain ⟨hdefinition, harguments⟩ := Prod.mk.inj (hsame.trans htask)
  obtain ⟨hargs, hkwargs⟩ := Prod.mk.inj harguments
  exact ⟨hw.id_eq hrec', hdefinition, hargs, hkwargs⟩

/-- Who asks for a task whose outcome was sent before gets the same text at once. -/
theorem await_of_outcome (hs : (State.new o).run d es = some s) (hu : s.run d fs = some u)
    (hch : u.channel = .append ticket (.awaitTask id) :: rest)
    (hv : u.step d (.process fresh) = some v) (hasked : s.asked[awaited]? = some (.awaitTask id))
    (hans : s.answer? awaited = some (.ok text)) : v.answer? ticket = some (.ok text) := by
  obtain ⟨r, result, hrec, hresult, rfl⟩ := result_of_answer hs hasked hans
  obtain ⟨r', hrec', hresult'⟩ := run_result hs hu hrec hresult
  rcases await_of_record hch hrec' hv with ⟨result', hsome, hearly⟩ | ⟨hnone, -⟩
  · rw [hresult'] at hsome
    cases hsome
    exact hearly
  · rw [hresult'] at hnone
    cases hnone

/-- Whoever was told the outcome of a task finds its status in a table that is asked for afterwards.
-/
theorem shown_of_outcome (hs : (State.new o).run d es = some s) (hu : s.run d fs = some u)
    (hch : u.channel = .append ticket .getStoreState :: rest)
    (hv : u.step d (.process fresh) = some v) (hasked : s.asked[awaited]? = some (.awaitTask id))
    (hans : s.answer? awaited = some (.ok text)) :
    Shown v ticket fun shown => shown.id = id ∧ ∀ result : Envelope, text = result.encode →
      shown.status = if result.isSuccess then .completed else .failed := by
  have hmiddle := run_trans hs hu
  have hw := (Reachable.of_run hmiddle).wellFormed
  obtain ⟨r, result, hrec, hresult, rfl⟩ := result_of_answer hs hasked hans
  obtain ⟨r', hrec', hresult'⟩ := run_result hs hu hrec hresult
  refine (shown_of_record hw hch hrec' hv).mono ?_
  rintro _ rfl
  refine ⟨hw.id_eq hrec', fun other hother => ?_⟩
  have hfits := fits_of_run hmiddle hrec'
  rw [hresult'] at hfits
  -- the text tells whether it is that of a success, whichever envelope it was made from
  rw [hfits.status_eq, Record.statusOf, Envelope.isSuccess_eq_of_encode_eq hother]

end

/-- The answer to a request binds those to the requests that the loop gets to later, whoever makes
them. Once an id was given out, who asks for that task is answered with an outcome or waits, and is
never told that there is no such task, and who asks for the table is shown the task as it was
submitted. Once an outcome was sent, who asks for that task is answered at once, with the same text,
and who asks for the table is shown the task as completed or failed, as the outcome says. -/
theorem agreement_of_run {request : Request} (hs : (State.new o).run d es = some s)
    (hu : s.run d fs = some u) (hch : u.channel = .append ticket request :: rest)
    (hv : u.step d (.process fresh) = some v) :
    (∀ {submitted : Ticket} {task : Submission} {id : TaskId},
      s.asked[submitted]? = some (.newTask task) →
      s.answer? submitted = some (.ok id.toJson.compact) →
      (request = .awaitTask id →
        (Waits v id ticket ∨ ∃ result : Envelope, v.answer? ticket = some (.ok result.encode)) ∧
        ∀ {gs : List Event} {w : State}, v.run d gs = some w →
          w.answer? ticket ≠ some (.error (Store.unknown id))) ∧
      (request = .getStoreState → Shown v ticket fun shown =>
        shown.id = id ∧ shown.definition = task.definition ∧ shown.args = task.args ∧
          shown.kwargs = task.kwargs)) ∧
    (∀ {awaited : Ticket} {id : TaskId} {text : String},
      s.asked[awaited]? = some (.awaitTask id) → s.answer? awaited = some (.ok text) →
      (∃ result : Envelope, text = result.encode) ∧
      (request = .awaitTask id → v.answer? ticket = some (.ok text)) ∧
      (request = .getStoreState → Shown v ticket fun shown =>
        shown.id = id ∧ ∀ result : Envelope, text = result.encode →
          shown.status = if result.isSuccess then .completed else .failed)) := by
  -- what an answer to a submission binds, then what an outcome does
  constructor
  · intro submitted task id hasked hans
    constructor
    · rintro rfl
      have hfirst := await_of_newTask hs hu hch hv hasked hans
      have hlater := run_trans (run_trans hs hu) (run_single hv)
      exact ⟨hfirst, fun hgs => not_unknown_of_waits hlater hgs hfirst⟩
    · rintro rfl
      exact shown_of_newTask hs hu hch hv hasked hans
  · intro awaited id text hasked hans
    obtain ⟨-, result, -, -, htext⟩ := result_of_answer hs hasked hans
    refine ⟨⟨result, htext⟩, ?_, ?_⟩
    · rintro rfl
      exact await_of_outcome hs hu hch hv hasked hans
    · rintro rfl
      exact shown_of_outcome hs hu hch hv hasked hans

/-- One client submits a task and waits for it; then others ask for the task and for the table. -/
def askLater : List Event × List Event :=
  ([.request (.newTask echoTask), .process ⟨"a"⟩, .request (.awaitTask ⟨"a"⟩), .process ⟨""⟩] ++
    Event.drive ⟨"a"⟩ ++ [.process ⟨""⟩, .process ⟨""⟩],
    [.request (.awaitTask ⟨"a"⟩), .request .getStoreState])

theorem exists_run_askLater : ∃ s u v w text,
    (State.new .default).run echo askLater.1 = some s ∧
    s.asked[0]? = some (.newTask echoTask) ∧
    s.answer? 0 = some (.ok (TaskId.mk "a").toJson.compact) ∧
    s.asked[1]? = some (.awaitTask ⟨"a"⟩) ∧ s.answer? 1 = some (.ok text) ∧
    s.run echo askLater.2 = some u ∧
    u.channel = [.append 2 (.awaitTask ⟨"a"⟩), .append 3 .getStoreState] ∧
    u.step echo (.process ⟨""⟩) = some v ∧
    s.run echo (askLater.2 ++ [.process ⟨""⟩]) = some v ∧
    v.channel = [.append 3 .getStoreState] ∧ v.step echo (.process ⟨""⟩) = some w := by
  have hthreads : Options.default.threads = 2 := by decide
  have hpermits : 2 ≤ State.maxPermits := by decide
  simp [askLater, Event.drive, State.run, State.step, State.new, State.request, State.send,
    State.handle, State.accept, State.await, State.complete, State.answer, State.answerAll,
    State.answer?, State.setPhase, Store.insert, Store.empty, Store.await, Store.modify,
    Store.start, Store.complete, Store.waiters, Record.new, Record.start, Record.complete,
    Record.park, Rows.get?, Rows.set, Rows.erase, hthreads, hpermits]

/-- They get the outcome that the first client got, and a table that says so. -/
theorem agreement_of_askLater : ∃ s v w text,
    (State.new .default).run echo askLater.1 = some s ∧
    s.run echo (askLater.2 ++ [.process ⟨""⟩]) = some v ∧
    v.step echo (.process ⟨""⟩) = some w ∧
    s.answer? 1 = some (.ok text) ∧ v.answer? 2 = some (.ok text) ∧
    (Shown w 3 fun shown => shown.id = ⟨"a"⟩ ∧ shown.definition = "Echo" ∧ shown.args = "[]" ∧
      shown.kwargs = "{}") ∧
    Shown w 3 fun shown => shown.id = ⟨"a"⟩ ∧ ∀ result : Envelope, text = result.encode →
      shown.status = if result.isSuccess then .completed else .failed := by
  obtain ⟨s, u, v, w, text, hs, hsubmitted, hid, hawaited, htext, hu, hch, hv, hsv, hch', hw⟩ :=
    exists_run_askLater
  obtain ⟨-, houtcome⟩ := agreement_of_run hs hu hch hv
  obtain ⟨htask, htable⟩ := agreement_of_run hs hsv hch' hw
  exact ⟨s, v, w, text, hs, hsv, hw, htext, (houtcome hawaited htext).2.1 rfl,
    (htask hsubmitted hid).2 rfl, (htable hawaited htext).2.2 rfl⟩

end

end TaskRelay.Engine
