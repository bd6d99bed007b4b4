import TaskRelay.Proofs.Engine.Remote
import TaskRelay.Proofs.Engine.Snapshots

/-!
# What is submitted is run and listed as it is

The arguments of a task are JSON text inside a text of a request. They are written once and read
once, and at no other time does anybody look into them: the engine keeps the three texts of a
submission in the table and hands the same three to the driver.

> `Request.encode_injective`: no two requests have the same text, since each comes back from its
> own.

> `verbatim_of_newTask`: every message comes back as it was sent; and from when a client was given
> an id, the driver of that task runs the texts that this client sent, and whoever asks for the
> table is shown them.
-/

namespace TaskRelay

/-- Two requests with the same text are the same. -/
theorem Request.encode_injective {r other : Request} (h : r.encode = other.encode) : r = other := by
  have hr := decode_encode r
  rw [h, decode_encode other] at hr
  exact (Except.ok.inj hr).symm

namespace Engine

section

variable {d : Dispatcher} {o : Options} {s t : State} {es : List Event} {id : TaskId} {r : Record}
  {i : Invocation}

/-- The driver of a task runs what the table says. -/
theorem invocation_of_driver {v : Driver} (h : (State.new o).run d es = some s)
    (hrec : s.store.records[id]? = some r) (hmem : (id, v) ∈ s.drivers) :
    v.task.invocation = r.task.invocation := by
  have hmanned := (Reachable.of_run h).manned
  obtain ⟨r', hrec', hsame⟩ := hmanned.owner (Rows.get?_of_mem hmanned.nodup hmem)
  rw [hrec] at hrec'
  cases hrec'
  exact hsame.symm

/-- A table lists a task as the record has it, and no other task under its id. -/
theorem listed_of_record (h : (State.new o).run d es = some s)
    (hrec : s.store.records[id]? = some r) :
    (∃ shown ∈ s.store.snapshot.tasks, shown.id = id) ∧
      ∀ shown ∈ s.store.snapshot.tasks, shown.id = id → shown.invocation = r.task.invocation := by
  have hw := (Reachable.of_run h).wellFormed
  constructor
  · have hid := hw.id_eq hrec
    exact ⟨r.task, hw.mem_snapshot.mpr ⟨r, hid.symm ▸ hrec, rfl⟩, hid⟩
  · intro shown hshown hid
    obtain ⟨r', hrec', rfl⟩ := hw.mem_snapshot.mp hshown
    rw [hid, hrec] at hrec'
    cases hrec'
    rfl

/-- A client that asks for the table reads one that there was after it asked. -/
theorem Scheduled.table_of_storeState {part : List Event} {parts : List (List Event)}
    {table : StoreState} {l : Scheduled} (hs : (State.new o).run d es = some s)
    (h : Client.storeState (connection d) (some ⟨s, part :: parts⟩) = (.ok table, some l)) :
    ∃ gs u, s.run d gs = some u ∧ table = u.store.snapshot := by
  obtain ⟨l₀, part₀, response, hl₀, -, hrun, hans, htable⟩ := of_send h
  cases hl₀
  have hfresh : s.asked[s.asked.size]? = none := Array.getElem?_eq_none (Nat.le_refl _)
  have hright := right_of_answer (run_trans hs hrun) (run_asked hrun) hans
  rcases hright.listed_since hs hfresh with ⟨-, rfl⟩ | ⟨gs, u, hgs, rfl⟩
  · cases htable
  · rw [Client.readResponse, StoreState.parse_encode] at htable
    exact ⟨gs, u, hgs, Except.ok.inj htable⟩

end

/-- Every request, id and table comes back from its text, and no two requests share one. So, from
when a client has submitted a task and was given its id, whatever happens at the engine: the driver
of that task has the very texts that the client sent, and executes them; and whoever asks for the
table and is given one finds the id in it, with these texts. -/
theorem verbatim_of_newTask :
    (∀ r : Request, Request.decode r.encode = .ok r) ∧
    (∀ r other : Request, r.encode = other.encode → r = other) ∧
    (∀ id : TaskId, TaskId.parse id.toJson.compact = .ok id) ∧
    (∀ table : StoreState, StoreState.parse table.encode = .ok table) ∧
    ∀ {d : Dispatcher} {o : Options} {before submitting es : List Event}
      {parts : List (List Event)} {s t : State} {l : Scheduled} {id : TaskId}
      {definition args kwargs : String},
      (State.new o).run d before = some s →
      Client.newTask (Scheduled.connection d) definition args kwargs
        (some ⟨s, submitting :: parts⟩) = (.ok id, some l) →
      l.state.run d es = some t →
      (∀ v : Driver, (id, v) ∈ t.drivers →
        v.task.definition = definition ∧ v.task.args = args ∧ v.task.kwargs = kwargs ∧
          State.outcome d v.task = d.execute definition args kwargs) ∧
      ∀ {listing : List Event} {parts : List (List Event)} {table : StoreState} {l : Scheduled},
        Client.storeState (Scheduled.connection d) (some ⟨t, listing :: parts⟩) =
          (.ok table, some l) →
        (∃ shown ∈ table.tasks, shown.id = id) ∧
        ∀ shown ∈ table.tasks, shown.id = id →
          shown.definition = definition ∧ shown.args = args ∧ shown.kwargs = kwargs := by
  refine ⟨Request.decode_encode, fun _ _ => Request.encode_injective, TaskId.parse_compact,
    StoreState.parse_encode, ?_⟩
  intro d o before submitting es parts s t l id definition args kwargs hbefore hnew hlater
  obtain ⟨-, hmiddle, r, hrec, htask⟩ := Scheduled.submitted_of_newTask hbefore hnew
  have ht := run_trans hmiddle hlater
  -- the record of the task keeps the texts that were sent, whatever else happens
  obtain ⟨r', hrec', hsame⟩ := run_record hlater hrec
  rw [htask] at hsame
  constructor
  · intro v hmem
    have hv := (invocation_of_driver ht hrec' hmem).trans hsame
    obtain ⟨hdefinition, hv⟩ := Prod.mk.inj hv
    obtain ⟨hargs, hkwargs⟩ := Prod.mk.inj hv
    refine ⟨hdefinition, hargs, hkwargs, ?_⟩
    rw [State.outcome, hdefinition, hargs, hkwargs]
  · intro listing parts table l hstore
    -- the table was taken in a state in which the record is still there
    obtain ⟨gs, u, hu, rfl⟩ := Scheduled.table_of_storeState ht hstore
    obtain ⟨r'', hrec'', hsame'⟩ := run_record hu hrec'
    obtain ⟨hlisted, hall⟩ := listed_of_record (run_trans ht hu) hrec''
    refine ⟨hlisted, ?_⟩
    intro shown hshown hid
    have htexts := ((hall shown hshown hid).trans hsame').trans hsame
    obtain ⟨hdefinition, htexts⟩ := Prod.mk.inj htexts
    obtain ⟨hargs, hkwargs⟩ := Prod.mk.inj htexts
    exact ⟨hdefinition, hargs, hkwargs⟩

/-- A task is accepted, and later somebody asks for the table. -/
def listOnce : List (List Event) := [[.process ⟨"a"⟩], [.process ⟨""⟩]]

theorem exists_listOnce (d : Dispatcher) (definition args kwargs : String) : ∃ l t v table l',
    Client.newTask (Scheduled.connection d) definition args kwargs
      (some ⟨State.new .default, listOnce⟩) = (.ok ⟨"a"⟩, some l) ∧
    l.state.run d [.acquire ⟨"a"⟩] = some t ∧ (TaskId.mk "a", v) ∈ t.drivers ∧
    Client.storeState (Scheduled.connection d) (some ⟨t, l.parts⟩) = (.ok table, some l') := by
  have hthreads : Options.default.threads = 2 := by decide
  have hpermits : 2 ≤ State.maxPermits := by decide
  simp [listOnce, Client.newTask, Client.storeState, Client.send, Scheduled.connection,
    Scheduled.ask, Request.decode_encode, TaskId.parse_compact, StoreState.parse_encode,
    Client.readResponse, Except.mapError, Submission.ofTask, State.run, State.step, State.new,
    State.request, State.send, State.handle, State.accept, State.answer, State.answer?,
    State.setPhase, Store.insert, Store.empty, Rows.get?, Rows.set, hthreads, hpermits]

/-- A task with quotes, backslashes and control characters in its texts. -/
def oddTask : Submission :=
  .ofTask "\"Odd\"" "[\"\\\\\\u0000\"]" "\x7b\"\t\n\": null\x7d"

/-- Its texts get to the driver and to the table as they are. -/
theorem verbatim_of_newTask_odd : ∃ l t v table l' shown,
    Client.newTask (Scheduled.connection echo) oddTask.definition oddTask.args oddTask.kwargs
      (some ⟨State.new .default, listOnce⟩) = (.ok ⟨"a"⟩, some l) ∧
    l.state.run echo [.acquire ⟨"a"⟩] = some t ∧
    (TaskId.mk "a", v) ∈ t.drivers ∧ v.task.args = oddTask.args ∧
    Client.storeState (Scheduled.connection echo) (some ⟨t, l.parts⟩) = (.ok table, some l') ∧
    shown ∈ table.tasks ∧ shown.id = ⟨"a"⟩ ∧ shown.kwargs = oddTask.kwargs := by
  obtain ⟨l, t, v, table, l', hnew, hlater, hmem, hstore⟩ :=
    exists_listOnce echo oddTask.definition oddTask.args oddTask.kwargs
  have hbefore : (State.new .default).run echo [] = some (State.new .default) := rfl
  obtain ⟨-, -, -, -, hverbatim⟩ := verbatim_of_newTask
  obtain ⟨hdriver, htable⟩ := hverbatim hbefore hnew hlater
  obtain ⟨-, hargs, -⟩ := hdriver v hmem
  obtain ⟨hparts, -⟩ := Scheduled.submitted_of_newTask hbefore hnew
  have hlisting := hstore
  rw [hparts] at hlisting
  obtain ⟨⟨shown, hshown, hid⟩, hall⟩ := htable hlisting
  obtain ⟨-, -, hkwargs⟩ := hall shown hshown hid
  exact ⟨l, t, v, table, l', shown, hnew, hlater, hmem, hargs, hstore, hshown, hid, hkwargs⟩

end Engine

end TaskRelay
