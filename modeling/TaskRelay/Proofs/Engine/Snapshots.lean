import Mathlib.Logic.Relation
import TaskRelay.Proofs.Engine.Answers
import TaskRelay.Proofs.Engine.History

/-!
# Two looks at the table

A client that asks for the table twice, or two clients that ask one after the other, see it move
forward only. A table that is sent is the one that the loop had when it got to the request
(`GetsTo`), and it shows all that was accepted until then (`Shows`). In between, tasks are added
behind the others, and the status of a task goes from enqueued to processing and on to its end
(`Status.Reaches`):

> `Step.forward`: a step takes the status of a task forward, or leaves it.

The loop overwrites a status without looking at it. That this is a step forward is what the stages
of a task tell (`Tracked`).

> `snapshots_of_run`: of two tables that were sent one after the other, the first is the beginning
> of the second, and every task of it has got further or stayed where it was.
-/

namespace TaskRelay

/-! ## How a status changes -/

/-- The next status of a task. -/
inductive Status.Next : Status → Status → Prop
  | start : Next .enqueued .processing
  | complete : Next .processing .completed
  | fail : Next .processing .failed

/-- A task of one status may have the other one later on. -/
abbrev Status.Reaches : Status → Status → Prop := Relation.ReflTransGen Status.Next

/-- A task that has ended stays as it is. -/
theorem Status.Reaches.eq_of_isTerminal {status later : Status} (h : status.Reaches later)
    (hend : status.isTerminal = true) : later = status := by
  rcases h.cases_head with heq | ⟨next, hnext, -⟩
  · exact heq.symm
  · cases hnext <;> cases hend

/-- Every task is counted under one status. -/
theorem StoreState.sum_count (t : StoreState) :
    t.count .enqueued + t.count .processing + t.count .completed + t.count .retrying +
      t.count .failed = t.tasks.length := by
  obtain ⟨tasks⟩ := t
  unfold StoreState.count
  induction tasks with
  | nil => rfl
  | cons task tasks ih =>
    simp only [List.countP_cons, List.length_cons] at ih ⊢
    cases task.status <;> simp <;> omega

namespace Engine

/-- The status of an ended task is the next one after processing. -/
theorem Record.next_statusOf (result : Envelope) :
    Status.Next .processing (Record.statusOf result) := by
  unfold Record.statusOf
  split
  · exact .complete
  · exact .fail

section

variable {d : Dispatcher} {o : Options} {s t u : State} {e : Event} {es fs : List Event}
  {id : TaskId} {r : Record} {ticket : Ticket}

/-- One step takes a task from its status to one that can come after it, or leaves it. -/
theorem Step.forward (h : Step d s e t) (hs : s.running = true → Tracked d es s)
    (hrec : s.store.records[id]? = some r) :
    ∃ r' : Record, t.store.records[id]? = some r' ∧ r.task.status.Reaches r'.task.status := by
  cases h with
  | request | refuse | reply | halt | acquire | work | release => exact ⟨r, hrec, .refl⟩
  | stop | announce | report =>
    simp only [State.setPhase, State.send_store]
    exact ⟨r, hrec, .refl⟩
  | @accept fresh ticket task rest hrun hch hfresh =>
    have hne : fresh ≠ id := fun he => by rw [he, hrec] at hfresh; cases hfresh
    exact ⟨r, by rw [Store.records_insert, if_neg hne, hrec], .refl⟩
  | @park fresh other ticket r₀ rest hrun hch hrec₀ hresult =>
    by_cases ho : other = id
    · exact ⟨r.park ticket, by rw [Store.records_modify, if_pos ho, hrec]; rfl, .refl⟩
    · exact ⟨r, by rw [Store.records_modify, if_neg ho, hrec], .refl⟩
  | @started fresh other rest hrun hch =>
    by_cases ho : other = id
    · subst ho
      -- the stage of its life tells which status the task has had
      obtain ⟨r₀, hrec₀, hlife⟩ := (hs hrun).front other hch (by simp)
      rw [hrec] at hrec₀
      cases hrec₀
      refine ⟨r.start, by rw [Store.start, Store.records_modify, if_pos rfl, hrec]; rfl, ?_⟩
      rw [hlife.started.1]
      exact .single .start
    · exact ⟨r, by rw [Store.start, Store.records_modify, if_neg ho, hrec], .refl⟩
  | @complete fresh other result rest hrun hch =>
    by_cases ho : other = id
    · subst ho
      obtain ⟨r₀, hrec₀, hlife⟩ := (hs hrun).front other hch (by simp)
      rw [hrec] at hrec₀
      cases hrec₀
      refine ⟨r.complete result,
        by rw [Store.complete, Store.records_modify, if_pos rfl, hrec]; rfl, ?_⟩
      rw [hlife.complete.1]
      exact .single (Record.next_statusOf result)
    · exact ⟨r, by rw [Store.complete, Store.records_modify, if_neg ho, hrec], .refl⟩

/-- So does a whole run. -/
theorem run_forward (hs : (State.new o).run d es = some s) (h : s.run d fs = some t)
    (hrec : s.store.records[id]? = some r) :
    ∃ r' : Record, t.store.records[id]? = some r' ∧ r.task.status.Reaches r'.task.status := by
  refine run_keeps_from (P := fun m => ∃ r' : Record, m.store.records[id]? = some r' ∧
    r.task.status.Reaches r'.task.status) ?_ hs h ⟨r, hrec, .refl⟩
  rintro es s e t hs hstep ⟨r', hrec', hreaches⟩
  obtain ⟨r'', hrec'', hnext⟩ := hstep.forward (tracked_of_run hs) hrec'
  exact ⟨r'', hrec'', hreaches.trans hnext⟩

/-! ## When a table was sent -/

/-- After the first events of a run, the loop gets to a request. -/
def GetsTo (d : Dispatcher) (o : Options) (es before : List Event) (ticket : Ticket)
    (request : Request) (u : State) : Prop :=
  (State.new o).run d before = some u ∧
    ∃ fresh rest, before ++ [.process fresh] <+: es ∧ u.channel = .append ticket request :: rest

/-- However the run goes on, the loop got to the request at that point. -/
theorem GetsTo.mono {before : List Event} {request : Request}
    (h : GetsTo d o es before ticket request u) :
    GetsTo d o (es ++ fs) before ticket request u := by
  obtain ⟨hrun, fresh, rest, hpre, hch⟩ := h
  exact ⟨hrun, fresh, rest, hpre.trans (List.prefix_append es fs), hch⟩

/-- Answers are given for good. -/
theorem Step.answers_suffix (h : Step d s e t) : s.answers <:+ t.answers := by
  cases h with
  | refuse | accept | reply => exact List.suffix_cons ..
  | complete | halt => exact List.suffix_append ..
  | stop | announce | report =>
    simp only [State.setPhase, State.send_answers]
    exact List.suffix_refl _
  | _ => exact List.suffix_refl _

/-- In a run answers are only ever added. -/
theorem run_answers_suffix (h : s.run d es = some t) : s.answers <:+ t.answers :=
  run_keeps (P := fun m => s.answers <:+ m.answers)
    (fun hstep hm => hm.trans hstep.answers_suffix) h (List.suffix_refl _)

/-- A table is sent when the loop gets to a request for it, and it is the one of that moment. -/
theorem Step.sent {text : String} (h : Step d s e t) (hfiled : Filed s)
    (hasked : t.asked[ticket]? = some .getStoreState) (hmem : (ticket, .ok text) ∈ t.answers) :
    (ticket, .ok text) ∈ s.answers ∨
      text = s.store.snapshot.encode ∧
        ∃ fresh rest, e = .process fresh ∧ s.channel = .append ticket .getStoreState :: rest := by
  -- whoever asked for the table is neither told an id nor an outcome
  cases h with
  | request | park | started | acquire | work | release => exact .inl hmem
  | stop | announce | report =>
    simp only [State.setPhase, State.send_answers] at hmem
    exact .inl hmem
  | refuse =>
    rcases List.mem_cons.mp hmem with hmem | hmem
    · cases hmem
    · exact .inl hmem
  | accept hrun hch =>
    rcases List.mem_cons.mp hmem with hmem | hmem
    · cases hmem
      have hsubmitted := hfiled.queued (hch ▸ List.mem_cons_self ..)
      cases hsubmitted.symm.trans hasked
    · exact .inl hmem
  | reply hrun hch hreply =>
    rcases List.mem_cons.mp hmem with hmem | hmem
    · cases hmem
      have hsame := hfiled.queued (hch ▸ List.mem_cons_self ..)
      cases hsame.symm.trans hasked
      cases hreply
      exact .inr ⟨rfl, _, _, rfl, hch⟩
    · exact .inl hmem
  | complete =>
    rcases List.mem_append.mp hmem with hmem | hmem
    · obtain ⟨waiter, hwaits, heq⟩ := List.mem_map.mp hmem
      cases heq
      have hawaited := hfiled.parked (List.mem_reverse.mp hwaits)
      cases hawaited.symm.trans hasked
    · exact .inl hmem
  | halt =>
    rcases List.mem_append.mp hmem with hmem | hmem
    · obtain ⟨waiter, -, heq⟩ := List.mem_map.mp hmem
      cases heq
    · exact .inl hmem

/-- Whoever was sent the table was sent it when the loop got to the request, as it was then. -/
theorem getsTo_of_answer {text : String} (h : (State.new o).run d es = some s)
    (hasked : s.asked[ticket]? = some .getStoreState) (hmem : (ticket, .ok text) ∈ s.answers) :
    ∃ before u, GetsTo d o es before ticket .getStoreState u ∧ text = u.store.snapshot.encode := by
  refine run_induction (P := fun es s => s.asked[ticket]? = some .getStoreState →
    (ticket, .ok text) ∈ s.answers → ∃ before u, GetsTo d o es before ticket .getStoreState u ∧
      text = u.store.snapshot.encode) ?_ ?_ h hasked hmem
  · intro _ hmem
    cases hmem
  · intro es s e t hs _ ih hstep hasked hmem
    rcases hstep.sent (Reachable.of_run hs).filed hasked hmem with
      hold | ⟨htext, fresh, rest, rfl, hch⟩
    · obtain ⟨request, hbefore, -⟩ := right_of_run hs hold
      have hsame := hstep.asked hbefore
      rw [hasked] at hsame
      cases hsame
      obtain ⟨before, u, hgets, htext⟩ := ih hbefore hold
      exact ⟨before, u, hgets.mono, htext⟩
    · exact ⟨es, s, ⟨hs, fresh, rest, List.prefix_refl _, hch⟩, htext⟩

/-- The loop answers a request for the table as soon as it gets to it. -/
theorem answer_of_getStoreState {fresh : TaskId} {rest : List Command}
    (hch : s.channel = .append ticket .getStoreState :: rest)
    (h : s.step d (.process fresh) = some t) :
    t.answer? ticket = some (.ok s.store.snapshot.encode) := by
  simp only [State.step, hch, State.handle, State.answer] at h
  split at h
  · cases h
    exact if_pos rfl
  · cases h

/-- A request that is answered stays so. -/
theorem run_answer {response : Response} (hs : (State.new o).run d es = some s)
    (h : s.run d fs = some t) (hans : s.answer? ticket = some response) :
    t.answer? ticket = some response := by
  have ht := run_trans hs h
  refine Rows.get?_of_mem (Reachable.of_run ht).nodup_answers ?_
  exact (run_answers_suffix h).subset (Rows.mem_of_get? hans)

/-- A request for the table that the loop has got to is answered. -/
theorem GetsTo.answered {before : List Event} (h : (State.new o).run d es = some s)
    (hgets : GetsTo d o es before ticket .getStoreState u) : s.answer? ticket ≠ none := by
  obtain ⟨hrun, fresh, rest, ⟨after, rfl⟩, hch⟩ := hgets
  rw [run_append] at h
  obtain ⟨v, hv, hafter⟩ := Option.bind_eq_some_iff.mp h
  obtain ⟨m, hm, hnext⟩ := run_concat hv
  rw [hrun] at hm
  cases hm
  rw [run_answer hv hafter (answer_of_getStoreState hch hnext)]
  exact Option.some_ne_none _

/-! ## Two tables -/

/-- A table shows what was accepted in the first events of a run: all of it, in that order, each
task once and under one of the statuses. -/
structure Shows (d : Dispatcher) (o : Options) (before : List Event) (table : StoreState) :
    Prop where
  listing : table.listing = ((State.new o).accepted d before).map listed
  nodup : (table.tasks.map StoredTask.id).Nodup
  count : table.count .enqueued + table.count .processing + table.count .completed +
    table.count .retrying + table.count .failed = ((State.new o).accepted d before).length

/-- The table at the end of a run shows what was accepted in it. -/
theorem Shows.of_run (h : (State.new o).run d es = some s) : Shows d o es s.store.snapshot := by
  have hlisting := listing_of_run h
  have hw := (Reachable.of_run h).wellFormed
  refine ⟨hlisting, ?_, ?_⟩
  · have hids : s.store.snapshot.tasks.map StoredTask.id = s.store.order.toList := by
      rw [← hw.map_fst_listing, StoreState.listing, List.map_map]
      rfl
    rw [hids]
    exact hw.nodup
  · have hlength := congrArg List.length hlisting
    rw [StoreState.listing, List.length_map, List.length_map] at hlength
    rw [StoreState.sum_count, hlength]

/-- The table that is sent has the tasks of all records, and no others. -/
theorem Store.WellFormed.mem_snapshot {s : Store} (hw : s.WellFormed) {task : StoredTask} :
    task ∈ s.snapshot.tasks ↔ ∃ r : Record, s.records[task.id]? = some r ∧ r.task = task := by
  unfold Store.snapshot
  simp only [List.mem_map, List.mem_filterMap]
  constructor
  · rintro ⟨r, ⟨id, -, hrec⟩, rfl⟩
    exact ⟨r, by rw [hw.id_eq hrec]; exact hrec, rfl⟩
  · rintro ⟨r, hrec, rfl⟩
    exact ⟨r, ⟨_, (hw.mem_order _).mpr ⟨r, hrec⟩, hrec⟩, rfl⟩

/-- What is shown later goes on from what is shown now. -/
theorem snapshot_forward (hs : (State.new o).run d es = some s) (h : s.run d fs = some t) :
    s.store.snapshot.listing <+: t.store.snapshot.listing ∧
    ∀ a ∈ s.store.snapshot.tasks, ∃ b ∈ t.store.snapshot.tasks,
      b.id = a.id ∧ b.invocation = a.invocation ∧ a.status.Reaches b.status := by
  have ht := run_trans hs h
  constructor
  · rw [listing_of_run hs, listing_of_run ht, accepted_append hs, List.map_append]
    exact List.prefix_append ..
  · intro a ha
    obtain ⟨r, hrec, rfl⟩ := (Reachable.of_run hs).wellFormed.mem_snapshot.mp ha
    obtain ⟨r', hrec', hreaches⟩ := run_forward hs h hrec
    obtain ⟨r'', hrec'', hsame⟩ := run_record h hrec
    rw [hrec'] at hrec''
    cases hrec''
    have hw := (Reachable.of_run ht).wellFormed
    have hid := hw.id_eq hrec'
    exact ⟨r'.task, hw.mem_snapshot.mpr ⟨r', hid.symm ▸ hrec', rfl⟩, hid, hsame, hreaches⟩

/-- The points of a run at which two requests for the table are answered come one after the other,
if one of them is still open when the other one has its answer. -/
theorem GetsTo.prefix_of_open {first second : Ticket} {before₁ before₂ : List Event}
    {u₁ u₂ : State} (hs : (State.new o).run d es = some s) (hopen : s.answer? second = none)
    (h₁ : GetsTo d o es before₁ first .getStoreState u₁)
    (h₂ : GetsTo d o (es ++ fs) before₂ second .getStoreState u₂) : before₁ <+: before₂ := by
  obtain ⟨-, fresh₁, -, hpre₁, -⟩ := h₁
  obtain ⟨hrun₂, fresh₂, rest₂, hpre₂, hch₂⟩ := h₂
  rcases List.prefix_or_prefix_of_prefix hpre₂ (List.prefix_append es fs) with hle | hle
  · exact absurd hopen (GetsTo.answered hs ⟨hrun₂, fresh₂, rest₂, hle, hch₂⟩)
  · have hlong : before₁ ++ [.process fresh₁] <+: before₂ ++ [.process fresh₂] := hpre₁.trans hle
    rcases List.prefix_concat_iff.mp hlong with heq | hshort
    · obtain ⟨rfl, -⟩ := List.append_inj' heq rfl
      exact List.prefix_refl _
    · exact (List.prefix_append ..).trans hshort

/-- Of two tables that were sent in a run, one while the other was still to come: each shows what
was accepted until then, in that order, with nothing missing and nothing twice, and its five counts
add up to that; the first one is the beginning of the second one; and the status of each of its
tasks has gone on, from enqueued to processing to completed or failed, and not beyond its end. -/
theorem snapshots_of_run {es₁ es₂ : List Event} {s₁ s₂ : State} {first second : Ticket}
    {text₁ text₂ : String} (h₁ : (State.new o).run d es₁ = some s₁) (h₂ : s₁.run d es₂ = some s₂)
    (hasked₁ : s₁.asked[first]? = some .getStoreState)
    (hasked₂ : s₂.asked[second]? = some .getStoreState)
    (hans₁ : s₁.answer? first = some (.ok text₁)) (hopen : s₁.answer? second = none)
    (hans₂ : s₂.answer? second = some (.ok text₂)) :
    ∃ before₁ before₂ u₁ u₂ table₁ table₂,
      GetsTo d o es₁ before₁ first .getStoreState u₁ ∧
      GetsTo d o (es₁ ++ es₂) before₂ second .getStoreState u₂ ∧
      before₁ <+: before₂ ∧
      StoreState.parse text₁ = .ok table₁ ∧ StoreState.parse text₂ = .ok table₂ ∧
      Shows d o before₁ table₁ ∧ Shows d o before₂ table₂ ∧
      table₁.listing <+: table₂.listing ∧
      ∀ a ∈ table₁.tasks, ∃ b ∈ table₂.tasks, b.id = a.id ∧ b.invocation = a.invocation ∧
        a.status.Reaches b.status ∧ (a.status.isTerminal = true → b.status = a.status) := by
  have hwhole := run_trans h₁ h₂
  obtain ⟨before₁, u₁, hgets₁, rfl⟩ := getsTo_of_answer h₁ hasked₁ (Rows.mem_of_get? hans₁)
  obtain ⟨before₂, u₂, hgets₂, rfl⟩ := getsTo_of_answer hwhole hasked₂ (Rows.mem_of_get? hans₂)
  -- the second request was open when the first one was answered, so the loop gets to it later
  have hpre := hgets₁.prefix_of_open h₁ hopen hgets₂
  obtain ⟨between, rfl⟩ := hpre
  have hbetween : u₁.run d between = some u₂ := by
    have hrun₂ := hgets₂.1
    rwa [run_append, hgets₁.1, Option.bind_some] at hrun₂
  obtain ⟨hlisting, htasks⟩ := snapshot_forward hgets₁.1 hbetween
  refine ⟨before₁, _, u₁, u₂, _, _, hgets₁, hgets₂, List.prefix_append ..,
    StoreState.parse_encode _, StoreState.parse_encode _,
    .of_run hgets₁.1, .of_run hgets₂.1, hlisting, fun a ha => ?_⟩
  obtain ⟨b, hb, hid, hsame, hreaches⟩ := htasks a ha
  exact ⟨b, hb, hid, hsame, hreaches, hreaches.eq_of_isTerminal⟩

/-- The table is asked for when a task was accepted, and again when it is over. -/
def lookTwice : List Event × List Event :=
  ([.request (.newTask echoTask), .process ⟨"a"⟩, .request .getStoreState, .process ⟨""⟩],
    Event.drive ⟨"a"⟩ ++
      [.request (.newTask echoTask), .process ⟨""⟩, .process ⟨""⟩, .process ⟨"b"⟩,
        .request .getStoreState, .process ⟨""⟩])

theorem exists_run_lookTwice : ∃ s₁ s₂ text₁ text₂,
    (State.new .default).run echo lookTwice.1 = some s₁ ∧
    s₁.run echo lookTwice.2 = some s₂ ∧
    s₁.asked[1]? = some .getStoreState ∧ s₂.asked[3]? = some .getStoreState ∧
    s₁.answer? 1 = some (.ok text₁) ∧ s₁.answer? 3 = none ∧ s₂.answer? 3 = some (.ok text₂) := by
  have hthreads : Options.default.threads = 2 := by decide
  have hpermits : 2 ≤ State.maxPermits := by decide
  simp [lookTwice, Event.drive, State.run, State.step, State.new, State.request, State.send,
    State.handle, State.accept, State.complete, State.answer, State.answerAll, State.answer?,
    State.setPhase, Store.insert, Store.empty, Store.modify, Store.start, Store.complete,
    Store.waiters, Record.new, Record.start, Rows.get?, Rows.set, Rows.erase, hthreads, hpermits]

/-- The second table goes on from the first one. -/
theorem snapshots_of_lookTwice : ∃ s₁ s₂ text₁ text₂ table₁ table₂,
    (State.new .default).run echo lookTwice.1 = some s₁ ∧
    s₁.run echo lookTwice.2 = some s₂ ∧
    s₁.answer? 1 = some (.ok text₁) ∧ s₂.answer? 3 = some (.ok text₂) ∧
    StoreState.parse text₁ = .ok table₁ ∧ StoreState.parse text₂ = .ok table₂ ∧
    table₁.listing <+: table₂.listing := by
  obtain ⟨s₁, s₂, text₁, text₂, h₁, h₂, hasked₁, hasked₂, hans₁, hopen, hans₂⟩ :=
    exists_run_lookTwice
  obtain ⟨-, -, -, -, table₁, table₂, -, -, -, hparse₁, hparse₂, -, -, hlisting, -⟩ :=
    snapshots_of_run h₁ h₂ hasked₁ hasked₂ hans₁ hopen hans₂
  exact ⟨s₁, s₂, text₁, text₂, table₁, table₂, h₁, h₂, hans₁, hans₂, hparse₁, hparse₂, hlisting⟩

end

end Engine

end TaskRelay
