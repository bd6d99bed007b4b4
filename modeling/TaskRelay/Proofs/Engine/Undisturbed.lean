import Mathlib.Data.Fintype.EquivFin
import TaskRelay.Proofs.Engine.Agreement
import TaskRelay.Proofs.Engine.Failing

/-!
# An engine that nobody ends

While an engine is only asked, and otherwise left to what it does by itself (`Undisturbed`), its
loop runs and nothing is lost. So whoever submits a task gets its id, every outcome is that of
executing the task, and what each request comes to can be said without exceptions.

Ids and submissions belong together one by one (`Enrolled`): every id of the table was the answer to
a submission, and no two submissions have been given the same.

As long as anything is left to be done, some event of the engine's own is possible
(`exists_own_step`).
-/

namespace TaskRelay.Engine

/-- Nothing happens but requests and what the engine does by itself. -/
def Undisturbed (es : List Event) : Prop := ∀ e ∈ es, e.isOwn = true ∨ ∃ r, e = .request r

section

variable {d : Dispatcher} {o : Options} {s t : State} {e : Event} {es fs : List Event}
  {ticket : Ticket} {task : Submission} {response : Response} {id : TaskId} {r : Record}

/-- Two parts of a run that nothing disturbs make one. -/
theorem Undisturbed.append (h : Undisturbed es) (hfs : Undisturbed fs) : Undisturbed (es ++ fs) :=
  fun e he => (List.mem_append.mp he).elim (h e) (hfs e)

theorem Undisturbed.of_own (h : e.isOwn = true) : Undisturbed [e] := fun _ hf =>
  .inl (List.mem_singleton.mp hf ▸ h)

theorem Undisturbed.request (request : Request) : Undisturbed [.request request] := fun _ hf =>
  .inr ⟨request, List.mem_singleton.mp hf⟩

/-- Nobody tells the engine to stop. -/
theorem Undisturbed.ne_stop (h : Undisturbed es) (he : e ∈ es) : e ≠ .stop := by
  rintro rfl
  obtain hown | ⟨_, hrequest⟩ := h _ he
  · cases hown
  · cases hrequest

theorem Undisturbed.not_lost (h : Undisturbed es) (id : TaskId) (message : String) :
    Event.lose id message ∉ es := fun he => by
  obtain hown | ⟨_, hrequest⟩ := h _ he
  · cases hown
  · cases hrequest

/-! ## The loop runs -/

/-- Without a stop in the channel the loop goes on. -/
theorem Step.goes_on (h : Step d s e t) (he : e ≠ .stop)
    (hs : s.running = true ∧ Command.stop ∉ s.channel) :
    t.running = true ∧ Command.stop ∉ t.channel := by
  obtain ⟨hrun, hch⟩ := hs
  have hsend : ∀ {c : Command}, c ≠ .stop → (s.send c).running = true ∧
      Command.stop ∉ (s.send c).channel := fun {c} hc => by
    rw [State.send_running, State.send_channel, if_pos hrun]
    refine ⟨hrun, fun hmem => ?_⟩
    rcases List.mem_append.mp hmem with hmem | hmem
    · exact hch hmem
    · exact hc (List.mem_singleton.mp hmem).symm
  cases h with
  | request =>
    refine ⟨hrun, fun hmem => ?_⟩
    rcases List.mem_append.mp hmem with hmem | hmem
    · exact hch hmem
    · cases List.mem_singleton.mp hmem
  | refuse | acquire | work | release => exact ⟨hrun, hch⟩
  | stop => exact absurd rfl he
  | accept _ hfront | reply _ hfront | park _ hfront | started _ hfront | complete _ hfront =>
    exact ⟨hrun, fun hmem => hch (hfront ▸ List.mem_cons_of_mem _ hmem)⟩
  | halt _ hfront => exact absurd (hfront ▸ List.mem_cons_self ..) hch
  | announce => exact hsend (c := .started _) nofun
  | report => exact hsend (c := .complete _ _) nofun

/-- An engine that nothing disturbs runs on. -/
theorem running_of_undisturbed (h : (State.new o).run d es = some s) (hes : Undisturbed es)
    (hpermits : o.threads ≤ State.maxPermits) : s.running = true := by
  refine (run_induction (P := fun es s => Undisturbed es →
    s.running = true ∧ Command.stop ∉ s.channel) ?_ ?_ h hes).1
  · exact fun _ => ⟨decide_eq_true hpermits, List.not_mem_nil⟩
  · intro es s e t _ _ ih hstep hall
    have hbefore : Undisturbed es := fun f hf => hall f (List.mem_append_left _ hf)
    exact hstep.goes_on (hall.ne_stop (by simp)) (ih hbefore)

/-! ## Answers without exceptions -/

/-- Who submits a task is given the id under which the table has it. -/
theorem accepted_of_answer (h : (State.new o).run d es = some s) (hrun : s.running = true)
    (hasked : s.asked[ticket]? = some (.newTask task)) (hans : s.answer? ticket = some response) :
    ∃ (id : TaskId) (r : Record), response = .ok id.toJson.compact ∧
      s.store.records[id]? = some r ∧ r.task.invocation = task.invocation := by
  cases right_of_answer h hasked hans with
  | stopped hstopped =>
    rw [hrun] at hstopped
    cases hstopped
  | accepted hrec htask => exact ⟨_, _, rfl, hrec, htask⟩

/-- Where nothing is lost, an outcome in the table is that of executing the task. -/
theorem result_eq_execute {result : Envelope} (h : (State.new o).run d es = some s)
    (hes : Undisturbed es) (hrec : s.store.records[id]? = some r)
    (hresult : r.result = some result) :
    result = d.execute r.task.definition r.task.args r.task.kwargs :=
  (explained_of_run h hrec hresult).eq_execute fun message => hes.not_lost id message

/-- A task that is executed with success is completed once it has an outcome. -/
theorem status_eq_completed {value : Value} (h : (State.new o).run d es = some s)
    (hrec : s.store.records[id]? = some r) (hresult : r.result = some (.success value)) :
    r.task.status = .completed := (fits_of_run h hrec).completed_iff.mpr ⟨value, hresult⟩

/-! ## Answers to what was asked later on -/

/-- Only a request is ever added to what was asked. -/
theorem Step.asked_eq (h : Step d s e t) (hown : e.isOwn = true) : t.asked = s.asked := by
  cases h with
  | request | refuse | stop => cases hown
  | announce | report => simp only [State.setPhase, State.send_asked]
  | _ => rfl

/-- The run came through a state of that kind before the request was made. -/
def Since (d : Dispatcher) (o : Options) (es : List Event) (ticket : Ticket) (P : State → Prop) :
    Prop :=
  ∃ before after s, es = before ++ after ∧ (State.new o).run d before = some s ∧
    s.asked[ticket]? = none ∧ P s

section

variable {P : State → Prop}

/-- However the run goes on, the run came through the state before the request. -/
theorem Since.append (h : Since d o es ticket P) : Since d o (es ++ fs) ticket P := by
  obtain ⟨before, after, s, rfl, hrun, hfresh, hP⟩ := h
  exact ⟨before, after ++ fs, s, List.append_assoc .., hrun, hfresh, hP⟩

/-- The next request is made after all that there is now. -/
theorem Since.next (h : (State.new o).run d es = some s) (hP : P s) :
    Since d o es s.asked.size P :=
  ⟨es, [], s, (List.append_nil es).symm, h, Array.getElem?_eq_none (Nat.le_refl _), hP⟩

/-- Who asks for a task that is in the table is told its outcome. -/
theorem outcome_of_since (h : (State.new o).run d es = some s) (hrun : s.running = true)
    (hsince : Since d o es ticket fun u => ∃ r : Record, u.store.records[id]? = some r)
    (hasked : s.asked[ticket]? = some (.awaitTask id)) (hans : s.answer? ticket = some response) :
    ∃ (r : Record) (result : Envelope), s.store.records[id]? = some r ∧ r.result = some result ∧
      response = .ok result.encode := by
  obtain ⟨before, after, u, rfl, hu, hfresh, r, hrec⟩ := hsince
  obtain ⟨hstopped, -⟩ | houtcome :=
    (right_of_answer h hasked hans).outcome_of_known hu hrec hfresh
  · rw [hrun] at hstopped
    cases hstopped
  · exact houtcome

/-- Who asks for the table is sent one that there was since, and what stays so is true of it. -/
theorem table_of_since (h : (State.new o).run d es = some s) (hrun : s.running = true)
    (hkept : ∀ {before between u v}, (State.new o).run d before = some u →
      u.run d between = some v → P u → P v)
    (hsince : Since d o es ticket P) (hasked : s.asked[ticket]? = some .getStoreState)
    (hans : s.answer? ticket = some response) :
    ∃ before after u, es = before ++ after ∧ (State.new o).run d before = some u ∧
      u.run d after = some s ∧ P u ∧ response = .ok u.store.snapshot.encode := by
  obtain ⟨before, rest, u, rfl, hu, hfresh, hP⟩ := hsince
  cases right_of_answer h hasked hans with
  | stopped hstopped =>
    rw [hrun] at hstopped
    cases hstopped
  | @listed v hv hbefore =>
    obtain ⟨between, hbetween⟩ := hv.exists_run hu hfresh hbefore
    obtain ⟨first, ⟨after, hwhole⟩, hfirst⟩ := hv
    refine ⟨first, after, v, hwhole.symm, hfirst, ?_, hkept hu hbetween hP, rfl⟩
    rw [← hwhole, run_append, hfirst] at h
    exact h

end

/-! ## Ids and submissions -/

/-- Every id of the table was the answer to a submission, and no two submissions were given the same
one. -/
structure Enrolled (s : State) : Prop where
  ticket : ∀ id ∈ s.store.order.toList, ∃ ticket task,
    s.asked[ticket]? = some (.newTask task) ∧ (ticket, .ok id.toJson.compact) ∈ s.answers
  injective : ∀ {first second : Ticket} {id : TaskId},
    (∃ task, s.asked[first]? = some (.newTask task)) →
    (∃ task, s.asked[second]? = some (.newTask task)) →
    (first, .ok id.toJson.compact) ∈ s.answers → (second, .ok id.toJson.compact) ∈ s.answers →
    first = second

/-- An id is new to the table only if the loop has just accepted a task. -/
theorem Step.order (h : Step d s e t) :
    t.store.order = s.store.order ∨ ∃ ticket task rest fresh, e = .process fresh ∧
      s.channel = .append ticket (.newTask task) :: rest ∧
      t.store.order = s.store.order.push fresh ∧
      (ticket, .ok fresh.toJson.compact) ∈ t.answers := by
  cases h with
  | accept _ hch => exact .inr ⟨_, _, _, _, rfl, hch, rfl, List.mem_cons_self ..⟩
  | stop | announce | report =>
    left
    simp only [State.setPhase, State.send_store]
  | _ => exact .inl rfl

/-- A submission is answered with an id only when it is accepted, and then the id is new. -/
theorem Step.enrolled (h : Step d s e t) (hfiled : Filed s)
    (hasked : t.asked[ticket]? = some (.newTask task))
    (hmem : (ticket, .ok id.toJson.compact) ∈ t.answers) :
    (ticket, .ok id.toJson.compact) ∈ s.answers ∨
      s.store.records[id]? = none ∧ t.answers = (ticket, .ok id.toJson.compact) :: s.answers := by
  cases h with
  | request | park | started | acquire | work | release => exact .inl hmem
  | stop | announce | report =>
    simp only [State.setPhase, State.send_answers] at hmem
    exact .inl hmem
  | refuse =>
    rcases List.mem_cons.mp hmem with hmem | hmem
    · cases hmem
    · exact .inl hmem
  -- the one step that gives an id to a submission
  | @accept fresh _ _ _ _ _ hfresh =>
    rcases List.mem_cons.mp hmem with hmem | hmem
    · obtain ⟨rfl, hid⟩ := Prod.mk.inj hmem
      obtain rfl := TaskId.compact_injective (Except.ok.inj hid)
      exact .inr ⟨hfresh, rfl⟩
    · exact .inl hmem
  | reply _ hch hreply =>
    rcases List.mem_cons.mp hmem with hmem | hmem
    · cases hmem
      have hsame := hfiled.queued (hch ▸ List.mem_cons_self ..)
      cases hsame.symm.trans hasked
      cases hreply
    · exact .inl hmem
  | complete =>
    rcases List.mem_append.mp hmem with hmem | hmem
    · obtain ⟨waiter, hwaits, heq⟩ := List.mem_map.mp hmem
      obtain ⟨rfl, -⟩ := Prod.mk.inj heq
      have hawaited := hfiled.parked (List.mem_reverse.mp hwaits)
      cases hawaited.symm.trans hasked
    · exact .inl hmem
  | halt =>
    rcases List.mem_append.mp hmem with hmem | hmem
    · obtain ⟨waiter, -, heq⟩ := List.mem_map.mp hmem
      cases heq
    · exact .inl hmem

/-- The table has a task under every id that was given to a submission. -/
theorem exists_record_of_given (h : (State.new o).run d es = some s)
    (hasked : ∃ task, s.asked[ticket]? = some (.newTask task))
    (hmem : (ticket, .ok id.toJson.compact) ∈ s.answers) :
    ∃ r : Record, s.store.records[id]? = some r := by
  obtain ⟨task, hasked⟩ := hasked
  have hans := Rows.get?_of_mem (Reachable.of_run h).nodup_answers hmem
  generalize hresponse : Except.ok id.toJson.compact = response at hans
  cases right_of_answer h hasked hans with
  | stopped => cases hresponse
  | accepted hrec =>
    obtain rfl := TaskId.compact_injective (Except.ok.inj hresponse)
    exact ⟨_, hrec⟩

/-- What was answered had been asked. -/
theorem asked_before (h : (State.new o).run d es = some s) (hstep : Step d s e t)
    (hmem : (ticket, response) ∈ s.answers)
    (hasked : ∃ task, t.asked[ticket]? = some (.newTask task)) :
    ∃ task, s.asked[ticket]? = some (.newTask task) := by
  obtain ⟨request, hbefore, -⟩ := right_of_run h hmem
  obtain ⟨task, hasked⟩ := hasked
  have hsame := hstep.asked hbefore
  rw [hasked] at hsame
  cases hsame
  exact ⟨task, hbefore⟩

/-- In a run every id of the table was given out, and to one submission only. -/
theorem enrolled_of_run (h : (State.new o).run d es = some s) : Enrolled s := by
  refine run_induction (P := fun _ s => Enrolled s) ⟨?_, ?_⟩ ?_ h
  · intro id hid
    cases hid
  · intro first second id _ _ hmem
    cases hmem
  · intro es s e t hs _ ih hstep
    have hfiled := (Reachable.of_run hs).filed
    refine ⟨fun id hid => ?_, fun {first second id} hfirst hsecond hmem hmem' => ?_⟩
    · rcases hstep.order with heq | ⟨ticket, task, rest, fresh, -, hch, heq, hgiven⟩
      · obtain ⟨ticket, task, hasked, hmem⟩ := ih.ticket id (heq ▸ hid)
        exact ⟨ticket, task, hstep.asked hasked, hstep.answers_suffix.subset hmem⟩
      · rw [heq, Array.toList_push, List.mem_append, List.mem_singleton] at hid
        rcases hid with hid | rfl
        · obtain ⟨ticket, task, hasked, hmem⟩ := ih.ticket id hid
          exact ⟨ticket, task, hstep.asked hasked, hstep.answers_suffix.subset hmem⟩
        · exact ⟨ticket, task, hstep.asked (hfiled.queued (hch ▸ List.mem_cons_self ..)), hgiven⟩
    · obtain ⟨task, hasked⟩ := hfirst
      obtain ⟨task', hasked'⟩ := hsecond
      -- an id that is given in this step was not in the table, so nobody had it
      have hnobody : ∀ {ticket}, (∃ task, t.asked[ticket]? = some (.newTask task)) →
          (ticket, .ok id.toJson.compact) ∈ s.answers → s.store.records[id]? ≠ none :=
        fun hasked hmem hnone => by
          obtain ⟨r, hrec⟩ := exists_record_of_given hs (asked_before hs hstep hmem hasked) hmem
          rw [hnone] at hrec
          cases hrec
      rcases hstep.enrolled hfiled hasked hmem, hstep.enrolled hfiled hasked' hmem' with
        ⟨hold | ⟨hnone, hnew⟩, hold' | ⟨hnone', hnew'⟩⟩
      · exact ih.injective (asked_before hs hstep hold ⟨task, hasked⟩)
          (asked_before hs hstep hold' ⟨task', hasked'⟩) hold hold'
      · exact absurd hnone' (hnobody ⟨task, hasked⟩ hold)
      · exact absurd hnone (hnobody ⟨task', hasked'⟩ hold')
      · rw [hnew] at hnew'
        exact (Prod.mk.inj (List.cons.inj hnew').1).1

/-! ## Going on -/

/-- There is always an id that no task has. -/
theorem Store.exists_fresh (s : Store) : ∃ id : TaskId, id ∉ s.records := by
  have hinfinite : Infinite TaskId :=
    .of_injective TaskId.mk fun _ _ heq => congrArg TaskId.text heq
  obtain ⟨id, hid⟩ := hinfinite.exists_notMem_finset s.records.keys.toFinset
  exact ⟨id, fun hmem => hid (List.mem_toFinset.mpr (Std.HashMap.mem_keys.mpr hmem))⟩

/-- The loop can handle any command, with an id that no task has. -/
theorem State.exists_step_process (d : Dispatcher) {c : Command} {rest : List Command}
    {fresh : TaskId} (hrun : s.running = true) (hch : s.channel = c :: rest)
    (hfresh : fresh ∉ s.store.records) : ∃ t, s.step d (.process fresh) = some t := by
  have hhandle : ∃ t, State.handle fresh { s with channel := rest } c = some t := by
    unfold State.handle
    split
    · rw [if_neg hfresh]
      exact ⟨_, rfl⟩
    all_goals exact ⟨_, rfl⟩
  obtain ⟨t, ht⟩ := hhandle
  refine ⟨t, ?_⟩
  simp only [State.step, hch]
  rw [if_pos hrun]
  exact ht

/-- As long as an engine has not come to rest, some event of its own is possible. -/
theorem exists_own_step (h : Reachable d o s) (hrun : s.running = true) (hq : ¬ s.Quiescent) :
    ∃ e t, e.isOwn = true ∧ s.step d e = some t := by
  by_cases hch : s.channel = []
  · have hdrivers : ∃ id v, (id, v) ∈ s.drivers ∧ s.CanStep v := by
      by_contra hno
      exact hq ⟨hch, fun {id v} hmem hcan => hno ⟨id, v, hmem, hcan⟩⟩
    obtain ⟨id, v, hmem, hcan⟩ := hdrivers
    obtain ⟨e, he, t, hstep⟩ :=
      (State.canStep_iff (d := d) (Rows.get?_of_mem h.manned.nodup hmem)).mp hcan
    refine ⟨e, t, ?_, hstep⟩
    simp only [Event.drive, List.mem_cons, List.not_mem_nil, or_false] at he
    rcases he with rfl | rfl | rfl | rfl | rfl | rfl <;> rfl
  · obtain ⟨c, rest, hfront⟩ := List.exists_cons_of_ne_nil hch
    obtain ⟨fresh, hfresh⟩ := s.store.exists_fresh
    obtain ⟨t, hstep⟩ := State.exists_step_process d hrun hfront hfresh
    exact ⟨_, t, rfl, hstep⟩

end

end TaskRelay.Engine
