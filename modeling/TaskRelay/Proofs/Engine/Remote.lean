import TaskRelay.Engine.Schedule
import TaskRelay.Proofs.Engine.Answers

/-!
# Running a task behind an engine

A client submits a task, awaits it, and should be given what running the task on the spot gives.
What happens in between is up to a schedule, part by part (`Scheduled`): requests of others, steps
of drivers and steps of the loop, in any order. An engine that is left to itself goes by one of
these schedules (`Setting.exists_part`).

Whatever the order is, the task is in the table before it is asked for, so the client is never told
that there is none (`Right.outcome_of_known`), and the engine sends the outcome that the table
holds. Whether that arrives is another matter: a writer goes as deep as it has to, a reader goes
only so deep (`Received`):

> `awaitTask_of_newTask`: unless the engine has stopped, the client is given the outcome in the
> table, which is that of executing the task unless that was lost; but an outcome nested too deeply
> for a reader ends as an undecodable response.
-/

namespace TaskRelay.Engine

/-! ## An engine on a schedule -/

/-- An engine, and what is going to happen there: one part after each request of the client. -/
structure Scheduled where
  state : State
  parts : List (List Event)

namespace Scheduled

/-- Makes a request, lets the next part of the schedule happen and takes the answer. There is none
if that part is not possible or does not get to the answer. -/
def ask (d : Dispatcher) (r : Request) (l : Scheduled) : Option (Response × Scheduled) := do
  let part ← l.parts.head?
  let s ← l.state.run d (.request r :: part)
  let response ← s.answer? l.state.asked.size
  return (response, ⟨s, l.parts.tail⟩)

/-- How a client talks to an engine on a schedule. Whoever never gets an answer is left with
nothing (`none`). -/
def connection (d : Dispatcher) : Connection (Option Scheduled)
  | _, none => (State.stopped, none)
  | message, some l =>
    match Request.decode message with
    | .error f => (.error f, some l)
    | .ok r =>
      match l.ask d r with
      | none => (State.stopped, none)
      | some (response, l) => (response, some l)

section

variable {d : Dispatcher} {l : Scheduled} {m : Option Scheduled} {r : Request} {α : Type}

/-- Whoever is answered on a schedule was answered in its next part. -/
theorem ask_eq_some {response : Response} {l' : Scheduled} (h : l.ask d r = some (response, l')) :
    ∃ part, l.parts = part :: l'.parts ∧ l.state.run d (.request r :: part) = some l'.state ∧
      l'.state.answer? l.state.asked.size = some response := by
  obtain ⟨part, hpart, h⟩ := Option.bind_eq_some_iff.mp h
  obtain ⟨s, hrun, h⟩ := Option.bind_eq_some_iff.mp h
  obtain ⟨response', hans, h⟩ := Option.bind_eq_some_iff.mp h
  cases h
  exact ⟨part, (List.cons_head?_tail hpart).symm, hrun, hans⟩

/-- What a client that gets a response has been through: its request was made, a part of the
schedule happened, and the answer is what it reads. -/
theorem of_send {parse : String → Except DecodeError α} {result : Except Failure α}
    {l' : Scheduled} (h : Client.send (connection d) parse r m = (result, some l')) :
    ∃ l part response, m = some l ∧ l.parts = part :: l'.parts ∧
      l.state.run d (.request r :: part) = some l'.state ∧
      l'.state.answer? l.state.asked.size = some response ∧
      result = Client.readResponse parse response := by
  cases m with
  | none => cases h
  | some l =>
    simp only [Client.send, connection, Request.decode_encode] at h
    cases hask : l.ask d r with
    | none => rw [hask] at h; cases h
    | some answered =>
      obtain ⟨response, l''⟩ := answered
      rw [hask] at h
      cases h
      obtain ⟨part, hparts, hrun, hans⟩ := ask_eq_some hask
      exact ⟨l, part, response, rfl, hparts, hrun, hans, rfl⟩

/-- If the next part of the schedule gets to the answer, that is what the client reads. -/
theorem send_eq {parse : String → Except DecodeError α} {part : List Event} {t : State}
    {response : Response} {parts : List (List Event)} (hparts : l.parts = part :: parts)
    (hrun : l.state.run d (.request r :: part) = some t)
    (hans : t.answer? l.state.asked.size = some response) :
    Client.send (connection d) parse r (some l) =
      (Client.readResponse parse response, some ⟨t, parts⟩) := by
  have hask : l.ask d r = some (response, ⟨t, parts⟩) := by
    simp only [ask, hparts, List.head?_cons, List.tail_cons, Option.bind_eq_bind, Option.bind_some,
      hrun, hans, Option.pure_def]
  simp only [Client.send, connection, Request.decode_encode, hask]

end

end Scheduled

/-! ## An engine that is left to itself -/

section

variable {ω : Type} {e : Setting ω}

/-- An engine that is left to itself makes a run. -/
theorem Live.exists_run_settleWithin (n : Nat) (l : Live ω) :
    ∃ es, l.state.run e.dispatcher es = some (l.settleWithin e n).state := by
  induction n generalizing l with
  | zero => exact ⟨[], rfl⟩
  | succ n ih =>
    rw [Live.settleWithin]
    split
    · exact ⟨[], rfl⟩
    · next m hm =>
      obtain ⟨event, -, hact⟩ := Option.bind_eq_some_iff.mp hm
      obtain ⟨t, hst, rfl⟩ := Option.map_eq_some_iff.mp hact
      obtain ⟨es, hes⟩ := ih ⟨t, l.outsideAfter e event⟩
      exact ⟨event :: es, by rw [State.run, hst]; exact hes⟩

/-- Settling is one of the things that can happen while a client waits: whoever is answered by an
engine that is left to itself is answered alike on a schedule. -/
theorem Setting.exists_part {l l' : Live ω} {r : Request} {response : Response}
    (parts : List (List Event)) (h : e.connection r.encode l = (response, l'))
    (hans : l'.state.answer? l.state.asked.size ≠ none) :
    ∃ part, Scheduled.connection e.dispatcher r.encode (some ⟨l.state, part :: parts⟩) =
      (response, some ⟨l'.state, parts⟩) := by
  simp only [Setting.connection, Live.ask, Request.decode_encode, Prod.mk.injEq] at h
  obtain ⟨rfl, rfl⟩ := h
  obtain ⟨part, hrun⟩ := Live.exists_run_settleWithin (e := e)
    (Live.effort { l with state := l.state.request r }) { l with state := l.state.request r }
  obtain ⟨response, hresponse⟩ := Option.ne_none_iff_exists'.mp hans
  refine ⟨part, ?_⟩
  have hfirst : l.state.run e.dispatcher (.request r :: part) =
      some (Live.settle e { l with state := l.state.request r }).state := hrun
  simp only [Scheduled.connection, Request.decode_encode, Scheduled.ask, List.head?_cons,
    List.tail_cons, Option.bind_eq_bind, Option.bind_some, Live.response, hfirst, hresponse,
    Option.getD_some, Option.pure_def]

end

/-! ## What arrives -/

/-- What a client makes of an outcome that an engine sends. -/
inductive Received (result : Envelope) : Except Failure Envelope → Prop
  | whole (hdepth : result.depth < Json.depthLimit) : Received result (.ok result)
  | tooDeep {p : Position} (hdepth : Json.depthLimit ≤ result.depth) :
      Received result (.error (Client.undecodable ⟨.malformed .nestedTooDeeply, some p⟩))

/-- The client reads the envelope that was sent, unless that is nested too deeply. -/
theorem Received.of_encode {result : Envelope} (hd : result.DoubleFree) :
    Received result (Client.readResponse Envelope.parse (.ok result.encode)) := by
  by_cases hdepth : result.depth < Json.depthLimit
  · have hread := Envelope.parse_encode hd hdepth
    simp only [Client.readResponse, hread]
    exact .whole hdepth
  · obtain ⟨p, hread⟩ := Envelope.parse_encode_tooDeep hd (Nat.le_of_not_lt hdepth)
    simp only [Client.readResponse, hread]
    exact .tooDeep (Nat.le_of_not_lt hdepth)

/-! ## What is asked for -/

section

variable {d : Dispatcher} {o : Options} {s t u : State} {es fs : List Event} {ticket : Ticket}
  {request : Request} {response : Response} {id : TaskId} {r : Record}

theorem State.request_asked : (s.request request).asked = s.asked.push request := by
  unfold State.request
  dsimp only
  split
  · rw [State.send_asked]
  · rfl

/-- The ticket of a request is its own for the rest of the run. -/
theorem run_asked (h : s.run d (.request request :: es) = some t) :
    t.asked[s.asked.size]? = some request := by
  obtain ⟨m, hm, hrest⟩ := Option.bind_eq_some_iff.mp h
  refine run_keeps (P := fun s' => s'.asked[s.asked.size]? = some request)
    (fun hstep hasked => hstep.asked hasked) hrest ?_
  cases hm
  rw [State.request_asked]
  exact Array.getElem?_push_size

/-- Of two states in one run, one leads to the other. -/
theorem Passed.run_or_run (hs : (State.new o).run d es = some s) (hu : Passed d o (es ++ fs) u) :
    (∃ gs, u.run d gs = some s) ∨ ∃ gs, s.run d gs = some u := by
  obtain ⟨before, hpre, hrun⟩ := hu
  rcases List.prefix_or_prefix_of_prefix hpre (List.prefix_append es fs) with
    ⟨gs, rfl⟩ | ⟨gs, rfl⟩
  · rw [run_append, hrun] at hs
    exact .inl ⟨gs, hs⟩
  · rw [run_append, hs] at hrun
    exact .inr ⟨gs, hrun⟩

/-- What a request saw in its part of a run comes after what there was before it was made. -/
theorem Passed.exists_run (hs : (State.new o).run d es = some s)
    (hfresh : s.asked[ticket]? = none) (hu : Passed d o (es ++ fs) u)
    (hasked : u.asked[ticket]? = some request) : ∃ gs, s.run d gs = some u := by
  rcases hu.run_or_run hs with ⟨gs, hrun⟩ | hrun
  · -- what was asked stays asked, so the request would have been made by `s`
    have hkept := run_keeps (P := fun u => u.asked[ticket]? = some request)
      (fun hstep h => hstep.asked h) hrun hasked
    rw [hfresh] at hkept
    cases hkept
  · exact hrun

/-- Who asks for a task that is in the table is never told that there is none. -/
theorem Right.outcome_of_known (hs : (State.new o).run d es = some s)
    (hrec : s.store.records[id]? = some r) (hfresh : s.asked[ticket]? = none)
    (h : Right d o (es ++ fs) t ticket (.awaitTask id) response) :
    (t.running = false ∧ response = State.stopped) ∨
      ∃ (r' : Record) (result : Envelope), t.store.records[id]? = some r' ∧
        r'.result = some result ∧ response = .ok result.encode := by
  cases h with
  | stopped hrun => exact .inl ⟨hrun, rfl⟩
  | outcome hrec' hresult => exact .inr ⟨_, _, hrec', hresult, rfl⟩
  | unknown hu hasked hnone =>
    -- since `s` the task is in the table
    obtain ⟨gs, hrun⟩ := hu.exists_run hs hfresh hasked
    obtain ⟨r', hrec', -⟩ := run_record hrun hrec
    rw [hnone] at hrec'
    cases hrec'

/-- Who asks for the table is shown one that there was since. -/
theorem Right.listed_since (hs : (State.new o).run d es = some s)
    (hfresh : s.asked[ticket]? = none)
    (h : Right d o (es ++ fs) t ticket .getStoreState response) :
    (t.running = false ∧ response = State.stopped) ∨
      ∃ gs u, s.run d gs = some u ∧ response = .ok u.store.snapshot.encode := by
  cases h with
  | stopped hrun => exact .inl ⟨hrun, rfl⟩
  | listed hu hasked =>
    obtain ⟨gs, hrun⟩ := hu.exists_run hs hfresh hasked
    exact .inr ⟨gs, _, hrun, rfl⟩

/-- Who was given an id by an engine has a task of that id in the table, as it was submitted. -/
theorem record_of_newTask {task : Submission} (hs : (State.new o).run d es = some s)
    (hrun : s.run d (.request (.newTask task) :: fs) = some t)
    (hans : t.answer? s.asked.size = some response)
    (hid : Client.readResponse TaskId.parse response = .ok id) :
    ∃ r : Record, t.store.records[id]? = some r ∧ r.task.invocation = task.invocation := by
  have ht : (State.new o).run d (es ++ .request (.newTask task) :: fs) = some t := by
    rw [run_append, hs]
    exact hrun
  cases right_of_answer ht (run_asked hrun) hans with
  | stopped => cases hid
  | @accepted _ given _ hrec htask =>
    rw [Client.readResponse, TaskId.parse_compact] at hid
    cases hid
    exact ⟨_, hrec, htask⟩

/-- Once a client was given an id on a schedule, the run so far has the submission in it, and the
table has the task as the client wrote it. -/
theorem Scheduled.submitted_of_newTask {before submitting : List Event}
    {parts : List (List Event)} {definition args kwargs : String} {l : Scheduled}
    (hbefore : (State.new o).run d before = some s)
    (hnew : Client.newTask (connection d) definition args kwargs
      (some ⟨s, submitting :: parts⟩) = (.ok id, some l)) :
    l.parts = parts ∧
    (State.new o).run d
      (before ++ .request (.newTask (.ofTask definition args kwargs)) :: submitting) =
        some l.state ∧
    ∃ r : Record, l.state.store.records[id]? = some r ∧
      r.task.invocation = (definition, args, kwargs) := by
  obtain ⟨l₀, part, response, hl₀, hparts, hrun, hans, hid⟩ := of_send hnew
  cases hl₀
  obtain ⟨rfl, hrest⟩ := List.cons.inj hparts
  obtain ⟨r, hrec, htask⟩ := record_of_newTask hbefore hrun hans hid.symm
  refine ⟨hrest.symm, ?_, r, hrec, htask⟩
  rw [run_append, hbefore]
  exact hrun

/-- Who awaits a task that is in the table gets its outcome from there, or is told that the engine
has stopped. -/
theorem outcome_of_awaitTask (hs : (State.new o).run d es = some s)
    (hrec : s.store.records[id]? = some r)
    (hrun : s.run d (.request (.awaitTask id) :: fs) = some t)
    (hans : t.answer? s.asked.size = some response) :
    (t.running = false ∧ response = State.stopped) ∨
      ∃ (r' : Record) (result : Envelope), t.store.records[id]? = some r' ∧
        r'.result = some result ∧ response = .ok result.encode := by
  have ht : (State.new o).run d (es ++ .request (.awaitTask id) :: fs) = some t := by
    rw [run_append, hs]
    exact hrun
  refine (right_of_answer ht (run_asked hrun) hans).outcome_of_known hs hrec ?_
  exact Array.getElem?_eq_none (Nat.le_refl _)

/-- Where executing a task gives no doubles, its outcome has none: who lost it says so in words. -/
theorem Explained.doubleFree {i : Invocation} {result : Envelope} (h : Explained d es id i result)
    (hd : (d.execute i.1 i.2.1 i.2.2).DoubleFree) : result.DoubleFree := by
  obtain rfl | ⟨message, -, rfl⟩ := h
  · exact hd
  · trivial

/-- A client that submits a task and awaits it, while anything may happen at the engine before, in
between and meanwhile: what it is given is the outcome that the table holds, if a reader goes that
deep, and else an undecodable response. -/
theorem awaitTask_of_newTask {before submitting awaiting : List Event}
    {parts : List (List Event)} {definition args kwargs : String} {m : Option Scheduled}
    {l : Scheduled} {outcome : Except Failure Envelope}
    (hbefore : (State.new o).run d before = some s)
    (hnew : Client.newTask (Scheduled.connection d) definition args kwargs
      (some ⟨s, submitting :: awaiting :: parts⟩) = (.ok id, m))
    (hawait : Client.awaitTask (Scheduled.connection d) id m = (outcome, some l))
    (hd : (d.execute definition args kwargs).DoubleFree) :
    (l.state.running = false ∧ outcome = .error Error.stopped.toFailure) ∨
      ∃ (r : Record) (result : Envelope), l.state.store.records[id]? = some r ∧
        r.result = some result ∧
        Explained d (before ++ submitting ++ awaiting) id (definition, args, kwargs) result ∧
        Received result outcome := by
  -- from the end, since that the second request was answered says that the first one was
  obtain ⟨l₁, part₂, response₂, rfl, hparts₂, hrun₂, hans₂, rfl⟩ := Scheduled.of_send hawait
  obtain ⟨l₀, part₁, response₁, hl₀, hparts₁, hrun₁, hans₁, hid⟩ := Scheduled.of_send hnew
  cases hl₀
  obtain ⟨rfl, hrest⟩ := List.cons.inj hparts₁
  rw [← hrest] at hparts₂
  obtain ⟨rfl, -⟩ := List.cons.inj hparts₂
  obtain ⟨r₁, hrec₁, htask⟩ := record_of_newTask hbefore hrun₁ hans₁ hid.symm
  have hmiddle : (State.new o).run d
      (before ++ .request (.newTask (.ofTask definition args kwargs)) :: submitting) =
        some l₁.state := by
    rw [run_append, hbefore]
    exact hrun₁
  rcases outcome_of_awaitTask hmiddle hrec₁ hrun₂ hans₂ with
    ⟨hstopped, rfl⟩ | ⟨r₂, result, hrec₂, hresult, rfl⟩
  · exact .inl ⟨hstopped, rfl⟩
  · have hend : (State.new o).run d
        ((before ++ .request (.newTask (.ofTask definition args kwargs)) :: submitting) ++
          .request (.awaitTask id) :: awaiting) = some l.state := by
      rw [run_append, hmiddle]
      exact hrun₂
    obtain ⟨r', hrec', hsame⟩ := run_record hrun₂ hrec₁
    rw [hrec₂] at hrec'
    cases hrec'
    have hwhy := explained_of_run hend hrec₂ hresult
    rw [hsame, htask] at hwhy
    refine .inr ⟨r₂, result, hrec₂, hresult, ?_, .of_encode (hwhy.doubleFree hd)⟩
    -- the requests in between are the client's own, so nothing is lost there
    refine hwhy.imp_right fun ⟨message, hmem, hlost⟩ => ⟨message, ?_, hlost⟩
    simpa using hmem

/-! ## At the limit -/

/-- A task is accepted, awaited, run by its driver, and reported. -/
def awaitOnce : List (List Event) :=
  [[.process ⟨"a"⟩],
    .process ⟨""⟩ :: Event.drive ⟨"a"⟩ ++ [.process ⟨""⟩, .process ⟨""⟩]]

/-- On such a schedule the client reads what executing the task gives. -/
theorem exists_awaitOnce (d : Dispatcher) (definition : String) : ∃ m l,
    Client.newTask (Scheduled.connection d) definition "[]" "{}"
      (some ⟨State.new .default, awaitOnce⟩) = (.ok ⟨"a"⟩, m) ∧
    Client.awaitTask (Scheduled.connection d) ⟨"a"⟩ m =
      (Client.readResponse Envelope.parse (.ok (d.execute definition "[]" "{}").encode), some l) ∧
    l.state.running = true ∧
    ∃ r : Record, l.state.store.records[TaskId.mk "a"]? = some r ∧
      r.task.status = Record.statusOf (d.execute definition "[]" "{}") := by
  have hthreads : Options.default.threads = 2 := by decide
  have hpermits : 2 ≤ State.maxPermits := by decide
  simp [awaitOnce, Client.newTask, Client.awaitTask, Client.send, Scheduled.connection,
    Scheduled.ask, Request.decode_encode, TaskId.parse_compact, Client.readResponse,
    Except.mapError, State.outcome, Submission.ofTask,
    Event.drive, State.run, State.step, State.new, State.request, State.send,
    State.handle, State.accept, State.await, State.complete, State.answer, State.answerAll,
    State.answer?, State.setPhase, Store.insert, Store.empty, Store.await, Store.modify,
    Store.start, Store.complete, Store.waiters, Record.new, Record.start, Record.complete,
    Record.park, Rows.get?, Rows.set, Rows.erase, hthreads, hpermits]

/-- Arrays around each other. -/
def nested : Nat → Json
  | 0 => .null
  | n + 1 => .array [nested n]

/-- Each pair of brackets is one level. -/
theorem nested_depth (n : Nat) : (nested n).depth = n := by
  induction n with
  | zero => rfl
  | succ n ih => simp [nested, Json.depth, Json.depthItems, ih]

theorem nested_doubleFree (n : Nat) : (nested n).DoubleFree := by
  induction n with
  | zero => trivial
  | succ n ih => exact ⟨ih, trivial⟩

theorem nested_sorted (n : Nat) : (nested n).Sorted := by
  induction n with
  | zero => simp [nested, Json.Sorted]
  | succ n ih => simp [nested, Json.Sorted, Json.SortedItems, ih]

/-- The outcome of a task that returns arrays around each other. -/
def nestedOutcome (n : Nat) : Envelope := .success ⟨nested n, nested_sorted n⟩

theorem nestedOutcome_depth (n : Nat) : (nestedOutcome n).depth = n := nested_depth n

/-- There are no numbers in it at all. -/
theorem nestedOutcome_doubleFree (n : Nat) : (nestedOutcome n).DoubleFree := nested_doubleFree n

/-- A dispatcher for one such task. -/
def nest (n : Nat) : Dispatcher :=
  ⟨Registry.empty.register "Nest" fun _ _ => .ok (nestedOutcome n)⟩

/-- The task returns its brackets whatever it is given. -/
theorem nest_execute (n : Nat) (args kwargs : String) :
    (nest n).execute "Nest" args kwargs = nestedOutcome n := rfl

/-- An outcome of a completed task that is nested as deeply as a text may be does not arrive: the
envelope around it is too much. -/
theorem awaitTask_nest : ∃ m l p,
    Client.newTask (Scheduled.connection (nest Json.depthLimit)) "Nest" "[]" "{}"
      (some ⟨State.new .default, awaitOnce⟩) = (.ok ⟨"a"⟩, m) ∧
    Client.awaitTask (Scheduled.connection (nest Json.depthLimit)) ⟨"a"⟩ m =
      (.error (Client.undecodable ⟨.malformed .nestedTooDeeply, some p⟩), some l) ∧
    ∃ r : Record, l.state.store.records[TaskId.mk "a"]? = some r ∧ r.task.status = .completed := by
  obtain ⟨m, l, hnew, hawait, -, r, hrec, hstatus⟩ := exists_awaitOnce (nest Json.depthLimit) "Nest"
  rw [nest_execute] at hawait hstatus
  have hreceived := Received.of_encode (nestedOutcome_doubleFree Json.depthLimit)
  generalize Client.readResponse Envelope.parse _ = outcome at hawait hreceived
  cases hreceived with
  | whole hdepth =>
    rw [nestedOutcome_depth] at hdepth
    exact absurd hdepth (Nat.lt_irrefl _)
  | @tooDeep p => exact ⟨m, l, p, hnew, hawait, r, hrec, hstatus⟩

/-- An outcome that is nested one less deeply does. -/
theorem awaitTask_of_newTask_nest : ∃ m l,
    Client.newTask (Scheduled.connection (nest 126)) "Nest" "[]" "{}"
      (some ⟨State.new .default, awaitOnce⟩) = (.ok ⟨"a"⟩, m) ∧
    Client.awaitTask (Scheduled.connection (nest 126)) ⟨"a"⟩ m =
      (.ok ((nest 126).execute "Nest" "[]" "{}"), some l) := by
  obtain ⟨m, l, hnew, hawait, hrun, -⟩ := exists_awaitOnce (nest 126) "Nest"
  have hbefore : (State.new .default).run (nest 126) [] = some (State.new .default) := rfl
  have hd : ((nest 126).execute "Nest" "[]" "{}").DoubleFree := nestedOutcome_doubleFree 126
  rcases awaitTask_of_newTask hbefore hnew hawait hd with
    ⟨hstopped, -⟩ | ⟨r, result, -, -, hwhy, hreceived⟩
  · rw [hrun] at hstopped
    cases hstopped
  · obtain rfl := hwhy.eq_execute (by simp [Event.drive])
    generalize Client.readResponse Envelope.parse _ = outcome at hawait hreceived
    cases hreceived with
    | whole => exact ⟨m, l, hnew, hawait⟩
    | tooDeep hdepth =>
      rw [nest_execute, nestedOutcome_depth] at hdepth
      exact absurd hdepth (by decide)

end

end TaskRelay.Engine
