import Mathlib.Data.List.Induction
import TaskRelay.Engine.State

/-!
# What one step of an engine can do

`State.step` is a function; a proof about runs wants to know what a step has done. `Step` lists
the possibilities, each with what it needs and with the state that it leads to, field by field, so
that no other proof opens `State.step`:

> `Step.of_step`: every step of an engine is one of these.

What a request is answered with at once is a `Reply`, and what a driver does between its
announcement and its report, when it touches neither permits nor channel, is `Work`.

A run is a list of events (`State.run`). What a step keeps, a run keeps:

> `run_induction`: what holds of a new engine and is kept by every step holds after every run.
-/

namespace TaskRelay.Engine

namespace State

/-! ## Answering many requests -/

/-- The requests are answered in order, so the last of them is in front. -/
theorem answerAll_eq (tickets : List Ticket) (r : Response) (s : State) :
    s.answerAll tickets r = { s with answers := tickets.reverse.map (·, r) ++ s.answers } := by
  induction tickets generalizing s with
  | nil => rfl
  | cons ticket rest ih =>
    unfold answerAll at ih ⊢
    rw [List.foldl_cons, ih]
    simp [answer]

/-! ## Sending -/

section

variable (c : Command) (s : State)

@[simp] theorem send_running : (s.send c).running = s.running := by unfold send; split <;> rfl
@[simp] theorem send_permits : (s.send c).permits = s.permits := by unfold send; split <;> rfl
@[simp] theorem send_store : (s.send c).store = s.store := by unfold send; split <;> rfl
@[simp] theorem send_drivers : (s.send c).drivers = s.drivers := by unfold send; split <;> rfl
@[simp] theorem send_asked : (s.send c).asked = s.asked := by unfold send; split <;> rfl
@[simp] theorem send_answers : (s.send c).answers = s.answers := by unfold send; split <;> rfl

/-- A command is put behind the others, unless the loop has ended. -/
theorem send_channel :
    (s.send c).channel = if s.running then s.channel ++ [c] else s.channel := by
  unfold send; split <;> rfl

end

end State

/-! ## The possibilities -/

/-- What is answered as soon as the loop gets to a request. -/
inductive Reply (s : Store) : Request → Response → Prop
  | unknown {id : TaskId} (hrec : s.records[id]? = none) :
      Reply s (.awaitTask id) (.error (Store.unknown id))
  | known {id : TaskId} {r : Record} {result : Envelope} (hrec : s.records[id]? = some r)
      (hresult : r.result = some result) : Reply s (.awaitTask id) (.ok result.encode)
  | listed : Reply s .getStoreState (.ok s.snapshot.encode)

/-- How far the driver of a task gets while the task is being run. -/
inductive Work (d : Dispatcher) (id : TaskId) (task : Submission) : Event → Phase → Phase → Prop
  | execute : Work d id task (.execute id) .announced .executing
  | finish : Work d id task (.finish id) .executing (.executed (State.outcome d task))
  | lose (message : String) :
      Work d id task (.lose id message) .executing (.executed (State.lost message))

/-- One step, by what it does. -/
inductive Step (d : Dispatcher) (s : State) : Event → State → Prop
  /-- A request gets into the channel. -/
  | request {r : Request} (hrun : s.running = true) :
      Step d s (.request r)
        { s with asked := s.asked.push r, channel := s.channel ++ [.append s.asked.size r] }
  /-- A request to an engine that has stopped is answered at once. -/
  | refuse {r : Request} (hrun : s.running = false) :
      Step d s (.request r)
        { s with
          asked := s.asked.push r
          answers := (s.asked.size, State.stopped) :: s.answers }
  | stop : Step d s .stop (s.send .stop)
  | accept {fresh : TaskId} {ticket : Ticket} {task : Submission} {rest : List Command}
      (hrun : s.running = true) (hch : s.channel = .append ticket (.newTask task) :: rest)
      (hfresh : s.store.records[fresh]? = none) :
      Step d s (.process fresh)
        { s with
          channel := rest
          store := s.store.insert fresh task
          drivers := s.drivers ++ [(fresh, ⟨task, .waiting⟩)]
          answers := (ticket, .ok fresh.toJson.compact) :: s.answers }
  | reply {fresh : TaskId} {ticket : Ticket} {request : Request} {response : Response}
      {rest : List Command} (hrun : s.running = true)
      (hch : s.channel = .append ticket request :: rest) (hreply : Reply s.store request response) :
      Step d s (.process fresh)
        { s with channel := rest, answers := (ticket, response) :: s.answers }
  | park {fresh id : TaskId} {ticket : Ticket} {r : Record} {rest : List Command}
      (hrun : s.running = true) (hch : s.channel = .append ticket (.awaitTask id) :: rest)
      (hrec : s.store.records[id]? = some r) (hresult : r.result = none) :
      Step d s (.process fresh)
        { s with channel := rest, store := s.store.modify id (.park ticket) }
  | started {fresh id : TaskId} {rest : List Command} (hrun : s.running = true)
      (hch : s.channel = .started id :: rest) :
      Step d s (.process fresh) { s with channel := rest, store := s.store.start id }
  | complete {fresh id : TaskId} {result : Envelope} {rest : List Command}
      (hrun : s.running = true) (hch : s.channel = .complete id result :: rest) :
      Step d s (.process fresh)
        { s with
          channel := rest
          store := s.store.complete id result
          answers := (s.store.waiters id).reverse.map (·, .ok result.encode) ++ s.answers }
  | halt {fresh : TaskId} {rest : List Command} (hrun : s.running = true)
      (hch : s.channel = .stop :: rest) :
      Step d s (.process fresh)
        { s with
          running := false
          channel := []
          answers := s.pending.reverse.map (·, State.stopped) ++ s.answers }
  | acquire {id : TaskId} {task : Submission}
      (hget : Rows.get? id s.drivers = some ⟨task, .waiting⟩) (hfree : s.permits ≠ 0) :
      Step d s (.acquire id)
        { s with permits := s.permits - 1, drivers := Rows.set id ⟨task, .admitted⟩ s.drivers }
  | announce {id : TaskId} {task : Submission}
      (hget : Rows.get? id s.drivers = some ⟨task, .admitted⟩) :
      Step d s (.announce id) ((s.send (.started id)).setPhase id task .announced)
  | work {id : TaskId} {task : Submission} {e : Event} {p q : Phase}
      (hget : Rows.get? id s.drivers = some ⟨task, p⟩) (hwork : Work d id task e p q) :
      Step d s e (s.setPhase id task q)
  | report {id : TaskId} {task : Submission} {result : Envelope}
      (hget : Rows.get? id s.drivers = some ⟨task, .executed result⟩) :
      Step d s (.report id) ((s.send (.complete id result)).setPhase id task .reported)
  | release {id : TaskId} {task : Submission}
      (hget : Rows.get? id s.drivers = some ⟨task, .reported⟩) :
      Step d s (.release id)
        { s with permits := s.permits + 1, drivers := Rows.erase id s.drivers }

/-! ## Every step is one of them -/

section

variable {d : Dispatcher} {s t : State}

/-- The `stop` in front of the channel is no request, so leaving it out changes nothing. -/
theorem State.pending_stop {rest : List Command} (hch : s.channel = .stop :: rest) :
    State.pending { s with channel := rest } = s.pending := by
  simp [State.pending, hch, State.ticket?, List.filterMap_cons]

/-- What the loop does with the command in front. -/
theorem Step.of_handle {fresh : TaskId} {c : Command} {rest : List Command}
    (hrun : s.running = true) (hch : s.channel = c :: rest)
    (h : State.handle fresh { s with channel := rest } c = some t) :
    Step d s (.process fresh) t := by
  cases c with
  | append ticket request =>
    cases request with
    | newTask task =>
      simp only [State.handle] at h
      split at h
      · cases h
      · next hfresh =>
        cases h
        exact .accept hrun hch (Std.HashMap.getElem?_eq_none hfresh)
    -- who asks for an outcome is told that there is none such, is answered, or is parked
    | awaitTask id =>
      simp only [State.handle, State.await, Store.await, Option.some.injEq] at h
      subst h
      split
      · next hawait =>
        split at hawait
        · next hrec => cases hawait; exact .reply hrun hch (.unknown hrec)
        · next r hrec =>
          split at hawait
          · next hresult => cases hawait; exact .reply hrun hch (.known hrec hresult)
          · cases hawait
      · next hawait =>
        split at hawait
        · cases hawait
        · next r hrec =>
          split at hawait
          · cases hawait
          · next hresult => cases hawait; exact .park hrun hch hrec hresult
    | getStoreState => cases h; exact .reply hrun hch .listed
  | started id => cases h; exact .started hrun hch
  | complete id result =>
    simp only [State.handle, State.complete, State.answerAll_eq, Option.some.injEq] at h
    subst h
    exact .complete hrun hch
  | stop =>
    simp only [State.handle, State.halt, State.answerAll_eq, State.pending_stop hch,
      Option.some.injEq] at h
    subst h
    exact .halt hrun hch

/-- Whatever `State.step` does is one of these steps. -/
theorem Step.of_step {e : Event} (h : s.step d e = some t) : Step d s e t := by
  cases e with
  | request r =>
    simp only [State.step, State.request, Option.some.injEq] at h
    subst h
    split
    · next hrun => simpa [State.send, hrun] using Step.request (d := d) (r := r) hrun
    · next hrun => exact .refuse (Bool.eq_false_iff.mpr hrun)
  | stop => cases h; exact .stop
  | process fresh =>
    simp only [State.step] at h
    split at h
    · next hch =>
      split at h
      · next hrun => exact .of_handle hrun hch h
      · cases h
    · cases h
  -- the other events are those of drivers: each needs its driver to be in the phase for it
  | acquire id =>
    simp only [State.step] at h
    split at h
    · next hget =>
      split at h
      · cases h
      · next hfree => cases h; exact .acquire hget hfree
    · cases h
  | announce id =>
    simp only [State.step] at h
    split at h
    · next hget => cases h; exact .announce hget
    · cases h
  | execute id =>
    simp only [State.step] at h
    split at h
    · next hget => cases h; exact .work hget .execute
    · cases h
  | finish id =>
    simp only [State.step] at h
    split at h
    · next hget => cases h; exact .work hget .finish
    · cases h
  | lose id message =>
    simp only [State.step] at h
    split at h
    · next hget => cases h; exact .work hget (.lose message)
    · cases h
  | report id =>
    simp only [State.step] at h
    split at h
    · next hget => cases h; exact .report hget
    · cases h
  | release id =>
    simp only [State.step] at h
    split at h
    · next hget => cases h; exact .release hget
    · cases h

end

/-! ## Runs -/

/-- What a list of events makes of a state, one after the other; nothing if one of them is not
possible. -/
def State.run (d : Dispatcher) : State → List Event → Option State
  | s, [] => some s
  | s, e :: es => (s.step d e).bind fun t => t.run d es

section

variable {d : Dispatcher} {o : Options} {s t : State}

/-- A run can be made in two parts. -/
theorem run_append {es fs : List Event} :
    s.run d (es ++ fs) = (s.run d es).bind fun t => t.run d fs := by
  induction es generalizing s with
  | nil => rfl
  | cons e es ih => simp [State.run, ih, Option.bind_assoc]

/-- Two runs, one after the other, are one. -/
theorem run_trans {u : State} {es fs : List Event} (h : s.run d es = some t)
    (hrest : t.run d fs = some u) : s.run d (es ++ fs) = some u := by
  rw [run_append, h]
  exact hrest

theorem run_single {e : Event} (h : s.step d e = some t) : s.run d [e] = some t := by
  rw [State.run, h]
  rfl

/-- The last event of a run, and the state that it met. -/
theorem run_concat {es : List Event} {e : Event} (h : s.run d (es ++ [e]) = some t) :
    ∃ m, s.run d es = some m ∧ m.step d e = some t := by
  rw [run_append] at h
  obtain ⟨m, hm, hlast⟩ := Option.bind_eq_some_iff.mp h
  obtain ⟨u, hu, hend⟩ := Option.bind_eq_some_iff.mp hlast
  cases hend
  exact ⟨m, hm, hu⟩

/-- What every step keeps, a run keeps from where it starts. -/
theorem run_keeps {P : State → Prop} (hstep : ∀ {s e t}, Step d s e t → P s → P t)
    {es : List Event} (h : s.run d es = some t) (hs : P s) : P t := by
  induction es generalizing s with
  | nil =>
    cases h
    exact hs
  | cons e es ih =>
    obtain ⟨m, hm, hrest⟩ := Option.bind_eq_some_iff.mp h
    exact ih hrest (hstep (.of_step hm) hs)

/-- The same from the middle of a run, where the steps may count on what is there after a run. -/
theorem run_keeps_from {P : State → Prop}
    (hstep : ∀ {es s e t}, (State.new o).run d es = some s → Step d s e t → P s → P t)
    {es fs : List Event} (hs : (State.new o).run d es = some s) (h : s.run d fs = some t)
    (hP : P s) : P t := by
  induction fs generalizing es s with
  | nil =>
    cases h
    exact hP
  | cons e fs ih =>
    obtain ⟨m, hm, hrest⟩ := Option.bind_eq_some_iff.mp h
    exact ih (run_trans hs (run_single hm)) hrest (hstep hs (.of_step hm) hP)

/-- What a new engine has and every step keeps, every run keeps. The property may speak about the
events so far. -/
theorem run_induction {P : List Event → State → Prop} (hnew : P [] (State.new o))
    (hstep : ∀ {es s e t}, (State.new o).run d es = some s →
      (State.new o).run d (es ++ [e]) = some t → P es s → Step d s e t → P (es ++ [e]) t) :
    ∀ {es s}, (State.new o).run d es = some s → P es s := by
  intro es
  -- from the end, since a property of all events so far grows at the end of the list
  induction es using List.reverseRecOn with
  | nil =>
    intro s h
    cases h
    exact hnew
  | append_singleton es e ih =>
    intro s h
    obtain ⟨m, hm, hlast⟩ := run_concat h
    exact hstep hm h (ih hm) (.of_step hlast)

/-- Where the loop does not run any more, the table stays as it is. -/
theorem Step.store_of_stopped {e : Event} (h : Step d s e t) (ht : t.running = false) :
    t.store = s.store := by
  cases h with
  | accept hrun | park hrun | started hrun | complete hrun =>
    rw [show s.running = false from ht] at hrun
    cases hrun
  | stop | announce | report => simp only [State.setPhase, State.send_store]
  | _ => rfl

/-- What the table has as long as the loop runs, it has for good. -/
theorem run_store {P : Store → Prop} (hnew : P (State.new o).store)
    (hrunning : ∀ {es s}, (State.new o).run d es = some s → s.running = true → P s.store)
    {es : List Event} (h : (State.new o).run d es = some s) : P s.store := by
  refine run_induction (P := fun _ s => P s.store) hnew ?_ h
  intro es s e t _ hnext ih hstep
  cases ht : t.running with
  | true => exact hrunning hnext ht
  | false =>
    rw [hstep.store_of_stopped ht]
    exact ih

/-- A run gets to states that can be reached. -/
theorem Reachable.of_run {es : List Event} (h : (State.new o).run d es = some s) :
    Reachable d o s := by
  induction es using List.reverseRecOn generalizing s with
  | nil => cases h; exact .new
  | append_singleton es e ih =>
    obtain ⟨m, hm, hlast⟩ := run_concat h
    exact .step e (ih hm) hlast

end

/-! ## An engine to look at -/

/-- A dispatcher for one task, which returns the text of its arguments. -/
def echo : Dispatcher :=
  ⟨Registry.empty.register "Echo" fun args _ => .ok (.success (.ofString args))⟩

/-- A task for it. -/
def echoTask : Submission := .ofTask "Echo" "[]" "{}"

/-- What a driver does, from its permit to its end. -/
def Event.drive (id : TaskId) : List Event :=
  [.acquire id, .announce id, .execute id, .finish id, .report id, .release id]

end TaskRelay.Engine
