import TaskRelay.Proofs.Engine.Beside
import TaskRelay.Proofs.Engine.History
import TaskRelay.Proofs.Engine.Remote
import TaskRelay.Proofs.Pipe.System

/-!
# Who only looks changes nothing

A text that is no request never gets to the engine, and a request that only looks leaves the table
as it is: at most it is parked with the task whose outcome it waits for (`Framed`). An announcement
or a report changes the record of its own task.

So an engine may have any number of visitors, who send texts that are refused and requests that only
look, at any time. `Visited` is a run with visitors, together with what is left of it without them:

> `Visited.exists_run`: what is left is a run too, in which everybody else is answered the same.

> `exists_visited`: visitors may come at any time of any run.

> `unchanged_of_visited`: so nothing that they do changes what anybody else is told.
-/

namespace TaskRelay.Engine

/-! ## What the loop leaves alone -/

/-- What the loop makes of the command in front, and which parts of the table it leaves as they
are. -/
structure Framed (d : Dispatcher) (s : State) (rest : List Command) (fresh : TaskId) : Prop where
  unknown : ∀ {ticket : Ticket} {id : TaskId}, s.channel = .append ticket (.awaitTask id) :: rest →
    s.store.records[id]? = none →
    s.step d (.process fresh) = some { s with
      channel := rest
      answers := (ticket, .error (.protocol ("Unknown task " ++ id.text))) :: s.answers }
  listed : ∀ {ticket : Ticket}, s.channel = .append ticket .getStoreState :: rest →
    s.step d (.process fresh) = some { s with
      channel := rest, answers := (ticket, .ok s.store.snapshot.encode) :: s.answers }
  resolved : ∀ {ticket : Ticket} {id : TaskId} {r : Record} {result : Envelope},
    s.channel = .append ticket (.awaitTask id) :: rest → s.store.records[id]? = some r →
    r.result = some result →
    s.step d (.process fresh) = some { s with
      channel := rest, answers := (ticket, .ok result.encode) :: s.answers }
  parked : ∀ {ticket : Ticket} {id : TaskId} {r : Record},
    s.channel = .append ticket (.awaitTask id) :: rest → s.store.records[id]? = some r →
    r.result = none →
    ∃ store, s.step d (.process fresh) = some { s with channel := rest, store := store } ∧
      store.records[id]? = some { r with waiters := r.waiters ++ [ticket] } ∧
      store.order = s.store.order ∧
      ∀ other : TaskId, other ≠ id → store.records[other]? = s.store.records[other]?
  started : ∀ {id : TaskId}, s.channel = .started id :: rest →
    ∃ t, s.step d (.process fresh) = some t ∧ t.store.order = s.store.order ∧
      ∀ other : TaskId, other ≠ id → t.store.records[other]? = s.store.records[other]?
  complete : ∀ {id : TaskId} {result : Envelope}, s.channel = .complete id result :: rest →
    ∃ t, s.step d (.process fresh) = some t ∧ t.store.order = s.store.order ∧
      ∀ other : TaskId, other ≠ id → t.store.records[other]? = s.store.records[other]?

section

variable {d : Dispatcher} {s : State} {rest : List Command} {fresh : TaskId}

/-- A change of one record leaves the list of tasks and every other record as they are. -/
theorem Store.modify_frame (s : Store) (id : TaskId) (f : Record → Record) :
    (s.modify id f).order = s.order ∧
      ∀ other : TaskId, other ≠ id → (s.modify id f).records[other]? = s.records[other]? :=
  ⟨rfl, fun other ho => by rw [records_modify, if_neg (Ne.symm ho)]⟩

/-- While the loop runs these are its steps. -/
theorem framed_of_running (hrun : s.running = true) : Framed d s rest fresh where
  unknown hch hrec := by
    rw [State.step_process hrun hch, State.handle, State.await, Store.await, hrec]
    rfl
  listed hch := State.step_process hrun hch
  resolved hch hrec hresult := by
    rw [State.step_process hrun hch, State.handle, State.await, Store.await, hrec]
    dsimp only
    rw [hresult]
    rfl
  parked := by
    intro ticket id r hch hrec hresult
    refine ⟨s.store.modify id (.park ticket), ?_, ?_, s.store.modify_frame id (.park ticket)⟩
    · rw [State.step_process hrun hch, State.handle, State.await, Store.await, hrec]
      dsimp only
      rw [hresult]
    · rw [Store.records_modify, if_pos rfl, hrec]
      rfl
  started hch := ⟨_, State.step_process hrun hch, s.store.modify_frame _ .start⟩
  complete := by
    intro id result hch
    refine ⟨_, State.step_process hrun hch, ?_⟩
    rw [State.complete, State.answerAll_eq]
    exact s.store.modify_frame id (.complete result)

end

/-! ## Texts that are no requests -/

/-- Whoever sends a request asks the engine for it. -/
theorem post_of_decode {text : String} {request : Request}
    (h : Request.decode text = .ok request) (s : State) :
    (Pipe.post text s).2 = s.request request := by
  simp only [Pipe.post, h]

/-- A text that is no request is refused by whoever takes messages to an engine, with what is wrong
with it, and the engine hears nothing of it. -/
structure Unheard (text : String) (f : Failure) : Prop where
  protocol : ∃ e, Request.parse text = .error e ∧ f = .protocol e.message
  posted : ∀ s : State, Pipe.post text s = (.error f, s)
  live : ∀ {ω : Type} (e : Setting ω) (l : Live ω), e.connection text l = (.error f, l)
  scheduled : ∀ (d : Dispatcher) (l : Scheduled),
    Scheduled.connection d text (some l) = (.error f, some l)

/-- A text that cannot be decoded is refused at all three doors. -/
theorem unheard_of_decode {text : String} {f : Failure} (h : Request.decode text = .error f) :
    Unheard text f where
  protocol := by
    unfold Request.decode at h
    cases hparse : Request.parse text with
    | ok r =>
      rw [hparse] at h
      cases h
    | error e =>
      rw [hparse] at h
      exact ⟨e, rfl, (Except.error.inj h).symm⟩
  posted s := by simp only [Pipe.post, h]
  live e l := by simp only [Setting.connection, Live.ask, h]
  scheduled d l := by simp only [Scheduled.connection, h]

/-! ## Runs with visitors -/

/-- What happens at an engine: an event, or a visitor sends a text. -/
inductive Incident where
  | event (e : Event)
  | message (text : String)

def Incident.event? : Incident → Option Event
  | .event e => some e
  | .message _ => none

def Incident.message? : Incident → Option String
  | .event _ => none
  | .message text => some text

/-- A visitor may send a text: it is no request, or one that only looks. -/
inductive Admissible (text : String) : Prop
  | rejected {f : Failure} (hdecode : Request.decode text = .error f)
  | looks {request : Request} (hdecode : Request.decode text = .ok request)
      (hreadOnly : request.isReadOnly = true)

/-- From a state on, incidents happen and lead to a state at the end; the events are what is left of
them without the visitors. -/
inductive Visited (d : Dispatcher) (vs : Visitors) :
    State → List Incident → List Event → State → Prop
  | nil {l : State} : Visited d vs l [] [] l
  | own {l m n : State} {e : Event} {long : List Incident} {short : List Event}
      (hown : l.isVisit vs e = false) (hstep : l.step d e = some m)
      (hrest : Visited d vs m long short n) : Visited d vs l (.event e :: long) (e :: short) n
  /-- The loop gets to the request of a visitor. -/
  | serve {l m n : State} {fresh : TaskId} {ticket : Ticket} {request : Request}
      {rest : List Command} {long : List Incident} {short : List Event}
      (hfront : l.channel = .append ticket request :: rest) (hvisitor : vs ticket = true)
      (hstep : l.step d (.process fresh) = some m) (hrest : Visited d vs m long short n) :
      Visited d vs l (.event (.process fresh) :: long) short n
  | rejected {l n : State} {text : String} {f : Failure} {long : List Incident}
      {short : List Event} (hdecode : Request.decode text = .error f)
      (hrest : Visited d vs (Pipe.post text l).2 long short n) :
      Visited d vs l (.message text :: long) short n
  | visit {l n : State} {text : String} {request : Request} {long : List Incident}
      {short : List Event} (hdecode : Request.decode text = .ok request)
      (hreadOnly : request.isReadOnly = true) (hvisitor : vs l.asked.size = true)
      (hrest : Visited d vs (Pipe.post text l).2 long short n) :
      Visited d vs l (.message text :: long) short n

section

variable {d : Dispatcher} {o : Options} {vs : Visitors} {s t l m n : State} {e : Event}
  {long plan : List Incident} {short : List Event}

/-! ### Without the visitors -/

/-- A run goes on beside the one with visitors. -/
theorem Visited.exists_run (h : Visited d vs l long short n) (hs : Beside vs s l) :
    ∃ t, s.run d short = some t ∧ Beside vs t n := by
  induction h generalizing s with
  | nil => exact ⟨s, rfl, hs⟩
  | own hown hstep _ ih =>
    have hboth := hs.step (d := d) hown
    rw [hstep] at hboth
    generalize hfirst : s.step d _ = first at hboth
    cases hboth with
    | some hnext =>
      obtain ⟨t, hrun, ht⟩ := ih hnext
      refine ⟨t, ?_, ht⟩
      rw [State.run, hfirst]
      exact hrun
  -- without the visitor there is nothing to do here
  | serve hfront hvisitor hstep _ ih =>
    have hrun := (Step.of_step hstep).running_of_process
    obtain ⟨m, hserve, hnext, -⟩ := hs.exists_serve (d := d) hrun hfront hvisitor _
    rw [hstep] at hserve
    cases hserve
    exact ih hnext
  | @rejected l _ _ _ _ _ hdecode _ ih =>
    refine ih ?_
    rw [(unheard_of_decode hdecode).posted l]
    exact hs
  | @visit l _ _ _ _ _ hdecode hreadOnly hvisitor _ ih =>
    refine ih ?_
    rw [post_of_decode hdecode l]
    exact hs.visit hvisitor hreadOnly

/-! ### Visitors at any time -/

/-- Whether the ticket that somebody takes is a visitor's; nothing if no ticket is taken. -/
def Incident.ticket? : Incident → Option Bool
  | .event (.request _) => some false
  | .event _ => none
  | .message text =>
    match Request.decode text with
    | .ok _ => some true
    | .error _ => none

/-- The tickets of the visitors that are going to come, in an engine that has just been started. -/
def visitorsOf (plan : List Incident) : Visitors := fun ticket =>
  (plan.filterMap Incident.ticket?)[ticket]?.getD false

/-- From a state on, the visitors are those that are going to come. -/
def Expects (vs : Visitors) (plan : List Incident) (l : State) : Prop :=
  ∀ k b, (plan.filterMap Incident.ticket?)[k]? = some b → vs (l.asked.size + k) = b

/-- In an engine that has just been started all visitors are still to come. -/
theorem expects_visitorsOf (plan : List Incident) :
    Expects (visitorsOf plan) plan (State.new o) := by
  intro k b hb
  have hsize : (State.new o).asked.size + k = k := Nat.zero_add k
  rw [hsize, visitorsOf, hb]
  rfl

/-- Only a request takes a ticket. -/
theorem Step.asked_size (h : Step d s e t) :
    t.asked.size = s.asked.size + (Incident.event e).ticket?.toList.length := by
  cases h with
  | request | refuse => exact Array.size_push _
  | stop | announce | report =>
    simp only [State.setPhase, State.send_asked]
    rfl
  | work _ hwork => cases hwork <;> rfl
  | _ => rfl

/-- What is expected after an incident that takes its ticket. -/
theorem Expects.next {i : Incident} (h : Expects vs (i :: plan) l)
    (hsize : m.asked.size = l.asked.size + i.ticket?.toList.length) : Expects vs plan m := by
  intro k b hb
  unfold Expects at h
  rw [List.filterMap_cons] at h
  rw [hsize]
  cases hi : i.ticket? with
  | none =>
    rw [hi] at h
    exact h k b hb
  | some mark =>
    rw [hi] at h
    have hshift : l.asked.size + 1 + k = l.asked.size + (k + 1) := by omega
    show vs (l.asked.size + 1 + k) = b
    rw [hshift]
    exact h (k + 1) b hb

/-- The next ticket is a visitor's if the next incident is a visit. -/
theorem Expects.front {i : Incident} {b : Bool} (h : Expects vs (i :: plan) l)
    (hi : i.ticket? = some b) : vs l.asked.size = b := by
  refine h 0 b ?_
  rw [List.filterMap_cons, hi]
  rfl

/-- What leads from one state to another by serving visitors only. -/
structure Serves (d : Dispatcher) (vs : Visitors) (l : State) (serves : List Incident)
    (m : State) : Prop where
  asked : m.asked = l.asked
  messages : serves.filterMap Incident.message? = []
  visited : ∀ {long short n}, Visited d vs m long short n → Visited d vs l (serves ++ long) short n

/-- The loop can serve all visitors that are in front. -/
theorem exists_serves (h : Beside vs s l) (hrun : l.running = true) :
    ∃ serves m, Serves d vs l serves m ∧ Beside vs s m ∧
      ∀ fresh, m.isVisit vs (.process fresh) = false := by
  generalize hch : l.channel = channel
  -- on the channel, from which each visitor is taken
  induction channel generalizing l with
  | nil =>
    refine ⟨[], l, ⟨rfl, rfl, id⟩, h, fun fresh => ?_⟩
    rw [State.isVisit, hch]
  | cons c rest ih =>
    cases hvisit : l.isVisit vs (.process ⟨""⟩) with
    | false => exact ⟨[], l, ⟨rfl, rfl, id⟩, h, fun _ => hvisit⟩
    | true =>
      rw [State.isVisit, hch] at hvisit
      cases c with
      | append ticket request =>
        obtain ⟨m, hstep, hnext, hrest, hasked, hstill⟩ :=
          h.exists_serve (d := d) hrun hch hvisit ⟨""⟩
        obtain ⟨serves, n, hserves, hlast, hfree⟩ := ih hnext hstill hrest
        refine ⟨.event (.process ⟨""⟩) :: serves, n, ⟨?_, ?_, fun hmore => ?_⟩, hlast, hfree⟩
        · exact hserves.asked.trans hasked
        · exact hserves.messages
        · exact .serve hch hvisit hstep (hserves.visited hmore)
      | started | complete | stop => cases hvisit

/-- The next event of the others is possible, once the visitors in front of it are served. -/
theorem exists_ready (h : Beside vs s l) (hstep : s.step d e = some t)
    (hexpects : Expects vs (.event e :: plan) l) :
    ∃ serves m, Serves d vs l serves m ∧ Beside vs s m ∧ m.isVisit vs e = false := by
  cases e with
  | process fresh =>
    have hrun : l.running = true :=
      h.running.symm.trans (Step.of_step hstep).running_of_process
    obtain ⟨serves, m, hserves, hm, hfree⟩ := exists_serves (d := d) h hrun
    exact ⟨serves, m, hserves, hm, hfree fresh⟩
  | request => exact ⟨[], l, ⟨rfl, rfl, id⟩, h, hexpects.front rfl⟩
  | _ => exact ⟨[], l, ⟨rfl, rfl, id⟩, h, rfl⟩

/-- A run without the visitors can be made with all of them, one incident after the other. -/
theorem exists_visited_from (h : Beside vs s l)
    (hrun : s.run d (plan.filterMap Incident.event?) = some t)
    (hplan : ∀ text, .message text ∈ plan → Admissible text) (hexpects : Expects vs plan l) :
    ∃ long n, Visited d vs l long (plan.filterMap Incident.event?) n ∧ plan.Sublist long ∧
      long.filterMap Incident.message? = plan.filterMap Incident.message? := by
  -- on the plan; before each event of the others the visitors in front of it are served
  induction plan generalizing s l with
  | nil => exact ⟨[], l, .nil, .slnil, rfl⟩
  | cons i plan ih =>
    have hlater : ∀ text, .message text ∈ plan → Admissible text := fun text hmem =>
      hplan text (List.mem_cons_of_mem _ hmem)
    cases i with
    | message text =>
      cases hplan text (List.mem_cons_self ..) with
      | @rejected f hdecode =>
        have hnone : (Incident.message text).ticket? = none := by
          rw [Incident.ticket?, hdecode]
        have hnext : Expects vs plan l := hexpects.next (by rw [hnone]; rfl)
        obtain ⟨long, n, hvisited, hsub, hmessages⟩ := ih h hrun hlater hnext
        refine ⟨_, n, .rejected hdecode ?_, hsub.cons_cons _, congrArg (text :: ·) hmessages⟩
        rw [(unheard_of_decode hdecode).posted l]
        exact hvisited
      | @looks request hdecode hreadOnly =>
        have hticket : (Incident.message text).ticket? = some true := by
          rw [Incident.ticket?, hdecode]
        have hvisitor := hexpects.front hticket
        have hnext : Expects vs plan (l.request request) := by
          refine hexpects.next ?_
          rw [hticket, State.request_asked, Array.size_push]
          rfl
        obtain ⟨long, n, hvisited, hsub, hmessages⟩ :=
          ih (h.visit hvisitor hreadOnly) hrun hlater hnext
        refine ⟨_, n, .visit hdecode hreadOnly hvisitor ?_, hsub.cons_cons _,
          congrArg (text :: ·) hmessages⟩
        rw [post_of_decode hdecode]
        exact hvisited
    | event e =>
      obtain ⟨s', hstep, hrest⟩ := Option.bind_eq_some_iff.mp hrun
      obtain ⟨serves, m, hserves, hm, hown⟩ := exists_ready h hstep hexpects
      have hboth := hm.step (d := d) hown
      rw [hstep] at hboth
      generalize hsecond : m.step d e = second at hboth
      cases hboth with
      | @some _ m' hnext =>
        have hsize := (Step.of_step hsecond).asked_size
        rw [hserves.asked] at hsize
        obtain ⟨long, n, hvisited, hsub, hmessages⟩ :=
          ih hnext hrest hlater (hexpects.next hsize)
        refine ⟨serves ++ .event e :: long, n, hserves.visited (.own hown hsecond hvisited),
          (hsub.cons_cons _).trans (List.sublist_append_right ..), ?_⟩
        rw [List.filterMap_append, hserves.messages]
        exact hmessages

/-- Visitors may come at any time of any run. -/
theorem exists_visited (hrun : (State.new o).run d (plan.filterMap Incident.event?) = some t)
    (hplan : ∀ text, .message text ∈ plan → Admissible text) :
    ∃ vs long n, Visited d vs (State.new o) long (plan.filterMap Incident.event?) n ∧
      plan.Sublist long ∧ long.filterMap Incident.message? = plan.filterMap Incident.message? := by
  have hnew : Beside (visitorsOf plan) (State.new o) (State.new o) := Beside.new
  exact ⟨visitorsOf plan, exists_visited_from hnew hrun hplan (expects_visitorsOf plan)⟩

/-! ## Nothing changes -/

/-- A text that is no request is refused, and the engine hears nothing of it; of the table, the loop
leaves alone what a command is not about, and all of it for a request that only looks, except that
such a request may be parked. So what is left of a run with visitors is a run, which has the
requests of the others and no more, with the same answers; and visitors may come at any time of any
run. -/
theorem unchanged_of_visited :
    (∀ {text : String} {f : Failure}, Request.decode text = .error f → Unheard text f) ∧
    (∀ {s : State} {rest : List Command} {fresh : TaskId}, s.running = true →
      Framed d s rest fresh) ∧
    (∀ {vs : Visitors} {long : List Incident} {short : List Event} {l : State},
      Visited d vs (State.new o) long short l →
      ∃ s, (State.new o).run d short = some s ∧
        (∀ ticket, vs ticket = false → s.asked[rank vs ticket]? = l.asked[ticket]? ∧
          s.answer? (rank vs ticket) = l.answer? ticket) ∧
        ∀ home < s.asked.size, ∃ ticket < l.asked.size, vs ticket = false ∧
          rank vs ticket = home) ∧
    ∀ {plan : List Incident} {t : State},
      (State.new o).run d (plan.filterMap Incident.event?) = some t →
      (∀ text, .message text ∈ plan → Admissible text) →
      ∃ vs long l, Visited d vs (State.new o) long (plan.filterMap Incident.event?) l ∧
        plan.Sublist long ∧
        long.filterMap Incident.message? = plan.filterMap Incident.message? := by
  refine ⟨unheard_of_decode, framed_of_running, fun {vs long short l} hvisited => ?_,
    exists_visited⟩
  obtain ⟨s, hrun, hbeside⟩ := hvisited.exists_run Beside.new
  refine ⟨s, hrun, fun ticket hown => ⟨hbeside.asked ticket hown, hbeside.answer?_eq hown⟩, ?_⟩
  intro home hhome
  rw [hbeside.size] at hhome
  exact exists_rank_eq hhome

/-- Somebody sends half a text and somebody waits for a task that is not there yet, and then the
task runs. -/
def visitedOnce : List Incident :=
  [.message "\x7b", .message (Request.awaitTask ⟨"a"⟩).encode] ++ runOnce.map .event

/-- Who waits for a task that is not there is told so. Who submitted the task gets the same answer
with the two visitors and without them. -/
theorem unchanged_of_visitedOnce : ∃ f told vs long l alone,
    Unheard "\x7b" f ∧
    ((State.new .default).request (.awaitTask ⟨"a"⟩)).step echo (.process ⟨""⟩) = some told ∧
    told.answer? 0 = some (.error (.protocol "Unknown task a")) ∧ told.store = .empty ∧
    Visited echo vs (State.new .default) long runOnce l ∧ visitedOnce.Sublist long ∧
    (State.new .default).run echo runOnce = some alone ∧
    ∀ ticket, vs ticket = false → alone.answer? (rank vs ticket) = l.answer? ticket := by
  obtain ⟨hunheard, hframed, hwithout, hvisited⟩ :=
    unchanged_of_visited (d := echo) (o := .default)
  obtain ⟨f, hdecode⟩ : ∃ f, Request.decode "\x7b" = .error f := ⟨_, rfl⟩
  have hunknown : ((State.new .default).request (.awaitTask ⟨"a"⟩)).step echo (.process ⟨""⟩) =
      some _ := (hframed rfl).unknown rfl Std.HashMap.getElem?_empty
  obtain ⟨last, -, hlast, -⟩ := exists_run_runOnce
  have hrun : (State.new .default).run echo (visitedOnce.filterMap Incident.event?) = some last :=
    hlast
  have hadmissible : ∀ text, .message text ∈ visitedOnce → Admissible text := by
    intro text hmem
    have htext : text = "\x7b" ∨ text = (Request.awaitTask ⟨"a"⟩).encode := by
      simpa [visitedOnce] using hmem
    obtain rfl | rfl := htext
    · exact .rejected hdecode
    · exact .looks (Request.decode_encode _) rfl
  obtain ⟨vs, long, l, hlong, hsub, -⟩ := hvisited hrun hadmissible
  obtain ⟨alone, halone, hanswers, -⟩ := hwithout hlong
  exact ⟨f, _, vs, long, l, alone, hunheard hdecode, hunknown, rfl, rfl, hlong, hsub, halone,
    fun ticket hown => (hanswers ticket hown).2⟩

end

end TaskRelay.Engine
