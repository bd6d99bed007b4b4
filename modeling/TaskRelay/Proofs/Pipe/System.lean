import TaskRelay.Pipe.System
import TaskRelay.Proofs.Engine.Undisturbed
import TaskRelay.Proofs.Pipe.Step

/-!
# What one step of a pipe with its pool and its engine can do

`System.Step` lists what an event makes of a system, so that no other proof opens `System.step`. As
messages are requests that were written by clients, what is taken to the engine is a request, under
the next ticket.

As far as the engine is concerned, a run of a system is an undisturbed run: requests are made, and
the engine does what it does by itself.

> `System.Step.engine_run`: what a step of a system is for the engine.

> `System.run_induction`: what holds of a new system and is kept by every step holds after every
> run, together with the run of the engine.
-/

namespace TaskRelay

/-- What a call submits; nothing if its arguments were refused. -/
def Call.submission? (c : Call) : Option Submission :=
  match c.arguments with
  | .error _ => none
  | .ok (args, kwargs) => some (.ofTask c.definition args kwargs)

namespace Pipe

/-- A slot that waits is that of a call that submits its texts. -/
theorem submission?_of_slotOf {c : Call} {definition args kwargs : String}
    (h : slotOf c = .pending definition args kwargs) :
    c.submission? = some (.ofTask definition args kwargs) := by
  unfold slotOf at h
  unfold Call.submission?
  cases harguments : c.arguments with
  | error f => rw [harguments] at h; cases h
  | ok r =>
    rw [harguments] at h
    cases h
    rfl

/-- The engine takes a request from its message. -/
theorem post_encode (r : Request) (s : Engine.State) :
    post r.encode s = (.ok s.asked.size, s.request r) := by
  simp only [post, Request.decode_encode]

namespace System

section

variable {d : Dispatcher} {registry : Registry} {limits : Pool.Limits} {opened : Pool.State}
  {o : Engine.Options} {calls : List Call} {p q : System} {e : Event} {es : List Engine.Event}

/-! ## The possibilities -/

/-- One step, by what it does. -/
inductive Step (d : Dispatcher) (registry : Registry) (p : System) : Event → System → Prop
  | call {definition args kwargs : String} {pool : Pool.State} (hfree : p.isFree = true)
      (hslot : p.pipe.slots[p.made]? = some (.pending definition args kwargs))
      (hpool : p.pool.step (.call p.made) = some pool) :
      Step d registry p .call { p with pool := pool, made := p.made + 1 }
  | pass {slot : Slot} (hslot : p.pipe.slots[p.made]? = some slot)
      (hfilled : slot.isPending = false) :
      Step d registry p .call { p with made := p.made + 1 }
  | pool {e : Pool.Event} {pool : Pool.State} (hown : e.isOwn = true)
      (hfilled : ∀ {place slot}, p.pool.ended? e = some place → p.pipe.slots[place]? = some slot →
        slot.isPending = false)
      (hpool : p.pool.step e = some pool) : Step d registry p (.pool e) { p with pool := pool }
  | submit {place : Nat} {definition args kwargs : String}
      (hslot : p.pipe.slots[place]? = some (.pending definition args kwargs))
      (hnew : Rows.get? place p.pipe.world.submissions = none) :
      Step d registry p (.submit place)
        (p.toDesk {
          engine := p.engine.request (.newTask (.ofTask definition args kwargs))
          submissions := p.pipe.world.submissions ++ [(place, .ok p.engine.asked.size)]
          question := p.pipe.world.question })
  | fill {place : Nat} {definition args kwargs : String} {posted : Posted}
      {response : Engine.Response}
      (hslot : p.pipe.slots[place]? = some (.pending definition args kwargs))
      (hposted : Rows.get? place p.pipe.world.submissions = some posted)
      (hresponse : response? p.engine posted = some response) :
      Step d registry p (.fill place)
        { p with
          pipe := { p.pipe with
            slots := p.pipe.slots.setIfInBounds place (Pipe.fill (.ok response)) } }
  | engine {e : Engine.Event} {engine : Engine.State} (hown : e.isOwn = true)
      (hengine : p.engine.step d e = some engine) :
      Step d registry p (.engine e) (p.toDesk { p.pipe.world with engine := engine })
  | ask {id : TaskId} (hslot : p.pipe.slots[p.pipe.outputs.size]? = some (.answered (.ok id)))
      (hnone : p.pipe.world.question = none) :
      Step d registry p .ask
        (p.toDesk {
          engine := p.engine.request (.awaitTask id)
          submissions := p.pipe.world.submissions
          question := some (.ok p.engine.asked.size) })
  | look {posted : Posted} {response : Engine.Response}
      (hquestion : p.pipe.world.question = some posted)
      (hresponse : response? p.engine posted = some response) :
      Step d registry p .look (p.take (readOutput registry response))
  | refuse {slot : Slot} {f : Failure} (hslot : p.pipe.slots[p.pipe.outputs.size]? = some slot)
      (hfailure : slot.failure? = some f) : Step d registry p .look (p.take (.error f))
  | list {values : List Value} (houtcome : p.pipe.outcome? = some (.ok values))
      (hnone : p.listing = none) :
      Step d registry p .list
        { p.toDesk { p.pipe.world with engine := p.engine.request .getStoreState } with
          listing := some (.ok p.engine.asked.size) }

theorem Step.of_callNext (h : p.callNext = some q) : Step d registry p .call q := by
  unfold callNext at h
  split at h
  · next hfree hslot =>
    obtain ⟨pool, hpool, rfl⟩ := Option.map_eq_some_iff.mp h
    exact .call hfree hslot hpool
  · next slot hno _ hslot =>
    cases h
    refine .pass hslot ?_
    cases slot with
    | pending => exact (hno _ _ _ rfl).elim
    | answered | lost => rfl
  · cases h

theorem Step.of_goOn {e : Pool.Event} (h : p.goOn e = some q) :
    Step d registry p (.pool e) q := by
  unfold goOn at h
  split at h
  · cases h
  · cases h
  · next hown hno =>
    obtain ⟨pool, hpool, rfl⟩ := Option.map_eq_some_iff.mp h
    refine .pool hown (fun {place slot} hended hslot => ?_) hpool
    rw [hended] at hno
    cases slot with
    | pending definition args kwargs => exact absurd hslot (hno definition args kwargs)
    | answered | lost => rfl

theorem Step.of_submit {place : Nat} (h : p.submit place = some q) :
    Step d registry p (.submit place) q := by
  unfold System.submit at h
  dsimp only at h
  split at h
  · next hslot hnew =>
    rw [post_encode] at h
    cases h
    exact .submit hslot hnew
  · cases h

theorem Step.of_fillSlot {place : Nat} (h : p.fillSlot place = some q) :
    Step d registry p (.fill place) q := by
  unfold fillSlot at h
  split at h
  · next hslot hbind =>
    obtain ⟨posted, hposted, hresponse⟩ := Option.bind_eq_some_iff.mp hbind
    cases h
    exact .fill hslot hposted hresponse
  · cases h

theorem Step.of_ask (h : p.ask = some q) : Step d registry p .ask q := by
  unfold System.ask at h
  dsimp only at h
  split at h
  · next hslot hnone =>
    rw [post_encode] at h
    cases h
    exact .ask hslot hnone
  · cases h

theorem Step.of_look (h : p.look registry = some q) : Step d registry p .look q := by
  unfold System.look at h
  split at h
  · next hquestion =>
    obtain ⟨response, hresponse, rfl⟩ := Option.map_eq_some_iff.mp h
    exact .look hquestion hresponse
  · next hslot =>
    cases h
    exact .refuse hslot rfl
  · next hslot =>
    cases h
    exact .refuse hslot rfl
  · cases h

theorem Step.of_list (h : p.list = some q) : Step d registry p .list q := by
  unfold System.list at h
  dsimp only at h
  split at h
  · next houtcome hnone =>
    rw [post_encode] at h
    cases h
    exact .list houtcome hnone
  · cases h

/-- Whatever a system does is one of these steps. -/
theorem Step.of_step (h : p.step d registry e = some q) : Step d registry p e q := by
  cases e with
  | call => exact .of_callNext h
  | pool e => exact .of_goOn h
  | submit place => exact .of_submit h
  | fill place => exact .of_fillSlot h
  | engine e =>
    simp only [step] at h
    split at h
    · next hown =>
      obtain ⟨engine, hengine, rfl⟩ := Option.map_eq_some_iff.mp h
      exact .engine hown hengine
    · cases h
  | ask => exact .of_ask h
  | look => exact .of_look h
  | list => exact .of_list h

/-- The pool can do what it does by itself, as long as no job ends whose slot is pending. -/
theorem step_pool {e : Pool.Event} {pool : Pool.State} (hown : e.isOwn = true)
    (hfilled : ∀ {place slot}, p.pool.ended? e = some place → p.pipe.slots[place]? = some slot →
      slot.isPending = false)
    (hpool : p.pool.step e = some pool) :
    p.step d registry (.pool e) = some { p with pool := pool } := by
  simp only [step, goOn, hown]
  split
  · next heq => cases heq
  · next hended =>
    obtain ⟨place, hplace, hslot⟩ := Option.bind_eq_some_iff.mp hended
    cases hfilled hplace hslot
  · rw [hpool]
    rfl

/-! ## What a step is for the engine -/

section

variable (p : System) (r : Except Failure Value)

@[simp] theorem take_engine : (p.take r).engine = p.engine := by cases r <;> rfl
@[simp] theorem take_pool : (p.take r).pool = p.pool := by cases r <;> rfl
@[simp] theorem take_made : (p.take r).made = p.made := by cases r <;> rfl
@[simp] theorem take_listing : (p.take r).listing = p.listing := by cases r <;> rfl
@[simp] theorem take_slots : (p.take r).pipe.slots = p.pipe.slots := by cases r <;> rfl
@[simp] theorem take_submissions :
    (p.take r).pipe.world.submissions = p.pipe.world.submissions := by cases r <;> rfl

end

/-- At the engine one step is a run, in which nobody stops it. -/
theorem Step.engine_run (h : Step d registry p e q) :
    ∃ es, Engine.Undisturbed es ∧ p.engine.run d es = some q.engine := by
  cases h with
  | submit | ask | list => exact ⟨_, .request _, Engine.run_single rfl⟩
  | engine hown hengine => exact ⟨_, .of_own hown, Engine.run_single hengine⟩
  | call | pass | pool | fill => exact ⟨[], nofun, rfl⟩
  | look | refuse => exact ⟨[], nofun, congrArg some (p.take_engine _).symm⟩

/-- What was asked is asked for good. -/
theorem Step.asked {ticket : Engine.Ticket} {request : Request} (h : Step d registry p e q)
    (hasked : p.engine.asked[ticket]? = some request) :
    q.engine.asked[ticket]? = some request := by
  obtain ⟨es, -, hrun⟩ := h.engine_run
  exact Engine.run_keeps (P := fun s => s.asked[ticket]? = some request)
    (fun hstep hs => hstep.asked hs) hrun hasked

/-- Answers are given for good. -/
theorem Step.answers_subset (h : Step d registry p e q) : p.engine.answers ⊆ q.engine.answers := by
  obtain ⟨es, -, hrun⟩ := h.engine_run
  exact (Engine.run_answers_suffix hrun).subset

/-- What has happened at the engine. -/
structure History (d : Dispatcher) (o : Engine.Options) (es : List Engine.Event) (p : System) :
    Prop where
  run : (Engine.State.new o).run d es = some p.engine
  undisturbed : Engine.Undisturbed es

/-- What happens at the engine is added to what has happened. -/
theorem History.append {fs : List Engine.Event} (h : History d o es p)
    (hfs : Engine.Undisturbed fs) (hrun : p.engine.run d fs = some q.engine) :
    History d o (es ++ fs) q :=
  ⟨Engine.run_trans h.run hrun, h.undisturbed.append hfs⟩

/-! ## Runs -/

theorem run_append {es fs : List Event} :
    p.run d registry (es ++ fs) = (p.run d registry es).bind fun q => q.run d registry fs :=
  List.foldlM_append

/-- What a new system has and every step keeps, every run keeps. The property may speak about what
has happened at the engine. -/
theorem run_induction {P : List Engine.Event → System → Prop} (hnew : P [] (new opened o calls))
    (hstep : ∀ {es fs p e q}, History d o es p → P es p → Step d registry p e q →
      Engine.Undisturbed fs → p.engine.run d fs = some q.engine → P (es ++ fs) q) :
    ∀ {events p}, (new opened o calls).run d registry events = some p →
      ∃ es, History d o es p ∧ P es p := by
  intro events
  induction events using List.reverseRecOn with
  | nil =>
    intro p h
    cases h
    exact ⟨[], ⟨rfl, nofun⟩, hnew⟩
  | append_singleton events e ih =>
    intro q h
    rw [run_append] at h
    obtain ⟨p, hp, hlast⟩ := Option.bind_eq_some_iff.mp h
    obtain ⟨q, hq, hnil⟩ := Option.bind_eq_some_iff.mp hlast
    cases hnil
    obtain ⟨es, hhistory, hP⟩ := ih hp
    obtain ⟨fs, hfs, hrun⟩ := (Step.of_step hq).engine_run
    exact ⟨es ++ fs, hhistory.append hfs hrun, hstep hhistory hP (.of_step hq) hfs hrun⟩

/-! ## Slots -/

/-- Slots are filled, and nothing else happens to them. -/
theorem Step.slot (h : Step d registry p e q) {place : Nat} {slot : Slot}
    (hslot : q.pipe.slots[place]? = some slot) : p.pipe.slots[place]? = some slot ∨
      ∃ definition args kwargs posted response,
        p.pipe.slots[place]? = some (.pending definition args kwargs) ∧
        Rows.get? place p.pipe.world.submissions = some posted ∧
        response? p.engine posted = some response ∧ slot = Pipe.fill (.ok response) := by
  cases h with
  | @fill other definition args kwargs posted response hpending hposted hresponse =>
    dsimp only at hslot
    by_cases hsame : other = place
    · subst hsame
      have hlt := (Array.getElem?_eq_some_iff.mp hpending).1
      rw [Array.getElem?_setIfInBounds_self_of_lt hlt] at hslot
      cases hslot
      exact .inr ⟨_, _, _, _, _, hpending, hposted, hresponse, rfl⟩
    · rw [Array.getElem?_setIfInBounds_ne hsame] at hslot
      exact .inl hslot
  | look | refuse =>
    rw [take_slots] at hslot
    exact .inl hslot
  | call | pass | pool | submit | engine | ask | list => exact .inl hslot

/-- No step adds a slot. -/
theorem Step.size_slots (h : Step d registry p e q) :
    q.pipe.slots.size = p.pipe.slots.size := by
  cases h with
  | fill => exact Array.size_setIfInBounds
  | look | refuse => rw [take_slots]
  | call | pass | pool | submit | engine | ask | list => rfl

/-- A slot that is filled stays as it is. -/
theorem Step.slot_kept (h : Step d registry p e q) {place : Nat} {slot : Slot}
    (hslot : p.pipe.slots[place]? = some slot) (hfilled : slot.isPending = false) :
    q.pipe.slots[place]? = some slot := by
  cases h with
  | @fill other definition args kwargs posted response hpending =>
    have hne : other ≠ place := by
      rintro rfl
      rw [hpending] at hslot
      cases hslot
      cases hfilled
    rw [Array.getElem?_setIfInBounds_ne hne]
    exact hslot
  | look | refuse =>
    rw [take_slots]
    exact hslot
  | call | pass | pool | submit | engine | ask | list => exact hslot

/-- A slot that is pending has always been. -/
theorem Step.pending (h : Step d registry p e q) {place : Nat} {slot : Slot}
    (hslot : q.pipe.slots[place]? = some slot) (hpending : slot.isPending = true) :
    p.pipe.slots[place]? = some slot := by
  obtain hslot | ⟨_, _, _, _, _, _, _, _, rfl⟩ := h.slot hslot
  · exact hslot
  · rw [isPending_fill] at hpending
    cases hpending

/-! ## Submissions -/

/-- The submissions that were made are those of calls, each with a ticket of its own; nobody else
submits anything; and a slot is as its call left it or holds the answer to its submission. -/
structure Submitted (calls : List Call) (p : System) : Prop where
  size_eq : p.pipe.slots.size = calls.length
  slot : ∀ {place slot}, p.pipe.slots[place]? = some slot →
    (∃ c, calls[place]? = some c ∧ slot = slotOf c) ∨
      ∃ ticket response, (place, .ok ticket) ∈ p.pipe.world.submissions ∧
        (ticket, response) ∈ p.engine.answers ∧ slot = Pipe.fill (.ok response)
  filed : ∀ {place posted}, (place, posted) ∈ p.pipe.world.submissions →
    ∃ c task ticket, calls[place]? = some c ∧ c.submission? = some task ∧ posted = .ok ticket ∧
      p.engine.asked[ticket]? = some (.newTask task)
  once : (p.pipe.world.submissions.map Prod.fst).Nodup
  ticket : ∀ {ticket task}, p.engine.asked[ticket]? = some (.newTask task) →
    ∃ place, (place, .ok ticket) ∈ p.pipe.world.submissions
  injective : ∀ {place other ticket}, (place, .ok ticket) ∈ p.pipe.world.submissions →
    (other, .ok ticket) ∈ p.pipe.world.submissions → place = other

/-- In the beginning nothing is submitted. -/
theorem submitted_new : Submitted calls (new opened o calls) where
  size_eq := by simp [new, start]
  slot := by
    intro place slot hslot
    simp only [new, start, List.getElem?_toArray, List.getElem?_map, Option.map_eq_some_iff]
      at hslot
    obtain ⟨c, hc, rfl⟩ := hslot
    exact .inl ⟨c, hc, rfl⟩
  filed := nofun
  once := List.nodup_nil
  ticket := nofun
  injective := nofun

/-- A slot that is still to be filled is as its call left it. -/
theorem Submitted.pending {place : Nat} {definition args kwargs : String}
    (hp : Submitted calls p)
    (hslot : p.pipe.slots[place]? = some (.pending definition args kwargs)) :
    ∃ c, calls[place]? = some c ∧ c.submission? = some (.ofTask definition args kwargs) := by
  obtain ⟨c, hc, heq⟩ | ⟨_, _, _, _, heq⟩ := hp.slot hslot
  · exact ⟨c, hc, submission?_of_slotOf heq.symm⟩
  · have hpending := congrArg Slot.isPending heq
    rw [isPending_fill] at hpending
    cases hpending

/-- What was submitted stays so while nothing else is. -/
theorem Submitted.kept (hp : Submitted calls p) (h : Step d registry p e q)
    (hsame : q.pipe.world.submissions = p.pipe.world.submissions)
    (hslots : q.pipe.slots = p.pipe.slots)
    (hback : ∀ {ticket : Engine.Ticket} {task : Submission},
      q.engine.asked[ticket]? = some (.newTask task) →
      p.engine.asked[ticket]? = some (.newTask task)) : Submitted calls q where
  size_eq := hslots ▸ hp.size_eq
  slot := by
    intro place slot hslot
    rw [hslots] at hslot
    obtain hcall | ⟨ticket, response, hmem, hans, rfl⟩ := hp.slot hslot
    · exact .inl hcall
    · exact .inr ⟨ticket, response, hsame ▸ hmem, h.answers_subset hans, rfl⟩
  filed := by
    intro place posted hmem
    rw [hsame] at hmem
    obtain ⟨c, task, ticket, hc, htask, rfl, hasked⟩ := hp.filed hmem
    exact ⟨c, task, ticket, hc, htask, rfl, h.asked hasked⟩
  once := hsame ▸ hp.once
  ticket := fun hasked => hsame ▸ hp.ticket (hback hasked)
  injective := by
    rw [hsame]
    exact hp.injective

/-- What is asked is a submission only if it was one before, or is one now. -/
theorem newTask_of_request {s : Engine.State} {request : Request} {ticket : Engine.Ticket}
    {task : Submission} (hasked : (s.request request).asked[ticket]? = some (.newTask task)) :
    s.asked[ticket]? = some (.newTask task) ∨ ticket = s.asked.size ∧ request = .newTask task := by
  rw [Engine.State.request_asked, Array.getElem?_push] at hasked
  split at hasked
  · next hlast => exact .inr ⟨hlast, Option.some.inj hasked⟩
  · exact .inl hasked

/-- A job makes the submission of its call, with the next ticket of the engine. -/
theorem Submitted.submit {place : Nat} {definition args kwargs : String} (hp : Submitted calls p)
    (h : Step d registry p (.submit place) q)
    (hslot : p.pipe.slots[place]? = some (.pending definition args kwargs))
    (hnew : Rows.get? place p.pipe.world.submissions = none)
    (hengine : q.engine = p.engine.request (.newTask (.ofTask definition args kwargs)))
    (hslots : q.pipe.slots = p.pipe.slots)
    (hsubmissions : q.pipe.world.submissions =
      p.pipe.world.submissions ++ [(place, .ok p.engine.asked.size)]) : Submitted calls q := by
  -- the next ticket is nobody's yet
  have hfresh : ∀ {other ticket}, (other, .ok ticket) ∈ p.pipe.world.submissions →
      ticket ≠ p.engine.asked.size := fun hmem heq => by
    obtain ⟨_, _, ticket, _, _, hticket, hasked⟩ := hp.filed hmem
    cases hticket
    exact absurd (Array.getElem?_eq_some_iff.mp hasked).1 (heq ▸ Nat.lt_irrefl _)
  have hcases : ∀ {row}, row ∈ q.pipe.world.submissions → row ∈ p.pipe.world.submissions ∨
      row = (place, .ok p.engine.asked.size) := fun {row} hmem => by
    rw [hsubmissions] at hmem
    exact (List.mem_append.mp hmem).imp_right List.mem_singleton.mp
  have hold : ∀ {row}, row ∈ p.pipe.world.submissions → row ∈ q.pipe.world.submissions :=
    fun hmem => hsubmissions ▸ List.mem_append_left _ hmem
  have hlast : (place, .ok p.engine.asked.size) ∈ q.pipe.world.submissions :=
    hsubmissions ▸ List.mem_append_right _ (List.mem_singleton_self _)
  refine ⟨hslots ▸ hp.size_eq, ?_, ?_, ?_, ?_, ?_⟩
  · intro other slot hother
    rw [hslots] at hother
    obtain hcall | ⟨ticket, response, hmem, hans, rfl⟩ := hp.slot hother
    · exact .inl hcall
    · exact .inr ⟨ticket, response, hold hmem, h.answers_subset hans, rfl⟩
  · intro other posted hmem
    obtain hmem | heq := hcases hmem
    · obtain ⟨c, task, ticket, hc, htask, rfl, hasked⟩ := hp.filed hmem
      exact ⟨c, task, ticket, hc, htask, rfl, h.asked hasked⟩
    · cases heq
      obtain ⟨c, hc, htask⟩ := hp.pending hslot
      refine ⟨c, _, _, hc, htask, rfl, ?_⟩
      rw [hengine, Engine.State.request_asked]
      exact Array.getElem?_push_size
  · rw [hsubmissions, List.map_append]
    have hnone := Rows.get?_eq_none.mp hnew
    exact List.nodup_append_comm.mp (List.nodup_cons.mpr ⟨hnone, hp.once⟩)
  · intro ticket task hasked
    rw [hengine] at hasked
    obtain hasked | ⟨rfl, -⟩ := newTask_of_request hasked
    · obtain ⟨other, hmem⟩ := hp.ticket hasked
      exact ⟨other, hold hmem⟩
    · exact ⟨place, hlast⟩
  · intro first second ticket hfirst hsecond
    obtain hfirst | hfirst := hcases hfirst <;> obtain hsecond | hsecond := hcases hsecond
    · exact hp.injective hfirst hsecond
    · cases hsecond
      exact absurd rfl (hfresh hfirst)
    · cases hfirst
      exact absurd rfl (hfresh hsecond)
    · cases hfirst
      cases hsecond
      rfl

/-- One step: a submission is made, or a slot is filled with its answer. -/
theorem Step.submitted (h : Step d registry p e q) (hp : Submitted calls p) :
    Submitted calls q := by
  have hstep := h
  cases h with
  | submit hslot hnew => exact hp.submit hstep hslot hnew rfl rfl rfl
  | fill =>
    refine ⟨hstep.size_slots.trans hp.size_eq, fun {place slot} hplace => ?_, hp.filed, hp.once,
      hp.ticket, hp.injective⟩
    obtain hplace | ⟨_, _, _, posted, response, _, hposted, hresponse, rfl⟩ := hstep.slot hplace
    · exact hp.slot hplace
    · have hmem := Rows.mem_of_get? hposted
      obtain ⟨_, _, ticket, _, _, rfl, _⟩ := hp.filed hmem
      exact .inr ⟨ticket, response, hmem, Rows.mem_of_get? hresponse, rfl⟩
  -- what the engine does by itself is no new request
  | engine hown hengine =>
    refine hp.kept hstep rfl rfl fun {ticket task} hasked => ?_
    have hsame := (Engine.Step.of_step hengine).asked_eq hown
    exact hsame ▸ hasked
  | ask | list =>
    refine hp.kept hstep rfl rfl fun hasked => ?_
    exact (newTask_of_request hasked).resolve_right fun hlast => nomatch hlast.2
  | look | refuse =>
    refine hp.kept hstep (take_submissions ..) (take_slots ..) ?_
    rw [take_engine]
    exact id
  | call | pass | pool => exact hp.kept hstep rfl rfl id

/-- So it is in a run. -/
theorem submitted_of_run {events : List Event}
    (h : (new opened o calls).run d registry events = some p) : Submitted calls p := by
  obtain ⟨-, -, hp⟩ := run_induction (P := fun _ p => Submitted calls p) submitted_new
    (fun _ hp hstep _ _ => hstep.submitted hp) h
  exact hp

end

end System

end Pipe

end TaskRelay
