import TaskRelay.Proofs.Engine.Processing

/-!
# No task is left behind

A task without an outcome is in somebody's hands: either a driver is going to report its outcome,
or the report is in the channel. Counted, that is one thing for every such task, and nothing for a
task with an outcome:

> `unreported_add_reports`: drivers that have not reported and reports in the channel, of one task.

So when the channel is empty and no driver can do anything, nothing is left to be done
(`settled_of_quiescent`): a driver that holds a permit could go on, and if none of them holds one,
one of those that wait could take it, as free permits and held ones are as many as there are
threads. Outcomes that were lost on the way make no difference to this, since the driver reports
that as the outcome.
-/

namespace TaskRelay.Engine

/-! ## Who has a task in hand -/

namespace State

/-- How many drivers of a task are still going to report. -/
def unreported (s : State) (id : TaskId) : Nat :=
  s.drivers.countP fun row => row.1 = id && row.2.phase.isUnreported

/-- How many reports about a task are in the channel. -/
def reportsOf (s : State) (id : TaskId) : Nat := reports (mail id s.channel)

/-- A driver can go on: it waits and a permit is free, or it has one. -/
def CanStep (s : State) (v : Driver) : Prop :=
  v.phase.holdsPermit = false ∧ s.permits ≠ 0 ∨ v.phase.holdsPermit = true

/-- Nothing is in the channel, and no driver can go on. -/
structure Quiescent (s : State) : Prop where
  channel : s.channel = []
  drivers : ∀ {id : TaskId} {v : Driver}, (id, v) ∈ s.drivers → ¬ s.CanStep v

end State

section

variable {d : Dispatcher} {o : Options} {s t : State} {e : Event} {es : List Event} {id : TaskId}

/-- What a driver can do is a step of the engine. -/
theorem State.canStep_iff {v : Driver} (hget : Rows.get? id s.drivers = some v) :
    s.CanStep v ↔ ∃ e ∈ Event.drive id, ∃ t, s.step d e = some t := by
  obtain ⟨task, phase⟩ := v
  unfold State.CanStep Event.drive
  cases phase <;> simp [State.step, hget, Phase.holdsPermit]

/-- A stage of a task, by who has it in hand. -/
theorem Life.unreported_add_reports {E : Envelope → Prop} {p : Option Phase} {m : List Command}
    {status : Status} {outcome : Option Envelope} (h : Life E id p m status outcome) :
    (if p.any Phase.isUnreported then 1 else 0) + reports m =
      if outcome.isNone then 1 else 0 := by
  have hspent : ∀ {p : Option Phase}, Spent p → p.any Phase.isUnreported = false := fun hp => by
    rcases hp with rfl | rfl <;> rfl
  cases h with
  | @queued p hp => cases p <;> first | rfl | cases hp
  | @announced p hp => cases p <;> first | rfl | exact hp.elim
  | @processing p hp => cases p <;> first | rfl | exact hp.elim
  | overtaken hp | reported hp | settled hp => rw [hspent hp]; rfl

/-- A task without an outcome has one driver that is to report it, or one report on its way. -/
theorem unreported_add_reports {r : Record} (h : (State.new o).run d es = some s)
    (hrun : s.running = true) (hrec : s.store.records[id]? = some r) :
    s.unreported id + s.reportsOf id = if r.result.isNone then 1 else 0 := by
  have hlife := (tracked_of_run h hrun).life hrec
  have hcount : s.unreported id =
      if (s.phase? id).any Phase.isUnreported then 1 else 0 := by
    have hkey := Rows.countP_key id (f := fun v : Driver => v.phase.isUnreported)
      (Reachable.of_run h).manned.nodup
    unfold State.phase?
    rw [Option.any_map]
    exact hkey
  rw [hcount]
  exact hlife.unreported_add_reports

/-! ## When nothing can go on -/

/-- If no driver can go on there is none: they would all wait for permits that nobody has. -/
theorem State.Quiescent.drivers_eq_nil (hq : s.Quiescent)
    (hpermits : s.permits + s.held = o.threads) (hthreads : 0 < o.threads) : s.drivers = [] := by
  have hwaiting : ∀ row ∈ s.drivers, row.2.phase.holdsPermit = false := fun row hrow =>
    Bool.eq_false_iff.mpr fun hp => hq.drivers hrow (.inr hp)
  have hheld : s.held = 0 := by
    unfold State.held
    rw [List.countP_eq_zero]
    intro row hrow
    rw [hwaiting row hrow]
    exact Bool.false_ne_true
  -- nobody holds a permit, so all of them are free, and any driver could take one
  by_contra hne
  obtain ⟨row, hrow⟩ := List.exists_mem_of_ne_nil _ hne
  exact hq.drivers hrow (.inl ⟨hwaiting row hrow, by omega⟩)

/-- Without driver and mail a task can only have ended. -/
theorem Life.isTerminal {E : Envelope → Prop} {status : Status} {outcome : Option Envelope}
    (h : Life E id none [] status outcome) : status.isTerminal = true ∧ outcome ≠ none := by
  cases h with
  | settled =>
    refine ⟨?_, by simp⟩
    unfold Record.statusOf
    split <;> rfl

/-- If nothing can go on every task has ended, and nobody waits for it. -/
theorem State.Quiescent.ended {r : Record} (hq : s.Quiescent)
    (h : (State.new o).run d es = some s) (hrun : s.running = true) (hthreads : 0 < o.threads)
    (hrec : s.store.records[id]? = some r) :
    r.task.status.isTerminal = true ∧ r.waiters = [] := by
  have hreach := Reachable.of_run h
  have hdrivers := hq.drivers_eq_nil hreach.permits_add_held hthreads
  have hlife := (tracked_of_run h hrun).life hrec
  have hphase : s.phase? id = none := by
    unfold State.phase?
    rw [hdrivers]
    rfl
  have hmail : mail id s.channel = [] := by
    rw [hq.channel]
    rfl
  rw [hphase, hmail] at hlife
  obtain ⟨hstatus, hresult⟩ := hlife.isTerminal
  exact ⟨hstatus, hreach.wellFormed.idle hrec hresult⟩

/-- If nothing can go on and nothing is parked, every request has its answer. -/
theorem State.Quiescent.answered {ticket : Ticket} (hq : s.Quiescent) (h : Reachable d o s)
    (hparked : s.store.parked = []) (hlt : ticket < s.asked.size) : s.answer? ticket ≠ none := by
  intro hopen
  have hone := (h.count_pending hlt hopen).2
  rw [State.pending_eq, hparked, State.queued, hq.channel] at hone
  cases hone

/-- An engine with more threads than there can be permits never gets to anything. -/
theorem Reachable.blank (h : Reachable d o s) (hmany : State.maxPermits < o.threads) :
    s.running = false ∧ s.store = .empty ∧ s.channel = [] ∧ s.drivers = [] := by
  induction h with
  | new => exact ⟨decide_eq_false (Nat.not_le_of_lt hmany), rfl, rfl, rfl⟩
  | @step s t e _ hst ih =>
    obtain ⟨hrun, hstore, hch, hdrivers⟩ := ih
    have hnone : ∀ {id v}, Rows.get? id s.drivers ≠ some v := fun {id v} hget => by
      rw [hdrivers] at hget
      cases hget
    cases Step.of_step hst with
    | refuse => exact ⟨hrun, hstore, hch, hdrivers⟩
    | stop => simp [State.send, hrun, hstore, hch, hdrivers]
    | request h | accept h | reply h | park h | started h | complete h | halt h =>
      rw [hrun] at h
      cases h
    | acquire hget | announce hget | work hget | report hget | release hget =>
      exact absurd hget hnone

/-- The loop has not got to a stop: it runs, or it could not even start. -/
def State.Unstopped (o : Options) (s : State) : Prop :=
  s.running = true ∨ State.maxPermits < o.threads

/-- In every state that a run comes to before the loop gets to a stop, whatever was lost on the way:
free permits and held ones are as many as there are threads; a task without an outcome is in the
hands of one driver or one report, and a task with an outcome in nobody's; and if the channel is
empty and no driver can go on, every task is completed or failed, nobody waits, and every request
has its answer. -/
theorem settled_of_quiescent (h : (State.new o).run d es = some s) (hthreads : 0 < o.threads)
    (hstop : s.Unstopped o) :
    s.permits + s.held = o.threads ∧
    (∀ {id : TaskId} {r : Record}, s.store.records[id]? = some r →
      s.unreported id + s.reportsOf id = if r.result.isNone then 1 else 0) ∧
    (s.Quiescent →
      (∀ {id : TaskId} {r : Record}, s.store.records[id]? = some r →
        r.task.status.isTerminal = true ∧ r.waiters = []) ∧
      s.store.parked = [] ∧
      ∀ {ticket : Ticket}, ticket < s.asked.size → s.answer? ticket ≠ none) := by
  have hreach := Reachable.of_run h
  have hpermits := hreach.permits_add_held
  rcases hstop with hrun | hmany
  · refine ⟨hpermits, fun hrec => unreported_add_reports h hrun hrec, fun hq => ?_⟩
    have hparked := hreach.wellFormed.parked_eq_nil fun hrec => (hq.ended h hrun hthreads hrec).2
    exact ⟨fun hrec => hq.ended h hrun hthreads hrec, hparked,
      fun hlt => hq.answered hreach hparked hlt⟩
  · -- the loop never started, so there is no task to speak of
    obtain ⟨-, hstore, -, -⟩ := hreach.blank hmany
    have hnone : ∀ {id : TaskId} {r : Record}, s.store.records[id]? ≠ some r := fun hrec => by
      rw [hstore] at hrec
      simp [Store.empty] at hrec
    have hparked := hreach.wellFormed.parked_eq_nil fun hrec => absurd hrec hnone
    exact ⟨hpermits, fun hrec => absurd hrec hnone,
      fun hq => ⟨fun hrec => absurd hrec hnone, hparked, fun hlt => hq.answered hreach hparked hlt⟩⟩

/-- A task whose outcome is lost while somebody waits for it. -/
def loseOne : List Event :=
  [.request (.newTask echoTask), .process ⟨"a"⟩, .request (.awaitTask ⟨"a"⟩), .process ⟨""⟩,
    .acquire ⟨"a"⟩, .announce ⟨"a"⟩, .execute ⟨"a"⟩, .lose ⟨"a"⟩ "cancelled", .report ⟨"a"⟩,
    .release ⟨"a"⟩, .process ⟨""⟩, .process ⟨""⟩]

theorem exists_run_loseOne : ∃ s, (State.new .default).run echo loseOne = some s ∧
    s.running = true ∧ s.channel = [] ∧ s.drivers = [] ∧ s.asked.size = 2 ∧
    s.store.records[TaskId.mk "a"]?.isSome = true := by
  have hthreads : Options.default.threads = 2 := by decide
  have hpermits : 2 ≤ State.maxPermits := by decide
  simp [loseOne, State.run, State.step, State.new, State.request, State.send, State.handle,
    State.accept, State.await, State.complete, State.answer, State.answerAll, State.setPhase,
    Store.insert, Store.empty, Store.await, Store.modify, Store.start, Store.complete,
    Store.waiters, Record.new, Record.start, Record.park, Rows.get?, Rows.set, Rows.erase, hthreads,
    hpermits]

/-- The task is over, and who waited was told. -/
theorem settled_of_loseOne : ∃ s, (State.new .default).run echo loseOne = some s ∧ s.Quiescent ∧
    (∃ r : Record, s.store.records[TaskId.mk "a"]? = some r ∧ r.task.status.isTerminal = true) ∧
    s.answer? 1 ≠ none := by
  obtain ⟨s, hrun, hrunning, hch, hdrivers, hasked, hrec⟩ := exists_run_loseOne
  have hq : s.Quiescent := ⟨hch, fun hmem => absurd (hdrivers ▸ hmem) List.not_mem_nil⟩
  have hsettled := (settled_of_quiescent hrun (by decide) (.inl hrunning)).2.2 hq
  obtain ⟨r, hr⟩ := Option.isSome_iff_exists.mp hrec
  have hlt : 1 < s.asked.size := by rw [hasked]; decide
  exact ⟨s, hrun, hq, ⟨r, hr, (hsettled.1 hr).1⟩, hsettled.2.2 hlt⟩

end

end TaskRelay.Engine
