import TaskRelay.Proofs.Engine.Permits

/-!
# The life of a task

The loop writes the status of a task whenever it is told to, without looking at what stood there.
That this is right is due to the order in which a driver sends its commands and to the channel,
which keeps that order. `Life` lists the stages that a task can be in while the loop runs: how far
its driver has got, which of the commands about it are still in the channel (`mail`), and what the
table says.

> `tracked_of_run`: after every run that has not ended the loop, each task is in such a stage, and
> no command is about an id without a record.

An outcome is what executing the invocation of its task yields, unless it was lost on the way
(`Explained`):

> `explained_of_run`: after every run, the outcomes in the table are explained by the run.

An outcome in the table never changes again (`Step.result_stays`).
-/

namespace TaskRelay.Engine

/-! ## Commands about a task -/

def Command.isAbout (id : TaskId) : Command → Bool
  | .started other => other = id
  | .complete other _ => other = id
  | .append _ _ => false
  | .stop => false

@[simp] theorem Command.isAbout_started (id other : TaskId) :
    (Command.started other).isAbout id = decide (other = id) := rfl

@[simp] theorem Command.isAbout_complete (id other : TaskId) (result : Envelope) :
    (Command.complete other result).isAbout id = decide (other = id) := rfl

/-- The commands of a channel that are about a task, in order. -/
def mail (id : TaskId) (cs : List Command) : List Command := cs.filter (Command.isAbout id)

section

variable {id other : TaskId} {c : Command} {cs rest : List Command}

theorem mail_cons_of_isAbout (h : c.isAbout id = true) : mail id (c :: cs) = c :: mail id cs :=
  List.filter_cons_of_pos h

theorem mail_cons_of_not_isAbout (h : c.isAbout id = false) : mail id (c :: cs) = mail id cs :=
  List.filter_cons_of_neg (by simp [h])

/-- A command about a task is added behind the other ones about it. -/
theorem mail_concat_of_isAbout (h : c.isAbout id = true) :
    mail id (cs ++ [c]) = mail id cs ++ [c] := by
  simp [mail, h]

/-- Other commands make no difference to the mail of a task. -/
theorem mail_concat_of_not_isAbout (h : c.isAbout id = false) :
    mail id (cs ++ [c]) = mail id cs := by
  simp [mail, h]

end

/-! ## Stages -/

namespace Phase

/-- The driver has announced nothing. -/
def isSilent : Phase → Bool
  | .waiting => true
  | .admitted => true
  | _ => false

/-- The driver has announced its task and not reported its outcome, which `E` explains if it is
known. -/
def Busy (E : Envelope → Prop) : Phase → Prop
  | .announced => True
  | .executing => True
  | .executed result => E result
  | _ => False

end Phase

/-- The driver has reported, or is no more. -/
def Spent (driver : Option Phase) : Prop := driver = none ∨ driver = some .reported

/-- How far a task can have got: the phase of its driver, its mail, its status and its outcome. -/
inductive Life (E : Envelope → Prop) (id : TaskId) :
    Option Phase → List Command → Status → Option Envelope → Prop
  | queued {p : Phase} (hp : p.isSilent = true) : Life E id (some p) [] .enqueued none
  | announced {p : Phase} (hp : p.Busy E) : Life E id (some p) [.started id] .enqueued none
  | processing {p : Phase} (hp : p.Busy E) : Life E id (some p) [] .processing none
  /-- The driver was done before the loop got to its announcement. -/
  | overtaken {p : Option Phase} {result : Envelope} (hp : Spent p) (hresult : E result) :
      Life E id p [.started id, .complete id result] .enqueued none
  | reported {p : Option Phase} {result : Envelope} (hp : Spent p) (hresult : E result) :
      Life E id p [.complete id result] .processing none
  | settled {p : Option Phase} {result : Envelope} (hp : Spent p) (hresult : E result) :
      Life E id p [] (Record.statusOf result) (some result)

namespace Life

variable {E F : Envelope → Prop} {id : TaskId} {v : Option Phase} {p q : Phase}
  {m : List Command} {status : Status} {outcome : Option Envelope} {result : Envelope}

theorem mono (h : Life E id v m status outcome) (hEF : ∀ result, E result → F result) :
    Life F id v m status outcome := by
  have hbusy : ∀ {p : Phase}, p.Busy E → p.Busy F := fun {p} hp => by
    cases p <;> first | exact hp | exact hEF _ hp
  cases h with
  | queued hp => exact .queued hp
  | announced hp => exact .announced (hbusy hp)
  | processing hp => exact .processing (hbusy hp)
  | overtaken hp hresult => exact .overtaken hp (hEF _ hresult)
  | reported hp hresult => exact .reported hp (hEF _ hresult)
  | settled hp hresult => exact .settled hp (hEF _ hresult)

/-- A driver that has not reported is not spent. -/
theorem not_spent (hp : p ≠ .reported) : ¬ Spent (some p) := by
  rintro (h | h)
  · cases h
  · exact hp (Option.some.inj h)

/-! ### What a driver does -/

/-- With its permit a driver is still silent. -/
theorem acquire (h : Life E id (some .waiting) m status outcome) :
    Life E id (some .admitted) m status outcome := by
  cases h with
  | queued => exact .queued rfl
  | announced hp | processing hp => exact hp.elim
  | overtaken hp | reported hp | settled hp => exact absurd hp (not_spent (by simp))

/-- The announcement goes into the mail of the task. -/
theorem announce (h : Life E id (some .admitted) m status outcome) :
    Life E id (some .announced) (m ++ [.started id]) status outcome := by
  cases h with
  | queued => exact .announced trivial
  | announced hp | processing hp => exact hp.elim
  | overtaken hp | reported hp | settled hp => exact absurd hp (not_spent (by simp))

/-- Between announcement and report nothing of this is to be seen outside the driver. -/
theorem work (h : Life E id (some p) m status outcome) (hp : p.isSilent = false)
    (hr : p ≠ .reported) (hq : q.Busy E) : Life E id (some q) m status outcome := by
  cases h with
  | queued hs => rw [hp] at hs; cases hs
  | announced => exact .announced hq
  | processing => exact .processing hq
  | overtaken hs | reported hs | settled hs => exact absurd hs (not_spent hr)

/-- So does the outcome, behind the announcement if the loop has not got to that yet. -/
theorem report (h : Life E id (some (.executed result)) m status outcome) :
    Life E id (some .reported) (m ++ [.complete id result]) status outcome := by
  cases h with
  | queued hp => cases hp
  | announced hp => exact .overtaken (.inr rfl) hp
  | processing hp => exact .reported (.inr rfl) hp
  | overtaken hp | reported hp | settled hp => exact absurd hp (not_spent (by simp))

/-- When the permit is given back the driver is gone, and the task stays in its stage. -/
theorem release (h : Life E id (some .reported) m status outcome) :
    Life E id none m status outcome := by
  cases h with
  | queued hp => cases hp
  | announced hp | processing hp => exact hp.elim
  | overtaken _ hresult => exact .overtaken (.inl rfl) hresult
  | reported _ hresult => exact .reported (.inl rfl) hresult
  | settled _ hresult => exact .settled (.inl rfl) hresult

/-! ### What the loop does -/

/-- The loop gets to an announcement: the task was enqueued and is being processed now. -/
theorem started (h : Life E id v (.started id :: m) status outcome) :
    status = .enqueued ∧ Life E id v m .processing outcome := by
  cases h with
  | announced hp => exact ⟨rfl, .processing hp⟩
  | overtaken hp hresult => exact ⟨rfl, .reported hp hresult⟩

/-- The loop gets to a report: the task was being processed and has an outcome now. -/
theorem complete (h : Life E id v (.complete id result :: m) status outcome) :
    status = .processing ∧ outcome = none ∧ E result ∧
      Life E id v m (Record.statusOf result) (some result) := by
  cases h with
  | reported hp hresult => exact ⟨rfl, rfl, hresult, .settled hp hresult⟩

end Life

/-! ## What explains an outcome -/

/-- The outcome is what executing the invocation yields, or it was lost in one of the events. -/
def Explained (d : Dispatcher) (es : List Event) (id : TaskId) (i : Invocation)
    (result : Envelope) : Prop :=
  result = d.execute i.1 i.2.1 i.2.2 ∨
    ∃ message, .lose id message ∈ es ∧ result = State.lost message

section

variable {d : Dispatcher} {o : Options} {s t : State} {e : Event} {es : List Event}

/-- What explains an outcome explains it also when more has happened. -/
theorem Explained.mono {fs : List Event} {id : TaskId} {i : Invocation} {result : Envelope}
    (h : Explained d es id i result) : Explained d (es ++ fs) id i result := by
  obtain h | ⟨message, hmem, h⟩ := h
  · exact .inl h
  · exact .inr ⟨message, List.mem_append_left _ hmem, h⟩

/-- Where nothing of a task was lost, its outcome is that of executing it. -/
theorem Explained.eq_execute {id : TaskId} {i : Invocation} {result : Envelope}
    (h : Explained d es id i result) (hjoin : ∀ message, Event.lose id message ∉ es) :
    result = d.execute i.1 i.2.1 i.2.2 := by
  obtain h | ⟨message, hmem, -⟩ := h
  · exact h
  · exact absurd hmem (hjoin message)

/-- What a driver knows after its work is explained by the events up to it. -/
theorem Work.busy {id : TaskId} {task : Submission} {p q : Phase} (h : Work d id task e p q)
    (es : List Event) :
    p.isSilent = false ∧ p ≠ .reported ∧ q.Busy (Explained d (es ++ [e]) id task.invocation) := by
  cases h with
  | execute => exact ⟨rfl, by simp, trivial⟩
  | finish => exact ⟨rfl, by simp, .inl rfl⟩
  | lose message => exact ⟨rfl, by simp, .inr ⟨message, by simp, rfl⟩⟩

/-! ## The invariant -/

/-- The phase of the driver of a task. -/
def State.phase? (s : State) (id : TaskId) : Option Phase :=
  (Rows.get? id s.drivers).map Driver.phase

/-- Every task is in a stage of its life, and every command about a task is about one of them. -/
structure Tracked (d : Dispatcher) (es : List Event) (s : State) : Prop where
  life : ∀ {id : TaskId} {r : Record}, s.store.records[id]? = some r →
    Life (Explained d es id r.task.invocation) id (s.phase? id) (mail id s.channel)
      r.task.status r.result
  addressed : ∀ {id : TaskId}, s.store.records[id]? = none → mail id s.channel = []

namespace Tracked

/-- In the beginning there are no tasks. -/
theorem new : Tracked d [] (State.new o) :=
  ⟨fun h => by simp [State.new, Store.empty] at h, fun _ => rfl⟩

theorem mono {fs : List Event} (h : Tracked d es s) : Tracked d (es ++ fs) s :=
  ⟨fun hr => (h.life hr).mono fun _ => Explained.mono, h.addressed⟩

/-- The task that the command in front of the channel is about, and the stage that it is in. -/
theorem front {c : Command} {rest : List Command} (h : Tracked d es s) (id : TaskId)
    (hch : s.channel = c :: rest) (habout : c.isAbout id = true) :
    ∃ r : Record, s.store.records[id]? = some r ∧
      Life (Explained d es id r.task.invocation) id (s.phase? id) (c :: mail id rest)
        r.task.status r.result := by
  have hmail : mail id s.channel = c :: mail id rest := by rw [hch, mail_cons_of_isAbout habout]
  cases hr : s.store.records[id]? with
  | some r => exact ⟨r, rfl, hmail ▸ h.life hr⟩
  | none =>
    have hnone := h.addressed hr
    rw [hmail] at hnone
    cases hnone

/-- Nothing that the stages speak of has changed. -/
theorem congr (h : Tracked d es s) (hm : ∀ id, mail id t.channel = mail id s.channel)
    (hp : ∀ id, t.phase? id = s.phase? id) (hs : t.store = s.store) : Tracked d es t := by
  refine ⟨fun {id r} hr => ?_, fun {id} hr => ?_⟩
  · rw [hm, hp]
    exact h.life (hs ▸ hr)
  · rw [hm]
    exact h.addressed (hs ▸ hr)

/-- One task gets on: whatever is about another one stays as it is. -/
theorem of_task (h : Tracked d es s) (id : TaskId)
    (hm : ∀ other, other ≠ id → mail other t.channel = mail other s.channel)
    (hp : ∀ other, other ≠ id → t.phase? other = s.phase? other)
    (hr : ∀ other, other ≠ id → t.store.records[other]? = s.store.records[other]?)
    (hlife : ∃ r : Record, t.store.records[id]? = some r ∧
      Life (Explained d es id r.task.invocation) id (t.phase? id) (mail id t.channel)
        r.task.status r.result) : Tracked d es t := by
  obtain ⟨r₀, hr₀, hl₀⟩ := hlife
  refine ⟨fun {other r} hother => ?_, fun {other} hother => ?_⟩
  · by_cases ho : other = id
    · subst ho
      rw [hr₀] at hother
      cases hother
      exact hl₀
    · rw [hm other ho, hp other ho]
      exact h.life (hr other ho ▸ hother)
  · by_cases ho : other = id
    · subst ho
      rw [hr₀] at hother
      cases hother
    · rw [hm other ho]
      exact h.addressed (hr other ho ▸ hother)

end Tracked

/-! ## Steps and runs -/

/-- A driver that goes on changes its own phase and no other. -/
theorem State.phase?_set {id other : TaskId} {v : Driver} {w : Driver}
    (hget : Rows.get? id s.drivers = some w) :
    (Rows.get? other (Rows.set id v s.drivers)).map Driver.phase =
      if other = id then some v.phase else s.phase? other := by
  rw [Rows.get?_set]
  split
  · next ho => subst ho; simp [hget]
  · rfl

/-- A loop that runs has run before. -/
theorem Step.running (h : Step d s e t) (hrun : t.running = true) : s.running = true := by
  cases h with
  | halt => cases hrun
  | stop | announce | report => simpa only [State.setPhase, State.send_running] using hrun
  | _ => exact hrun

/-- A driver does something that is not to be seen in the channel. -/
theorem Tracked.of_phase {id : TaskId} {task : Submission} {p q : Phase} {permits : Nat}
    (hs : Tracked d es s) (hman : Manned s.store s.drivers)
    (hget : Rows.get? id s.drivers = some ⟨task, p⟩)
    (hlife : ∀ {m status outcome},
      Life (Explained d es id task.invocation) id (some p) m status outcome →
      Life (Explained d es id task.invocation) id (some q) m status outcome) :
    Tracked d es { s with permits := permits, drivers := Rows.set id ⟨task, q⟩ s.drivers } := by
  obtain ⟨r, hr, htask⟩ := hman.owner hget
  have hold := hs.life hr
  refine hs.of_task id (fun _ _ => rfl) (fun other ho => ?_) (fun _ _ => rfl) ⟨r, hr, ?_⟩
  · exact (State.phase?_set hget).trans (if_neg ho)
  · unfold State.phase? at hold ⊢
    rw [State.phase?_set hget, if_pos rfl]
    rw [hget, htask] at hold
    rw [htask]
    exact hlife hold

/-- A driver sends a command about its task. -/
theorem Tracked.of_send {id : TaskId} {task : Submission} {p q : Phase} {c : Command}
    (hs : Tracked d es s) (hman : Manned s.store s.drivers) (hrun : s.running = true)
    (hget : Rows.get? id s.drivers = some ⟨task, p⟩)
    (hc : ∀ other, c.isAbout other = decide (id = other))
    (hlife : ∀ {m status outcome},
      Life (Explained d es id task.invocation) id (some p) m status outcome →
      Life (Explained d es id task.invocation) id (some q) (m ++ [c]) status outcome) :
    Tracked d es ((s.send c).setPhase id task q) := by
  obtain ⟨r, hr, htask⟩ := hman.owner hget
  have hold := hs.life hr
  have hsend : s.send c = { s with channel := s.channel ++ [c] } := if_pos hrun
  rw [hsend]
  refine hs.of_task id (fun other ho => ?_) (fun other ho => ?_) (fun _ _ => rfl) ⟨r, hr, ?_⟩
  · exact mail_concat_of_not_isAbout (by rw [hc]; simpa using Ne.symm ho)
  · exact (State.phase?_set hget).trans (if_neg ho)
  · show Life _ id ((Rows.get? id (Rows.set id _ s.drivers)).map Driver.phase)
      (mail id (s.channel ++ [c])) _ _
    rw [State.phase?_set hget, if_pos rfl, mail_concat_of_isAbout (by simp [hc]), htask]
    unfold State.phase? at hold
    rw [hget, htask] at hold
    exact hlife hold

/-- One step keeps every task in a stage of its life, with one case for each kind of step. -/
theorem Step.tracked (h : Step d s e t) (hrun : t.running = true) (hman : Manned s.store s.drivers)
    (hs : Tracked d es s) : Tracked d (es ++ [e]) t := by
  have hs' : Tracked d (es ++ [e]) s := hs.mono
  -- a step is about one task or about none; `of_task` and `congr` deal with all the others
  cases h with
  | request => exact hs'.congr (fun _ => mail_concat_of_not_isAbout rfl) (fun _ => rfl) rfl
  | refuse => exact hs'.congr (fun _ => rfl) (fun _ => rfl) rfl
  | stop =>
    rw [State.send_running] at hrun
    have hsend : s.send .stop = { s with channel := s.channel ++ [.stop] } := if_pos hrun
    rw [hsend]
    exact hs'.congr (fun _ => mail_concat_of_not_isAbout rfl) (fun _ => rfl) rfl
  | @accept fresh ticket task rest hrun hch hfresh =>
    have hmail : ∀ id, mail id rest = mail id s.channel := fun id => by
      rw [hch, mail_cons_of_not_isAbout rfl]
    have hphase : ∀ id, (Rows.get? id (s.drivers ++ [(fresh, ⟨task, .waiting⟩)])).map Driver.phase =
        if id = fresh then some .waiting else s.phase? id := fun id => by
      rw [Rows.get?_append]
      split
      · next ho => subst ho; rw [hman.get?_eq_none hfresh]; simp
      · next ho => simp [State.phase?, Ne.symm ho]
    -- the id is new, so there is neither a driver nor mail for it
    refine hs'.of_task fresh (fun other _ => hmail other) (fun other ho => ?_)
      (fun other ho => ?_) ⟨.new fresh task, by simp [Store.records_insert], ?_⟩
    · exact (hphase other).trans (if_neg ho)
    · rw [Store.records_insert, if_neg (Ne.symm ho)]
    · show Life _ fresh ((Rows.get? fresh (s.drivers ++ [_])).map Driver.phase)
        (mail fresh rest) _ _
      rw [hphase, if_pos rfl, hmail, hs.addressed hfresh]
      exact .queued rfl
  | reply _ hch =>
    refine hs'.congr (fun id => ?_) (fun _ => rfl) rfl
    rw [hch, mail_cons_of_not_isAbout rfl]
  | @park fresh id ticket r rest hrun hch hrec hresult =>
    have hmail : ∀ id, mail id rest = mail id s.channel := fun id => by
      rw [hch, mail_cons_of_not_isAbout rfl]
    refine hs'.of_task id (fun other _ => hmail other) (fun _ _ => rfl) (fun other ho => ?_)
      ⟨r.park ticket, by simp [Store.records_modify, hrec], ?_⟩
    · rw [Store.records_modify, if_neg (Ne.symm ho)]
    · have hlife := hs'.life hrec
      rw [hmail]
      exact hlife
  | @started fresh id rest hrun hch =>
    obtain ⟨r, hr, hlife⟩ := hs'.front id hch (by simp)
    refine hs'.of_task id (fun other ho => ?_) (fun _ _ => rfl) (fun other ho => ?_)
      ⟨r.start, by simp [Store.start, Store.records_modify, hr], hlife.started.2⟩
    · rw [hch, mail_cons_of_not_isAbout (by simpa using Ne.symm ho)]
    · rw [Store.start, Store.records_modify, if_neg (Ne.symm ho)]
  | @complete fresh id result rest hrun hch =>
    obtain ⟨r, hr, hlife⟩ := hs'.front id hch (by simp)
    refine hs'.of_task id (fun other ho => ?_) (fun _ _ => rfl) (fun other ho => ?_)
      ⟨r.complete result, by simp [Store.complete, Store.records_modify, hr], hlife.complete.2.2.2⟩
    · rw [hch, mail_cons_of_not_isAbout (by simpa using Ne.symm ho)]
    · rw [Store.complete, Store.records_modify, if_neg (Ne.symm ho)]
  | halt => cases hrun
  | acquire hget => exact hs'.of_phase hman hget Life.acquire
  | announce hget =>
    simp only [State.setPhase, State.send_running] at hrun
    exact hs'.of_send hman hrun hget (fun _ => rfl) Life.announce
  | work hget hwork =>
    obtain ⟨hsilent, hr, hbusy⟩ := hwork.busy es
    exact hs'.of_phase hman hget fun hlife => hlife.work hsilent hr hbusy
  | report hget =>
    simp only [State.setPhase, State.send_running] at hrun
    exact hs'.of_send hman hrun hget (fun _ => rfl) Life.report
  | @release id task hget =>
    obtain ⟨r, hr, -⟩ := hman.owner hget
    have hlife := hs'.life hr
    refine hs'.of_task id (fun _ _ => rfl) (fun other ho => ?_) (fun _ _ => rfl) ⟨r, hr, ?_⟩
    · show (Rows.get? other (Rows.erase id s.drivers)).map Driver.phase = _
      rw [Rows.get?_erase hman.nodup, if_neg ho]
      rfl
    · show Life _ id ((Rows.get? id (Rows.erase id s.drivers)).map Driver.phase) _ _ _
      rw [Rows.get?_erase hman.nodup, if_pos rfl]
      unfold State.phase? at hlife
      rw [hget] at hlife
      exact hlife.release

/-- What a new engine has and every step of a loop that goes on running keeps, every run keeps
until the loop ends. -/
theorem run_induction_running {P : List Event → State → Prop} (hnew : P [] (State.new o))
    (hstep : ∀ {es s e t}, (State.new o).run d es = some s → s.running = true →
      (State.new o).run d (es ++ [e]) = some t → t.running = true → P es s → Step d s e t →
      P (es ++ [e]) t)
    (h : (State.new o).run d es = some s) (hrun : s.running = true) : P es s := by
  refine run_induction (P := fun es s => s.running = true → P es s) (fun _ => hnew) ?_ h hrun
  intro es s e t hs ht ih hst hrun
  have hbefore := hst.running hrun
  exact hstep hs hbefore ht hrun (ih hbefore) hst

/-- While the loop runs every task is in a stage of its life. -/
theorem tracked_of_run (h : (State.new o).run d es = some s) (hrun : s.running = true) :
    Tracked d es s := by
  refine run_induction_running (P := fun es s => Tracked d es s) .new ?_ h hrun
  intro es s e t hs _ _ hrun ih hstep
  exact hstep.tracked hrun (Reachable.of_run hs).manned ih

/-! ## Outcomes -/

/-- An outcome in the table was there before, or the loop has just been told of it. -/
theorem Step.result_before {id : TaskId} {r' : Record} {result : Envelope} (h : Step d s e t)
    (hr : t.store.records[id]? = some r') (hresult : r'.result = some result) :
    ∃ r : Record, s.store.records[id]? = some r ∧ r.task.invocation = r'.task.invocation ∧
      (r.result = some result ∨
        s.running = true ∧ ∃ rest, s.channel = .complete id result :: rest) := by
  cases h with
  | request | refuse | reply | halt | acquire | work | release => exact ⟨r', hr, rfl, .inl hresult⟩
  | stop | announce | report =>
    simp only [State.setPhase, State.send_store] at hr
    exact ⟨r', hr, rfl, .inl hresult⟩
  | accept =>
    rw [Store.records_insert] at hr
    split at hr
    · cases hr
      cases hresult
    · exact ⟨r', hr, rfl, .inl hresult⟩
  | park | started =>
    simp only [Store.start, Store.records_modify] at hr
    split at hr
    · obtain ⟨r, hold, rfl⟩ := Option.map_eq_some_iff.mp hr
      exact ⟨r, hold, rfl, .inl hresult⟩
    · exact ⟨r', hr, rfl, .inl hresult⟩
  -- the one step that enters an outcome
  | @complete fresh other new rest hrun hch =>
    simp only [Store.complete, Store.records_modify] at hr
    split at hr
    · next ho =>
      subst ho
      obtain ⟨r, hold, rfl⟩ := Option.map_eq_some_iff.mp hr
      cases hresult
      exact ⟨r, hold, rfl, .inr ⟨hrun, rest, hch⟩⟩
    · exact ⟨r', hr, rfl, .inl hresult⟩

/-- An outcome in the table stays there: the loop is told of one only while there is none. -/
theorem Step.result_stays {id : TaskId} {r : Record} {result : Envelope} (h : Step d s e t)
    (hs : s.running = true → Tracked d es s) (hr : s.store.records[id]? = some r)
    (hresult : r.result = some result) :
    ∃ r' : Record, t.store.records[id]? = some r' ∧ r'.result = some result := by
  cases h with
  | request | refuse | reply | halt | acquire | work | release => exact ⟨r, hr, hresult⟩
  | stop | announce | report =>
    simp only [State.setPhase, State.send_store]
    exact ⟨r, hr, hresult⟩
  | @accept fresh ticket task rest hrun hch hfresh =>
    have hne : fresh ≠ id := fun he => by rw [he, hr] at hfresh; cases hfresh
    exact ⟨r, by rw [Store.records_insert, if_neg hne, hr], hresult⟩
  | park | started =>
    simp only [Store.start, Store.records_modify, hr, Option.map_some]
    split
    · exact ⟨_, rfl, hresult⟩
    · exact ⟨r, rfl, hresult⟩
  | @complete fresh other new rest hrun hch =>
    by_cases ho : other = id
    · subst ho
      obtain ⟨r', hr', hlife⟩ := (hs hrun).front other hch (by simp)
      rw [hr] at hr'
      cases hr'
      -- a task with an outcome has no report in its mail
      rw [hresult] at hlife
      cases hlife.complete.2.1
    · exact ⟨r, by rw [Store.complete, Store.records_modify, if_neg ho, hr], hresult⟩

/-- Every outcome in the table is explained, also when the loop has ended. -/
theorem explained_of_run {id : TaskId} {r : Record} {result : Envelope}
    (h : (State.new o).run d es = some s) (hr : s.store.records[id]? = some r)
    (hresult : r.result = some result) : Explained d es id r.task.invocation result := by
  refine run_induction (P := fun es s => ∀ {r : Record}, s.store.records[id]? = some r →
    r.result = some result → Explained d es id r.task.invocation result) ?_ ?_ h hr hresult
  · intro r hr
    simp [State.new, Store.empty] at hr
  · intro es s e t hreach _ ih hstep r' hr' hresult
    obtain ⟨r, hr, hsame, hbefore | ⟨hrun, rest, hch⟩⟩ := hstep.result_before hr' hresult
    · exact hsame ▸ (ih hr hbefore).mono
    · -- the report in front of the channel was explained when it was sent
      obtain ⟨r₀, hr₀, hlife⟩ := (tracked_of_run hreach hrun).front id hch (by simp)
      rw [hr] at hr₀
      cases hr₀
      exact hsame ▸ hlife.complete.2.2.1.mono

end

end TaskRelay.Engine
