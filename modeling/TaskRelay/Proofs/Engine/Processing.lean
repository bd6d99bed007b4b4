import TaskRelay.Proofs.Engine.Answers

/-!
# No more tasks are shown as processing than there are threads

The table lags behind the drivers: it shows a task as being processed from the moment at which the
loop gets to the announcement until the moment at which it gets to the report. Between those the
driver may long have given its permit to another one, and still there are never more such tasks
than threads. The reason is the order in the channel: a driver announces only after it got its
permit, and gives it back only after it reported, so that the report of one task is always in front
of the announcement of the task that got its permit.

`Paced` counts that, for the whole channel and for every rest of it:

> `processing`: the tasks that the table shows as processing, and those that it is going to, are
> the busy drivers and those whose report is still in the channel.

> `window`: busy drivers and reports in a rest of the channel are no more than the threads and the
> announcements in that rest.

With the whole channel for the rest, this is `count_processing_le`, and every answer that lists the
table stays within the bound (`bounded_of_run`).
-/

namespace TaskRelay.Engine

/-! ## What is counted -/

def Command.isStarted : Command → Bool
  | .started _ => true
  | _ => false

def Command.isComplete : Command → Bool
  | .complete _ _ => true
  | _ => false

/-- The announcements in a channel. -/
def announcements (cs : List Command) : Nat := cs.countP Command.isStarted

/-- The reports in a channel. -/
def reports (cs : List Command) : Nat := cs.countP Command.isComplete

/-- The driver has announced its task and not reported its outcome. -/
def Phase.isBusy : Phase → Bool
  | .announced => true
  | .executing => true
  | .executed _ => true
  | _ => false

/-- How many drivers are busy. -/
def State.busy (s : State) : Nat := s.drivers.countP fun row => row.2.phase.isBusy

/-- A busy driver holds a permit. -/
theorem State.busy_le_held (s : State) : s.busy ≤ s.held := by
  unfold busy held
  refine List.countP_mono_left fun row _ h => ?_
  generalize row.2.phase = p at h ⊢
  cases p <;> first | rfl | cases h

namespace Store

variable {s : Store} {id : TaskId} {status : Status}

/-- A change of one record changes the count of a status by that record. -/
theorem count_modify {f : Record → Record} {r : Record} (status : Status) (hw : s.WellFormed)
    (hrec : s.records[id]? = some r) :
    (s.modify id f).snapshot.count status + (if r.task.status = status then 1 else 0) =
      s.snapshot.count status + (if (f r).task.status = status then 1 else 0) := by
  have hmem : id ∈ s.order.toList := (hw.mem_order id).mpr ⟨r, hrec⟩
  have hcount := countP_except
    (p := fun i => (s.modify id f).records[i]?.any fun r => decide (r.task.status = status))
    (q := fun i => s.records[i]?.any fun r => decide (r.task.status = status)) hw.nodup hmem
    fun other ho => by rw [records_modify, if_neg (Ne.symm ho)]
  have hchanged : (s.modify id f).records[id]? = some (f r) := by simp [records_modify, hrec]
  simp only [hchanged, hrec, Option.any_some, decide_eq_true_eq] at hcount
  rw [count_snapshot, count_snapshot]
  exact hcount

/-- A new task adds one to those that wait in line. -/
theorem count_insert {task : Submission} (hw : s.WellFormed) (hfresh : s.records[id]? = none) :
    (s.insert id task).snapshot.count status =
      s.snapshot.count status + (if Status.enqueued = status then 1 else 0) := by
  have hnew : id ∉ s.order := fun hmem => hw.notMem_order hfresh (Array.mem_toList_iff.mpr hmem)
  unfold StoreState.count
  rw [snapshot_insert hnew, List.countP_append, List.countP_singleton]
  simp

end Store

/-- A task with an outcome is not being processed. -/
theorem Record.statusOf_ne_processing (result : Envelope) :
    Record.statusOf result ≠ .processing := by
  unfold Record.statusOf
  split <;> simp

/-! ## The invariant -/

/-- What the table shows as processing is what it should, and never too much of it. -/
structure Paced (threads : Nat) (s : State) : Prop where
  processing : s.store.snapshot.count .processing + announcements s.channel =
    s.busy + reports s.channel
  window : ∀ rest, rest <:+ s.channel → s.busy + reports rest ≤ threads + announcements rest

namespace Paced

variable {threads : Nat} {s t : State}

/-- No more tasks are shown as processing than there are threads. -/
theorem count_le (h : Paced threads s) : s.store.snapshot.count .processing ≤ threads := by
  have hwindow := h.window s.channel (List.suffix_refl _)
  have hprocessing := h.processing
  omega

/-- The loop takes a command away, and drivers stay as they are. -/
theorem consume {c : Command} {rest : List Command} (h : Paced threads s)
    (hch : s.channel = c :: rest) (hrest : t.channel = rest) (hdrivers : t.busy = s.busy)
    (hcount : t.store.snapshot.count .processing + (if c.isComplete then 1 else 0) =
      s.store.snapshot.count .processing + (if c.isStarted then 1 else 0)) : Paced threads t := by
  constructor
  · have hprocessing := h.processing
    unfold announcements reports at hprocessing ⊢
    rw [hch, List.countP_cons, List.countP_cons] at hprocessing
    rw [hrest, hdrivers]
    omega
  · intro behind hbehind
    rw [hdrivers]
    refine h.window behind (hbehind.trans ?_)
    rw [hch, hrest]
    exact List.suffix_cons c rest

/-- A command is sent, and what it announces or reports makes a driver busy or lets it be so no
more. -/
theorem produce {c : Command} (h : Paced threads s) (hch : t.channel = s.channel ++ [c])
    (hdrivers : t.busy + (if c.isComplete then 1 else 0) = s.busy + (if c.isStarted then 1 else 0))
    (hstore : t.store = s.store) (hle : t.busy ≤ threads) : Paced threads t := by
  constructor
  · have hprocessing := h.processing
    unfold announcements reports at hprocessing ⊢
    rw [hch, hstore, List.countP_append, List.countP_append, List.countP_singleton,
      List.countP_singleton]
    omega
  · intro behind hbehind
    rw [hch] at hbehind
    -- a rest is empty, or it is a rest of the old channel with the new command behind it
    rcases List.suffix_concat_iff.mp hbehind with hnil | ⟨before, hbefore, hsuffix⟩
    · subst hnil
      exact Nat.le_trans hle (Nat.le_add_right ..)
    · have hwindow := h.window before hsuffix
      subst hbefore
      unfold announcements reports at hwindow ⊢
      rw [List.countP_append, List.countP_append, List.countP_singleton, List.countP_singleton]
      omega

/-- Nothing that is counted has changed. -/
theorem congr (h : Paced threads s) (hch : t.channel = s.channel) (hdrivers : t.busy = s.busy)
    (hstore : t.store = s.store) : Paced threads t := by
  refine ⟨?_, fun rest hrest => ?_⟩
  · rw [hch, hdrivers, hstore]
    exact h.processing
  · rw [hdrivers]
    exact h.window rest (hch ▸ hrest)

end Paced

section

variable {d : Dispatcher} {o : Options} {s t : State} {e : Event} {es : List Event}

/-- A driver that goes on changes the count of busy ones by itself. -/
theorem State.busy_setPhase {id : TaskId} {task : Submission} {p q : Phase}
    (hget : Rows.get? id s.drivers = some ⟨task, p⟩) :
    (s.setPhase id task q).busy + (if p.isBusy then 1 else 0) =
      s.busy + (if q.isBusy then 1 else 0) :=
  Rows.countP_set hget

/-- Sending a command makes no driver busy. -/
theorem State.busy_send {c : Command} : (s.send c).busy = s.busy := by
  unfold State.busy
  rw [State.send_drivers]

/-- A driver that runs its task is busy before and after. -/
theorem Work.isBusy {id : TaskId} {task : Submission} {p q : Phase} (h : Work d id task e p q) :
    p.isBusy = true ∧ q.isBusy = true := by
  cases h <;> exact ⟨rfl, rfl⟩

/-- One step: a task is announced by a driver that gets busy, and reported by one that is busy no
more. -/
theorem Step.paced {threads : Nat} (h : Step d s e t) (hrun : t.running = true)
    (hw : s.store.WellFormed) (htracked : Tracked d es s) (hle : t.busy ≤ threads)
    (hs : Paced threads s) : Paced threads t := by
  cases h with
  | request => exact hs.produce rfl rfl rfl hle
  | refuse => exact hs.congr rfl rfl rfl
  | halt => cases hrun
  | stop =>
    rw [State.send_running] at hrun
    exact hs.produce (c := .stop) (by rw [State.send_channel, if_pos hrun])
      (by rw [State.busy_send]; rfl) (State.send_store ..) hle
  | @accept fresh ticket task rest hrun hch hfresh =>
    refine hs.consume hch rfl ?_ ?_
    · simp [State.busy, Phase.isBusy]
    · simp only [Store.count_insert hw hfresh]
      rfl
  | reply _ hch => exact hs.consume hch rfl rfl rfl
  | @park fresh id ticket r rest hrun hch hrec hresult =>
    refine hs.consume hch rfl rfl ?_
    have hcount := Store.count_modify (f := .park ticket) .processing hw hrec
    exact Nat.add_right_cancel hcount
  | @started fresh id rest hrun hch =>
    obtain ⟨r, hrec, hlife⟩ := htracked.front id hch (by simp)
    refine hs.consume hch rfl rfl ?_
    have hcount := Store.count_modify (f := .start) .processing hw hrec
    rw [hlife.started.1] at hcount
    exact hcount
  | @complete fresh id result rest hrun hch =>
    obtain ⟨r, hrec, hlife⟩ := htracked.front id hch (by simp)
    refine hs.consume hch rfl rfl ?_
    have hcount := Store.count_modify (f := .complete result) .processing hw hrec
    have hover : (Record.complete result r).task.status ≠ .processing :=
      Record.statusOf_ne_processing result
    rw [hlife.complete.1, if_pos rfl, if_neg hover] at hcount
    exact hcount
  | acquire hget =>
    -- a driver with a permit is not busy before it announces its task
    refine hs.congr rfl ?_ rfl
    exact State.busy_setPhase (s := s) (q := .admitted) hget
  | @work id task e p q hget hwork =>
    refine hs.congr rfl ?_ rfl
    have hbusy := State.busy_setPhase (s := s) (q := q) hget
    rw [hwork.isBusy.1, hwork.isBusy.2] at hbusy
    exact Nat.add_right_cancel hbusy
  | @announce id task hget =>
    simp only [State.setPhase, State.send_running] at hrun
    have hbusy := State.busy_setPhase (s := s.send (.started id)) (q := .announced)
      ((State.send_drivers ..).symm ▸ hget)
    rw [State.busy_send] at hbusy
    exact hs.produce (c := .started id) ((State.send_channel ..).trans (if_pos hrun)) hbusy
      (State.send_store ..) hle
  | @report id task result hget =>
    simp only [State.setPhase, State.send_running] at hrun
    have hbusy := State.busy_setPhase (s := s.send (.complete id result)) (q := .reported)
      ((State.send_drivers ..).symm ▸ hget)
    rw [State.busy_send] at hbusy
    exact hs.produce (c := .complete id result) ((State.send_channel ..).trans (if_pos hrun)) hbusy
      (State.send_store ..) hle
  | release hget =>
    -- nor is it after its report, which is in the channel by now
    have hbusy := Rows.countP_erase (f := fun row => row.2.phase.isBusy) hget
    exact hs.congr rfl hbusy rfl

/-- In the beginning nothing is announced. -/
theorem Paced.new : Paced o.threads (State.new o) := by
  refine ⟨rfl, fun rest hrest => ?_⟩
  have hnil : rest = [] := List.suffix_nil.mp hrest
  subst hnil
  exact Nat.zero_le _

/-- No more drivers are busy than there are permits. -/
theorem Reachable.busy_le (h : Reachable d o s) : s.busy ≤ o.threads := by
  have hpermits := h.permits_add_held
  have hbusy := s.busy_le_held
  omega

/-- So it is in a whole run, as long as the loop goes on. -/
theorem paced_of_run (h : (State.new o).run d es = some s) (hrun : s.running = true) :
    Paced o.threads s := by
  refine run_induction_running (P := fun _ s => Paced o.threads s) .new ?_ h hrun
  intro es s e t hs hbefore ht hrun ih hstep
  have hle := (Reachable.of_run ht).busy_le
  exact hstep.paced hrun (Reachable.of_run hs).wellFormed (tracked_of_run hs hbefore) hle ih

/-- The bound holds for good, whether the loop still runs or not. -/
theorem count_processing_le (h : (State.new o).run d es = some s) :
    s.store.snapshot.count .processing ≤ o.threads :=
  -- `Paced` needs the commands of the channel, and a loop that ends throws them away
  run_store (P := fun store => store.snapshot.count .processing ≤ o.threads) Paced.new.count_le
    (fun hs hrun => (paced_of_run hs hrun).count_le) h

/-- In every state of every run no more tasks execute than there are threads, the table shows no
more of them as being processed, and so does every table that a client gets. -/
theorem bounded_of_run (h : (State.new o).run d es = some s) :
    s.executing ≤ o.threads ∧
    s.store.snapshot.count .processing ≤ o.threads ∧
    ∀ {ticket : Ticket} {text : String}, s.asked[ticket]? = some .getStoreState →
      s.answer? ticket = some (.ok text) →
      ∃ table : StoreState, StoreState.parse text = .ok table ∧
        table.count .processing ≤ o.threads := by
  refine ⟨(Reachable.of_run h).executing_le, count_processing_le h, ?_⟩
  intro ticket text hasked hans
  cases right_of_answer h hasked hans with
  | @listed u hu =>
    obtain ⟨fs, -, hrun⟩ := hu
    exact ⟨u.store.snapshot, StoreState.parse_encode _, count_processing_le hrun⟩

/-- Three tasks for two threads; two of them run, and the table is asked for. -/
def runTwo : List Event :=
  [.request (.newTask echoTask), .process ⟨"a"⟩, .request (.newTask echoTask), .process ⟨"b"⟩,
    .request (.newTask echoTask), .process ⟨"c"⟩, .acquire ⟨"b"⟩, .acquire ⟨"c"⟩, .announce ⟨"c"⟩,
    .announce ⟨"b"⟩, .execute ⟨"b"⟩, .execute ⟨"c"⟩, .process ⟨""⟩, .process ⟨""⟩,
    .request .getStoreState, .process ⟨""⟩]

theorem exists_run_runTwo : ∃ s, (State.new .default).run echo runTwo = some s ∧
    s.executing = 2 ∧ s.asked[3]? = some .getStoreState ∧
    ∃ text, s.answer? 3 = some (.ok text) := by
  have hthreads : Options.default.threads = 2 := by decide
  have hpermits : 2 ≤ State.maxPermits := by decide
  simp [runTwo, State.run, State.step, State.new, State.request, State.send, State.handle,
    State.accept, State.answer, State.answer?, State.setPhase, State.executing, Phase.isExecuting,
    Store.insert, Store.empty, Store.modify, Store.start, Record.new, Rows.get?, Rows.set,
    hthreads, hpermits]

/-- Both permits are taken, and the table that was asked for shows no more than that. -/
theorem bounded_of_runTwo : ∃ s, (State.new .default).run echo runTwo = some s ∧
    s.executing = Options.default.threads ∧ s.executing ≤ Options.default.threads ∧
    ∃ text table, s.answer? 3 = some (.ok text) ∧ StoreState.parse text = .ok table ∧
      table.count .processing ≤ Options.default.threads := by
  obtain ⟨s, hrun, hexecuting, hasked, text, hans⟩ := exists_run_runTwo
  obtain ⟨hle, -, hlisted⟩ := bounded_of_run hrun
  obtain ⟨table, hparse, hcount⟩ := hlisted hasked hans
  exact ⟨s, hrun, hexecuting, hle, text, table, hans, hparse, hcount⟩

end

end TaskRelay.Engine
