import TaskRelay.Proofs.Engine.Life

/-!
# The table as a history

The table shows what the loop has accepted. What that is can be read off a run without looking at
the table: a task is accepted when the loop gets to its submission, and it has the id that it is
given there (`State.accepted`). Whatever else happens in between, the table keeps up with that:

> `listing_of_run`: after every run the table lists the tasks that were accepted, in that order and
> as they were submitted.

Only the status, the outcome and the waiters of a task change. In every state they fit together
(`Fits`), though the loop writes a status without looking at the old one; it is the order of the
commands in the channel that keeps them so (`Life`).

> `table_of_run`: ids and records agree, the status of every record fits its outcome, and the loop
> never gets to an announcement or a report about a task without a record.
-/

namespace TaskRelay

/-- What a table says about its tasks, apart from how far they have got. -/
def StoreState.listing (t : StoreState) : List (TaskId × Invocation) :=
  t.tasks.map fun task => (task.id, task.invocation)

namespace Engine

/-! ## What a run accepts -/

/-- The task that a command submits. -/
def Command.submission? : Command → Option Submission
  | .append _ (.newTask task) => some task
  | _ => none

/-- The task that the loop accepts in an event, if it does, and its id. -/
def State.acceptance? (s : State) : Event → Option (TaskId × Submission)
  | .process fresh => (s.channel.head?.bind Command.submission?).map (fresh, ·)
  | _ => none

/-- The tasks that are accepted in a run, first one first, each with its id. -/
def State.accepted (d : Dispatcher) : State → List Event → List (TaskId × Submission)
  | _, [] => []
  | s, e :: es =>
    match s.step d e with
    | some t => (s.acceptance? e).toList ++ t.accepted d es
    | none => []

/-- How the table lists an accepted task. -/
def listed (a : TaskId × Submission) : TaskId × Invocation := (a.1, a.2.invocation)

section

variable {d : Dispatcher} {o : Options} {s t u : State} {e : Event} {es fs : List Event}
  {id : TaskId}

/-- What the loop accepts next is what is submitted in front of the channel. -/
theorem State.acceptance?_process {fresh : TaskId} {c : Command} {rest : List Command}
    (hch : s.channel = c :: rest) :
    s.acceptance? (.process fresh) = c.submission?.map (fresh, ·) := by
  simp only [State.acceptance?, hch, List.head?_cons, Option.bind_some]

/-- What is accepted in the first part of a run does not depend on how the run goes on. -/
theorem accepted_append (h : s.run d es = some t) :
    s.accepted d (es ++ fs) = s.accepted d es ++ t.accepted d fs := by
  induction es generalizing s with
  | nil =>
    cases h
    rfl
  | cons e es ih =>
    obtain ⟨m, hm, hrest⟩ := Option.bind_eq_some_iff.mp h
    show State.accepted d s (e :: (es ++ fs)) = _
    simp only [State.accepted, hm, ih hrest, List.append_assoc]

/-- One more event adds what is accepted in it. -/
theorem accepted_concat (h : s.run d es = some t) (hlast : t.step d e = some u) :
    s.accepted d (es ++ [e]) = s.accepted d es ++ (t.acceptance? e).toList := by
  rw [accepted_append h]
  simp only [State.accepted, hlast, List.append_nil]

/-! ## The listing -/

/-- A table lists its records in the order of its ids. -/
theorem Store.listing_snapshot (s : Store) : s.snapshot.listing =
    s.order.toList.filterMap fun id =>
      s.records[id]?.map fun r => (r.task.id, r.task.invocation) := by
  unfold snapshot StoreState.listing
  rw [List.map_map, List.map_filterMap]
  rfl

/-- A change of records does not show in the listing if it keeps what was submitted. -/
theorem Store.listing_modify {s : Store} {f : Record → Record}
    (hid : ∀ r, (f r).task.id = r.task.id)
    (hsame : ∀ r, (f r).task.invocation = r.task.invocation) :
    (s.modify id f).snapshot.listing = s.snapshot.listing := by
  rw [listing_snapshot, listing_snapshot]
  refine List.filterMap_congr fun other _ => ?_
  rw [records_modify]
  split
  · cases s.records[other]? with
    | none => rfl
    | some r => simp only [Option.map_some, hid, hsame]
  · rfl

/-- A task that is new to the table is listed behind all others. -/
theorem Store.listing_insert {s : Store} {task : Submission} (hw : s.WellFormed)
    (hfresh : s.records[id]? = none) :
    (s.insert id task).snapshot.listing = s.snapshot.listing ++ [listed (id, task)] := by
  have hnew : id ∉ s.order := fun hmem => hw.notMem_order hfresh (Array.mem_toList_iff.mpr hmem)
  unfold StoreState.listing
  rw [snapshot_insert hnew, List.map_append]
  rfl

/-- A step lists what it accepts, behind everything else. -/
theorem Step.listing (h : Step d s e t) (hw : s.store.WellFormed) :
    t.store.snapshot.listing =
      s.store.snapshot.listing ++ (s.acceptance? e).toList.map listed := by
  cases h with
  | request | refuse | acquire | release => exact (List.append_nil _).symm
  | stop | announce | report =>
    simp only [State.setPhase, State.send_store]
    exact (List.append_nil _).symm
  | work hget hwork =>
    cases hwork <;> exact (List.append_nil _).symm
  | accept hrun hch hfresh =>
    rw [State.acceptance?_process hch]
    exact Store.listing_insert hw hfresh
  | reply hrun hch hreply =>
    -- a submission is never just answered
    rw [State.acceptance?_process hch]
    cases hreply <;> exact (List.append_nil _).symm
  | @park fresh id ticket r rest hrun hch hrec hresult =>
    rw [State.acceptance?_process hch]
    show (s.store.modify id (.park ticket)).snapshot.listing = _ ++ []
    rw [List.append_nil]
    exact Store.listing_modify (fun _ => rfl) fun _ => rfl
  | @started fresh id rest hrun hch =>
    rw [State.acceptance?_process hch]
    show (s.store.modify id .start).snapshot.listing = _ ++ []
    rw [List.append_nil]
    exact Store.listing_modify (fun _ => rfl) fun _ => rfl
  | @complete fresh id result rest hrun hch =>
    rw [State.acceptance?_process hch]
    show (s.store.modify id (.complete result)).snapshot.listing = _ ++ []
    rw [List.append_nil]
    exact Store.listing_modify (fun _ => rfl) fun _ => rfl
  | halt hrun hch =>
    rw [State.acceptance?_process hch]
    exact (List.append_nil _).symm

/-- The table lists what was accepted, in that order. -/
theorem listing_of_run (h : (State.new o).run d es = some s) :
    s.store.snapshot.listing = ((State.new o).accepted d es).map listed := by
  refine run_induction
    (P := fun es s => s.store.snapshot.listing = ((State.new o).accepted d es).map listed) ?_ ?_ h
  · rfl
  · intro es s e t hs ht ih hstep
    obtain ⟨m, hm, hlast⟩ := run_concat ht
    rw [hs] at hm
    cases hm
    rw [hstep.listing (Reachable.of_run hs).wellFormed, ih, accepted_concat hs hlast,
      List.map_append]

/-! ## Ids and records -/

/-- The ids are listed in the order in which they were entered. -/
theorem Store.WellFormed.map_fst_listing {s : Store} (hw : s.WellFormed) :
    s.snapshot.listing.map Prod.fst = s.order.toList := by
  rw [Store.listing_snapshot, List.map_filterMap]
  have hsome : ∀ id ∈ s.order.toList,
      (s.records[id]?.map fun r => (r.task.id, r.task.invocation)).map Prod.fst = some id := by
    intro id hid
    obtain ⟨r, hrec⟩ := (hw.mem_order id).mp hid
    rw [hrec, Option.map_some, Option.map_some, hw.id_eq hrec]
  rw [List.filterMap_congr hsome, List.filterMap_some]

/-- Ids are given out once, in the order of the table. -/
theorem order_of_run (h : (State.new o).run d es = some s) :
    s.store.order.toList = ((State.new o).accepted d es).map Prod.fst := by
  rw [← (Reachable.of_run h).wellFormed.map_fst_listing, listing_of_run h, List.map_map]
  rfl

/-- A record is that of a task which was accepted under its id. -/
theorem accepted_of_record {r : Record} (h : (State.new o).run d es = some s)
    (hrec : s.store.records[id]? = some r) :
    r.task.id = id ∧ ∃ task, (id, task) ∈ (State.new o).accepted d es ∧
      r.task.invocation = task.invocation := by
  have hw := (Reachable.of_run h).wellFormed
  have hid := hw.id_eq hrec
  refine ⟨hid, ?_⟩
  have hmem : (id, r.task.invocation) ∈ s.store.snapshot.listing := by
    rw [Store.listing_snapshot]
    refine List.mem_filterMap.mpr ⟨id, (hw.mem_order id).mpr ⟨r, hrec⟩, ?_⟩
    rw [hrec, Option.map_some, hid]
  rw [listing_of_run h] at hmem
  obtain ⟨⟨other, task⟩, hacc, heq⟩ := List.mem_map.mp hmem
  obtain ⟨rfl, hsame⟩ := Prod.mk.inj heq
  exact ⟨task, hacc, hsame.symm⟩

/-! ## Status and outcome -/

/-- A status goes with an outcome, or with none. -/
structure Fits (status : Status) (outcome : Option Envelope) : Prop where
  ended_iff : outcome ≠ none ↔ status = .completed ∨ status = .failed
  completed_iff : status = .completed ↔ ∃ value, outcome = some (.success value)
  not_retrying : status ≠ .retrying

/-- Before the end there is no outcome. -/
theorem Fits.pending {status : Status} (h : status = .enqueued ∨ status = .processing) :
    Fits status none := by
  rcases h with rfl | rfl <;> exact ⟨by simp, by simp, by simp⟩

/-- An outcome sets the status that goes with it. -/
theorem Fits.outcome (result : Envelope) : Fits (Record.statusOf result) (some result) := by
  unfold Record.statusOf
  cases result <;> constructor <;> simp [Envelope.isSuccess]

/-- The status that goes with an outcome is the one that the outcome calls for. -/
theorem Fits.status_eq {status : Status} {result : Envelope} (h : Fits status (some result)) :
    status = Record.statusOf result := by
  unfold Record.statusOf
  cases result with
  | success value => exact h.completed_iff.mpr ⟨value, rfl⟩
  | failure kind message trace =>
    rcases h.ended_iff.mp (by simp) with hstatus | hstatus
    · obtain ⟨value, hvalue⟩ := h.completed_iff.mp hstatus
      cases hvalue
    · exact hstatus

/-- In every stage of its life the status of a task goes with its outcome. -/
theorem Life.fits {E : Envelope → Prop} {p : Option Phase} {m : List Command} {status : Status}
    {outcome : Option Envelope} (h : Life E id p m status outcome) : Fits status outcome := by
  cases h with
  | queued | announced | overtaken => exact .pending (.inl rfl)
  | processing | reported => exact .pending (.inr rfl)
  | settled => exact .outcome _

/-- So it is with all records of a run, also when the loop has ended. -/
theorem fits_of_run {r : Record} (h : (State.new o).run d es = some s)
    (hrec : s.store.records[id]? = some r) : Fits r.task.status r.result := by
  refine run_store (P := fun store => ∀ {r : Record}, store.records[id]? = some r →
    Fits r.task.status r.result) ?_ ?_ h hrec
  · intro r hr
    simp [State.new, Store.empty] at hr
  · intro es s hs hrun r hr
    exact ((tracked_of_run hs hrun).life hr).fits

/-! ## The table of every run -/

/-- Only a loop that runs gets to a command. -/
theorem Step.running_of_process {fresh : TaskId} (h : Step d s (.process fresh) t) :
    s.running = true := by
  cases h with
  | work _ hwork => cases hwork
  | _ => assumption

/-- The loop never gets to an announcement or a report about an id without a record. -/
theorem mem_records_of_isAbout {fresh : TaskId} {c : Command} {rest : List Command}
    (h : (State.new o).run d es = some s) (hnext : s.step d (.process fresh) = some t)
    (hch : s.channel = c :: rest) (habout : c.isAbout id = true) : id ∈ s.store.records := by
  have hrun := (Step.of_step hnext).running_of_process
  obtain ⟨r, hrec, -⟩ := (tracked_of_run h hrun).front id hch habout
  rw [Std.HashMap.mem_iff_isSome_getElem?, hrec]
  rfl

/-- In every state that a run comes to: the ids are listed without repetition, as they were given
out, and are those of the records; every record is that of an accepted task, with the id and the
invocation of its submission; a task has an outcome just if it is completed or failed, is completed
just if the outcome is a success, is never retried, and is waited for only as long as it has no
outcome; and no announcement and no report that the loop has got to was about an id without a
record. -/
theorem table_of_run (h : (State.new o).run d es = some s) :
    s.store.order.toList.Nodup ∧
    s.store.order.toList = ((State.new o).accepted d es).map Prod.fst ∧
    (∀ id, id ∈ s.store.order ↔ id ∈ s.store.records) ∧
    (∀ {id : TaskId} {r : Record}, s.store.records[id]? = some r →
      (r.task.id = id ∧ ∃ task, (id, task) ∈ (State.new o).accepted d es ∧
        r.task.definition = task.definition ∧ r.task.args = task.args ∧
        r.task.kwargs = task.kwargs) ∧
      (r.result ≠ none ↔ r.task.status = .completed ∨ r.task.status = .failed) ∧
      (r.task.status = .completed ↔ ∃ value, r.result = some (.success value)) ∧
      (r.result ≠ none → r.waiters = []) ∧
      r.task.status ≠ .retrying) ∧
    ∀ {before after : List Event} {fresh id : TaskId} {u : State} {c : Command}
      {rest : List Command}, es = before ++ .process fresh :: after →
      (State.new o).run d before = some u → u.channel = c :: rest → c.isAbout id = true →
      id ∈ u.store.records := by
  have hw := (Reachable.of_run h).wellFormed
  refine ⟨hw.nodup, order_of_run h, fun id => ?_, fun {id r} hrec => ?_, ?_⟩
  · rw [← Array.mem_toList_iff, hw.mem_order, Std.HashMap.mem_iff_isSome_getElem?,
      Option.isSome_iff_exists]
  · obtain ⟨hid, task, hacc, hsame⟩ := accepted_of_record h hrec
    obtain ⟨hdefinition, harguments⟩ := Prod.mk.inj hsame
    obtain ⟨hargs, hkwargs⟩ := Prod.mk.inj harguments
    have hfits := fits_of_run h hrec
    exact ⟨⟨hid, task, hacc, hdefinition, hargs, hkwargs⟩, hfits.ended_iff, hfits.completed_iff,
      hw.idle hrec, hfits.not_retrying⟩
  -- the run came through the state in which the loop gets to the command
  · rintro before after fresh id u c rest rfl hbefore hch habout
    rw [run_append, hbefore, Option.bind_some] at h
    obtain ⟨m, hnext, -⟩ := Option.bind_eq_some_iff.mp h
    exact mem_records_of_isAbout hbefore hnext hch habout

/-- A task from its submission to its outcome. -/
def runOnce : List Event :=
  [.request (.newTask echoTask), .process ⟨"a"⟩] ++ Event.drive ⟨"a"⟩ ++
    [.process ⟨""⟩, .process ⟨""⟩]

theorem exists_run_runOnce : ∃ s r, (State.new .default).run echo runOnce = some s ∧
    s.store.records[TaskId.mk "a"]? = some r ∧ r.result ≠ none := by
  have hthreads : Options.default.threads = 2 := by decide
  have hpermits : 2 ≤ State.maxPermits := by decide
  simp [runOnce, Event.drive, State.run, State.step, State.new, State.request, State.send,
    State.handle, State.accept, State.complete, State.answer, State.answerAll, State.setPhase,
    Store.insert, Store.empty, Store.modify, Store.start, Store.complete, Store.waiters, Record.new,
    Record.start, Record.complete, Rows.get?, Rows.set, Rows.erase, hthreads, hpermits]

/-- The task that has an outcome has ended, and its record is that of its submission. -/
theorem table_of_runOnce : ∃ s r, (State.new .default).run echo runOnce = some s ∧
    s.store.records[TaskId.mk "a"]? = some r ∧ r.task.id = ⟨"a"⟩ ∧ r.result ≠ none ∧
    (r.task.status = .completed ∨ r.task.status = .failed) ∧ r.waiters = [] ∧
    TaskId.mk "a" ∈ s.store.records := by
  obtain ⟨s, r, hrun, hrec, hresult⟩ := exists_run_runOnce
  obtain ⟨-, -, -, hrecords, -⟩ := table_of_run hrun
  obtain ⟨⟨hid, -⟩, hended, -, hidle, -⟩ := hrecords hrec
  refine ⟨s, r, hrun, hrec, hid, hresult, hended.mp hresult, hidle hresult, ?_⟩
  rw [Std.HashMap.mem_iff_isSome_getElem?, hrec]
  rfl

end

end Engine

end TaskRelay
