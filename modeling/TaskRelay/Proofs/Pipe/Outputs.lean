import TaskRelay.Proofs.Pipe.System

/-!
# What comes of calls that succeed

The calls of a pipe all succeed (`Succeeds`), and nobody ends its pool or its engine. Whatever the
schedule is, joining finds the task of each call under the id that the engine gave out, and asks for
its outcome when the task is in the table already; so what it takes in is the output of that call
(`Joined`).

When all outputs are there, all outcomes are in the table. So is nothing else, since every task of
the engine was submitted by the pipe, and no two calls were given the same id:

> `Listed.table`: the table that is sent then has one task for each call, and all are completed.
-/

namespace TaskRelay.Pipe

/-- A dispatcher executes the call with that output, and the output can be read back. -/
structure Succeeds (d : Dispatcher) (c : Call) (v : Value) : Prop where
  execute : ∃ task, c.submission? = some task ∧
    d.execute task.definition task.args task.kwargs = .success v
  doubleFree : (Envelope.success v).DoubleFree
  depth : (Envelope.success v).depth < Json.depthLimit

/-- What is read from the answer that a success is. -/
theorem readOutput_success {registry : Registry} {v : Value}
    (hdouble : (Envelope.success v).DoubleFree)
    (hdepth : (Envelope.success v).depth < Json.depthLimit) :
    readOutput registry (.ok (Envelope.success v).encode) = .ok v := by
  unfold readOutput Client.readResponse
  simp only [Envelope.parse_encode hdouble hdepth, Except.mapError, Except.bind]
  exact congrArg Except.ok (Value.ofJson_tree v)

namespace System

section

variable {d : Dispatcher} {registry : Registry} {limits : Pool.Limits} {opened : Pool.State}
  {o : Engine.Options} {calls : List Call} {values : List Value} {p q : System} {e : Event}
  {es fs : List Engine.Event} {place : Nat} {id : TaskId}

/-- Nobody stops the engine of a system. -/
theorem History.running (h : History d o es p) (hpermits : o.threads ≤ Engine.State.maxPermits) :
    p.engine.running = true := Engine.running_of_undisturbed h.run h.undisturbed hpermits

/-! ## Slots with tasks -/

/-- The task at a place: what its call has submitted, and where that is in the table. -/
structure Served (calls : List Call) (p : System) (place : Nat) (id : TaskId) : Prop where
  ticket : ∃ ticket, (place, .ok ticket) ∈ p.pipe.world.submissions ∧
    (ticket, .ok id.toJson.compact) ∈ p.engine.answers
  record : ∃ c task, ∃ r : Engine.Record, calls[place]? = some c ∧ c.submission? = some task ∧
    p.engine.store.records[id]? = some r ∧ r.task.invocation = task.invocation

/-- A slot that is filled comes from the answer to the submission of its call, which is the id of
the task. -/
theorem Submitted.served {slot : Slot} (hp : Submitted calls p) (h : History d o es p)
    (hrun : p.engine.running = true) (hcall : ∀ c ∈ calls, c.submission? ≠ none)
    (hslot : p.pipe.slots[place]? = some slot) (hfilled : slot.isPending = false) :
    ∃ id, slot = .answered (.ok id) ∧ Served calls p place id := by
  obtain ⟨c, hc, rfl⟩ | ⟨ticket, response, hmem, hans, rfl⟩ := hp.slot hslot
  · -- the arguments of no call were refused
    have hsome := hcall c (List.mem_of_getElem? hc)
    rw [isPending_slotOf] at hfilled
    unfold Call.submission? at hsome
    unfold Call.message? at hfilled
    cases harguments : c.arguments with
    | error f =>
      rw [harguments] at hsome
      exact absurd rfl hsome
    | ok texts =>
      rw [harguments] at hfilled
      cases hfilled
  · obtain ⟨c, task, ticket', hc, htask, hticket, hasked⟩ := hp.filed hmem
    cases hticket
    have hanswer := Rows.get?_of_mem (Engine.Reachable.of_run h.run).nodup_answers hans
    obtain ⟨id, r, rfl, hrec, hsame⟩ := Engine.accepted_of_answer h.run hrun hasked hanswer
    refine ⟨id, ?_, ⟨ticket, hmem, hans⟩, c, task, r, hc, htask, hrec, hsame⟩
    simp only [fill, Client.readResponse, TaskId.parse_compact, Except.mapError]

/-- No submission has failed. -/
theorem Submitted.failure?_eq_none {slot : Slot} (hp : Submitted calls p) (h : History d o es p)
    (hrun : p.engine.running = true) (hcall : ∀ c ∈ calls, c.submission? ≠ none)
    (hslot : p.pipe.slots[place]? = some slot) : slot.failure? = none := by
  cases hpending : slot.isPending with
  | true =>
    cases slot with
    | pending => rfl
    | answered | lost => cases hpending
  | false =>
    obtain ⟨id, rfl, -⟩ := hp.served h hrun hcall hslot hpending
    rfl

/-- An outcome of the task at a place is the output of its call. -/
theorem Served.result_eq {v : Value} {r : Engine.Record} {result : Envelope}
    (hserved : Served calls p place id) (h : History d o es p)
    (hcalls : List.Forall₂ (Succeeds d) calls values) (hv : values[place]? = some v)
    (hrec : p.engine.store.records[id]? = some r) (hresult : r.result = some result) :
    result = .success v := by
  obtain ⟨c, task, r', hc, htask, hrec', hsame⟩ := hserved.record
  cases hrec.symm.trans hrec'
  obtain ⟨hlt, rfl⟩ := List.getElem?_eq_some_iff.mp hc
  obtain ⟨hlt', rfl⟩ := List.getElem?_eq_some_iff.mp hv
  obtain ⟨task', htask', hexecute⟩ := (hcalls.get hlt hlt').execute
  cases htask.symm.trans htask'
  have heq := Engine.result_eq_execute h.run h.undisturbed hrec hresult
  obtain ⟨hdefinition, hargs, hkwargs⟩ : r.task.definition = task.definition ∧
      r.task.args = task.args ∧ r.task.kwargs = task.kwargs := by
    simpa only [StoredTask.invocation, Submission.invocation, Prod.mk.injEq] using hsame
  rw [heq, hdefinition, hargs, hkwargs]
  exact hexecute

/-- A task belongs to one place. -/
theorem Served.place_eq {other : Nat} (hserved : Served calls p place id)
    (hother : Served calls p other id) (hp : Submitted calls p) (h : History d o es p) :
    place = other := by
  obtain ⟨first, hfirst, hgiven⟩ := hserved.ticket
  obtain ⟨second, hsecond, hgiven'⟩ := hother.ticket
  obtain ⟨_, _, _, _, _, hticket, hasked⟩ := hp.filed hfirst
  obtain ⟨_, _, _, _, _, hticket', hasked'⟩ := hp.filed hsecond
  cases hticket
  cases hticket'
  obtain rfl := (Engine.enrolled_of_run h.run).injective ⟨_, hasked⟩ ⟨_, hasked'⟩ hgiven hgiven'
  exact hp.injective hfirst hsecond

/-- A place has one task. -/
theorem Served.id_eq {ticket : Engine.Ticket} {given : TaskId} (hserved : Served calls p place id)
    (hp : Submitted calls p) (h : History d o es p)
    (hmem : (place, .ok ticket) ∈ p.pipe.world.submissions)
    (hgiven : (ticket, .ok given.toJson.compact) ∈ p.engine.answers) : given = id := by
  obtain ⟨ticket', hmem', hgiven'⟩ := hserved.ticket
  have hsame := (Rows.get?_of_mem hp.once hmem).symm.trans (Rows.get?_of_mem hp.once hmem')
  cases hsame
  have hnodup := (Engine.Reachable.of_run h.run).nodup_answers
  have hanswer := (Rows.get?_of_mem hnodup hgiven).symm.trans (Rows.get?_of_mem hnodup hgiven')
  exact TaskId.compact_injective (Except.ok.inj (Option.some.inj hanswer))

/-! ## Joining -/

/-- The table holds an outcome of the task. -/
def HasOutcome (s : Engine.State) (id : TaskId) : Prop :=
  ∃ (r : Engine.Record) (result : Envelope), s.store.records[id]? = some r ∧
    r.result = some result

/-- Outcomes stay where they are. -/
theorem HasOutcome.run {s t : Engine.State} (h : HasOutcome s id)
    (hs : (Engine.State.new o).run d es = some s) (ht : s.run d fs = some t) :
    HasOutcome t id := by
  obtain ⟨r, result, hrec, hresult⟩ := h
  obtain ⟨r', hrec', hresult'⟩ := Engine.run_result hs ht hrec hresult
  exact ⟨r', result, hrec', hresult'⟩

/-- Joining has taken in the outputs of the first calls, whose outcomes are in the table, and asks
for that of the next one since its task is in the table. -/
structure Joined (d : Dispatcher) (o : Engine.Options) (values : List Value)
    (es : List Engine.Event) (p : System) : Prop where
  going : p.pipe.problem = none
  outputs : p.pipe.outputs.toList <+: values
  outcomes : ∀ {place}, place < p.pipe.outputs.size →
    ∃ id, p.pipe.slots[place]? = some (.answered (.ok id)) ∧ HasOutcome p.engine id
  question : ∀ {posted}, p.pipe.world.question = some posted → ∃ ticket id, posted = .ok ticket ∧
    p.pipe.slots[p.pipe.outputs.size]? = some (.answered (.ok id)) ∧
    p.engine.asked[ticket]? = some (.awaitTask id) ∧
    Engine.Since d o es ticket fun s => ∃ r : Engine.Record, s.store.records[id]? = some r

/-- In the beginning nothing is taken in yet. -/
theorem joined_new : Joined d o values [] (new opened o calls) :=
  ⟨rfl, List.nil_prefix, nofun, nofun⟩

/-- What joining has got to stays so while it does nothing. -/
theorem Joined.kept (hp : Joined d o values es p) (h : Step d registry p e q)
    (hhistory : History d o es p) (hrun : p.engine.run d fs = some q.engine)
    (hgoing : q.pipe.problem = p.pipe.problem) (houtputs : q.pipe.outputs = p.pipe.outputs)
    (hquestion : q.pipe.world.question = p.pipe.world.question) :
    Joined d o values (es ++ fs) q where
  going := hgoing.trans hp.going
  outputs := houtputs ▸ hp.outputs
  outcomes := by
    intro place hplace
    obtain ⟨id, hslot, houtcome⟩ := hp.outcomes (houtputs ▸ hplace)
    exact ⟨id, h.slot_kept hslot rfl, houtcome.run hhistory.run hrun⟩
  question := by
    intro posted hposted
    obtain ⟨ticket, id, rfl, hslot, hasked, hsince⟩ := hp.question (hquestion ▸ hposted)
    exact ⟨ticket, id, rfl, houtputs ▸ h.slot_kept hslot rfl, h.asked hasked, hsince.append⟩

/-- The next output is that of the next call. -/
theorem prefix_push {outputs : Array Value} {v : Value} (h : outputs.toList <+: values)
    (hv : values[outputs.size]? = some v) : (outputs.push v).toList <+: values := by
  obtain ⟨rest, rfl⟩ := h
  rw [← Array.length_toList, List.getElem?_append_right (Nat.le_refl _), Nat.sub_self] at hv
  obtain ⟨_, tail, rfl⟩ : ∃ w tail, rest = w :: tail := by
    cases rest with
    | nil => cases hv
    | cons w tail => exact ⟨w, tail, rfl⟩
  cases hv
  rw [Array.toList_push]
  exact ⟨tail, List.append_assoc ..⟩

theorem submission?_ne_none (hcalls : List.Forall₂ (Succeeds d) calls values) :
    ∀ c ∈ calls, c.submission? ≠ none := by
  intro c hmem
  obtain ⟨place, hlt, rfl⟩ := List.mem_iff_getElem.mp hmem
  obtain ⟨task, htask, -⟩ := (hcalls.get hlt (hcalls.length_eq ▸ hlt)).execute
  exact Option.ne_none_iff_exists'.mpr ⟨task, htask⟩

/-- What joining is told is the output of the next call. -/
theorem Joined.readOutput_eq (registry : Registry) {posted : Posted} {response : Engine.Response}
    (hp : Joined d o values es p) (hsubmitted : Submitted calls p) (hhistory : History d o es p)
    (hrun : p.engine.running = true) (hcalls : List.Forall₂ (Succeeds d) calls values)
    (hquestion : p.pipe.world.question = some posted)
    (hresponse : response? p.engine posted = some response) :
    ∃ v id, values[p.pipe.outputs.size]? = some v ∧ readOutput registry response = .ok v ∧
      p.pipe.slots[p.pipe.outputs.size]? = some (.answered (.ok id)) ∧ HasOutcome p.engine id := by
  obtain ⟨ticket, id, rfl, hslot, hasked, hsince⟩ := hp.question hquestion
  obtain ⟨r, result, hrec, hresult, rfl⟩ :=
    Engine.outcome_of_since hhistory.run hrun hsince hasked hresponse
  obtain ⟨_, heq, hserved⟩ :=
    hsubmitted.served hhistory hrun (submission?_ne_none hcalls) hslot rfl
  cases heq
  have hlt := (Array.getElem?_eq_some_iff.mp hslot).1
  rw [hsubmitted.size_eq] at hlt
  have hlt' : p.pipe.outputs.size < values.length := hcalls.length_eq ▸ hlt
  have hsucceeds := hcalls.get hlt hlt'
  have hv := List.getElem?_eq_getElem hlt'
  obtain rfl := hserved.result_eq hhistory hcalls hv hrec hresult
  exact ⟨_, id, hv, readOutput_success hsucceeds.doubleFree hsucceeds.depth, hslot,
    r, _, hrec, hresult⟩

/-- One step: joining asks for an outcome, takes it in, or stays as it is. -/
theorem Step.joined (h : Step d registry p e q) (hp : Joined d o values es p)
    (hsubmitted : Submitted calls p) (hhistory : History d o es p)
    (hrunning : p.engine.running = true) (hcalls : List.Forall₂ (Succeeds d) calls values)
    (hrun : p.engine.run d fs = some q.engine) : Joined d o values (es ++ fs) q := by
  have hstep := h
  cases h with
  | call | pass | pool | submit | fill | engine | list =>
    exact hp.kept hstep hhistory hrun rfl rfl rfl
  -- the task is in the table already, so that its outcome is asked for after that
  | @ask id hslot hnone =>
    refine ⟨hp.going, hp.outputs, fun {place} hplace => ?_, fun {posted} hposted => ?_⟩
    · obtain ⟨id, hslot, houtcome⟩ := hp.outcomes hplace
      exact ⟨id, hslot, houtcome.run hhistory.run hrun⟩
    · cases hposted
      refine ⟨_, id, rfl, hslot, ?_, ?_⟩
      · show (Engine.State.request _ p.engine).asked[p.engine.asked.size]? = _
        rw [Engine.State.request_asked]
        exact Array.getElem?_push_size
      · obtain ⟨_, heq, hserved⟩ :=
          hsubmitted.served hhistory hrunning (submission?_ne_none hcalls) hslot rfl
        cases heq
        obtain ⟨-, -, r, -, -, hrec, -⟩ := hserved.record
        exact (Engine.Since.next hhistory.run ⟨r, hrec⟩).append
  -- the answer is the outcome of the task, which is taken in behind the others
  | look hquestion hresponse =>
    obtain ⟨v, id, hv, hread, hslot, houtcome⟩ :=
      hp.readOutput_eq registry hsubmitted hhistory hrunning hcalls hquestion hresponse
    rw [hread] at hrun hstep ⊢
    refine ⟨hp.going, prefix_push hp.outputs hv, fun {place} hplace => ?_, nofun⟩
    have hplace : place < (p.pipe.outputs.push v).size := hplace
    rw [Array.size_push] at hplace
    obtain hlt | rfl := Nat.lt_or_eq_of_le (Nat.le_of_lt_succ hplace)
    · obtain ⟨id, hslot, houtcome⟩ := hp.outcomes hlt
      exact ⟨id, hslot, houtcome⟩
    · exact ⟨id, hslot, houtcome⟩
  -- no slot has a failure, as all calls are accepted
  | @refuse slot f hslot hfailure =>
    have hnone := hsubmitted.failure?_eq_none hhistory hrunning (submission?_ne_none hcalls) hslot
    rw [hnone] at hfailure
    cases hfailure

/-! ## The table -/

/-- Where all slots are filled, they stay as they are. -/
theorem Step.slots_kept (h : Step d registry p e q)
    (hfilled : ∀ slot ∈ p.pipe.slots.toList, slot.isPending = false) :
    q.pipe.slots = p.pipe.slots := by
  cases h with
  | fill hslot =>
    have hmem := Array.mem_toList_iff.mpr (Array.mem_of_getElem? hslot)
    cases hfilled _ hmem
  | look | refuse => rw [take_slots]
  | call | pass | pool | submit | engine | ask | list => rfl

/-- Who asks for the table does so when every slot has a task and all outcomes are there. -/
def Listed (d : Dispatcher) (o : Engine.Options) (es : List Engine.Event) (p : System) : Prop :=
  ∀ posted, p.listing = some posted → ∃ (ticket : Engine.Ticket) (ids : List TaskId),
    posted = .ok ticket ∧ p.engine.asked[ticket]? = some .getStoreState ∧
    p.pipe.slots.toList = ids.map (fun id => .answered (.ok id)) ∧
    Engine.Since d o es ticket fun s => ∀ id ∈ ids, HasOutcome s id

/-- When all outputs are there, so are all tasks with their outcomes. -/
theorem Joined.exists_ids {outputs : List Value} (hp : Joined d o values es p)
    (houtcome : p.pipe.outcome? = some (.ok outputs)) :
    ∃ ids : List TaskId, p.pipe.slots.toList = ids.map (fun id => .answered (.ok id)) ∧
      ∀ id ∈ ids, HasOutcome p.engine id := by
  have hsize : p.pipe.outputs.size = p.pipe.slots.size := by
    unfold Progress.outcome? at houtcome
    rw [hp.going] at houtcome
    dsimp only at houtcome
    split at houtcome
    · next hsize => exact hsize
    · cases houtcome
  have hslots : ∀ slot ∈ p.pipe.slots.toList, ∃ id : {id // HasOutcome p.engine id},
      Slot.answered (.ok id.1) = slot := by
    intro slot hmem
    obtain ⟨place, hlt, rfl⟩ := List.mem_iff_getElem.mp hmem
    obtain ⟨id, hslot, houtcome⟩ := hp.outcomes (hsize ▸ Array.length_toList ▸ hlt)
    rw [← Array.getElem?_toList, List.getElem?_eq_getElem hlt] at hslot
    exact ⟨⟨id, houtcome⟩, (Option.some.inj hslot).symm⟩
  -- all slots together are the image of a list of tasks with outcomes
  have hrange := Set.ext_iff.mp (Set.range_list_map
    fun id : {id // HasOutcome p.engine id} => Slot.answered (.ok id.1)) p.pipe.slots.toList
  obtain ⟨ids, hids⟩ := hrange.mpr hslots
  refine ⟨ids.map Subtype.val, ?_, fun id hmem => ?_⟩
  · rw [← hids, List.map_map]
    rfl
  · obtain ⟨⟨_, houtcome⟩, -, rfl⟩ := List.mem_map.mp hmem
    exact houtcome

theorem listed_new : Listed d o [] (new opened o calls) := by
  intro posted hposted
  cases hposted

/-- One step: the table is asked for once joining has come to its end. -/
theorem Step.listed (h : Step d registry p e q) (hp : Listed d o es p)
    (hjoined : Joined d o values es p) (hhistory : History d o es p)
    (hrun : p.engine.run d fs = some q.engine) : Listed d o (es ++ fs) q := by
  have hkept : q.listing = p.listing → Listed d o (es ++ fs) q := fun hsame posted hposted => by
    obtain ⟨ticket, ids, rfl, hasked, hslots, hsince⟩ := hp posted (hsame ▸ hposted)
    refine ⟨ticket, ids, rfl, h.asked hasked, ?_, hsince.append⟩
    rw [h.slots_kept fun slot hmem => ?_, hslots]
    rw [hslots] at hmem
    obtain ⟨id, -, rfl⟩ := List.mem_map.mp hmem
    rfl
  cases h with
  | list houtcome hnone =>
    intro posted hposted
    cases hposted
    obtain ⟨ids, hslots, houtcomes⟩ := hjoined.exists_ids houtcome
    refine ⟨_, ids, rfl, ?_, hslots, (Engine.Since.next hhistory.run houtcomes).append⟩
    show (Engine.State.request _ p.engine).asked[p.engine.asked.size]? = _
    rw [Engine.State.request_asked]
    exact Array.getElem?_push_size
  | look | refuse => exact hkept (take_listing ..)
  | call | pass | pool | submit | fill | engine | ask => exact hkept rfl

/-! ## The table that is sent -/

section

variable {ids : List TaskId}

/-- If all slots have tasks, each of them is the task of its call. -/
theorem Submitted.served_of_ids (hp : Submitted calls p) (h : History d o es p)
    (hrun : p.engine.running = true) (hcall : ∀ c ∈ calls, c.submission? ≠ none)
    (hslots : p.pipe.slots.toList = ids.map (fun id => .answered (.ok id)))
    (hid : ids[place]? = some id) : Served calls p place id := by
  have hslot : p.pipe.slots[place]? = some (.answered (.ok id)) := by
    rw [← Array.getElem?_toList, hslots, List.getElem?_map, hid]
    rfl
  obtain ⟨_, heq, hserved⟩ := hp.served h hrun hcall hslot rfl
  cases heq
  exact hserved

/-- The tasks of the slots are all different. -/
theorem Submitted.nodup_ids (hp : Submitted calls p) (h : History d o es p)
    (hrun : p.engine.running = true) (hcall : ∀ c ∈ calls, c.submission? ≠ none)
    (hslots : p.pipe.slots.toList = ids.map (fun id => .answered (.ok id))) : ids.Nodup := by
  refine List.nodup_iff_injective_get.mpr fun first second hsame => Fin.ext ?_
  have hserved : ∀ place : Fin ids.length, Served calls p place (ids.get place) := fun place =>
    hp.served_of_ids h hrun hcall hslots (List.getElem?_eq_getElem place.2)
  exact (hserved first).place_eq (hsame ▸ hserved second) hp h

/-- Every task that the engine has accepted so far is one of those of the slots. -/
theorem Submitted.mem_ids {before after : List Engine.Event} {u : Engine.State}
    (hp : Submitted calls p) (h : History d o es p)
    (hrun : p.engine.running = true) (hcall : ∀ c ∈ calls, c.submission? ≠ none)
    (hslots : p.pipe.slots.toList = ids.map (fun id => .answered (.ok id)))
    (hu : (Engine.State.new o).run d before = some u) (hafter : u.run d after = some p.engine)
    (hid : id ∈ u.store.order.toList) : id ∈ ids := by
  obtain ⟨ticket, task, hasked, hgiven⟩ := (Engine.enrolled_of_run hu).ticket id hid
  have hasked := Engine.run_keeps (P := fun s => s.asked[ticket]? = some (.newTask task))
    (fun hstep hs => hstep.asked hs) hafter hasked
  have hgiven := (Engine.run_answers_suffix hafter).subset hgiven
  obtain ⟨place, hmem⟩ := hp.ticket hasked
  obtain ⟨c, _, _, hc, -⟩ := hp.filed hmem
  have hlt : place < ids.length := by
    have hsize := congrArg List.length hslots
    rw [Array.length_toList, List.length_map, hp.size_eq] at hsize
    exact hsize ▸ (List.getElem?_eq_some_iff.mp hc).1
  have hserved := hp.served_of_ids h hrun hcall hslots (List.getElem?_eq_getElem hlt)
  obtain rfl := hserved.id_eq hp h hmem hgiven
  exact List.getElem_mem hlt

/-- The table that the client is sent when all outputs are there has one task for each call, and all
of them are completed. -/
theorem Listed.table {posted : Posted} {response : Engine.Response} (hl : Listed d o es p)
    (hp : Submitted calls p) (h : History d o es p) (hrun : p.engine.running = true)
    (hcalls : List.Forall₂ (Succeeds d) calls values) (hlisting : p.listing = some posted)
    (hresponse : response? p.engine posted = some response) :
    ∃ table : StoreState, response = .ok table.encode ∧ table.tasks.length = calls.length ∧
      ∀ task ∈ table.tasks, task.status = .completed := by
  have hcall := submission?_ne_none hcalls
  obtain ⟨ticket, ids, rfl, hasked, hslots, hsince⟩ := hl posted hlisting
  obtain ⟨before, after, u, rfl, hu, hafter, houtcomes, rfl⟩ := Engine.table_of_since h.run hrun
    (fun hu huv hall id hmem => (hall id hmem).run hu huv) hsince hasked hresponse
  have hw := (Engine.Reachable.of_run hu).wellFormed
  -- `u` is the state that is shown: later than the question, with no tasks but those of the slots
  have hmem : ∀ {id}, id ∈ u.store.order.toList ↔ id ∈ ids := fun {id} => by
    refine ⟨hp.mem_ids h hrun hcall hslots hu hafter, fun hid => ?_⟩
    obtain ⟨r, _, hrec, -⟩ := houtcomes id hid
    exact (hw.mem_order id).mpr ⟨r, hrec⟩
  refine ⟨u.store.snapshot, rfl, ?_, fun task htask => ?_⟩
  · have hperm : u.store.order.toList.Perm ids :=
      (List.perm_ext_iff_of_nodup hw.nodup (hp.nodup_ids h hrun hcall hslots)).mpr fun _ => hmem
    have hlisted := congrArg List.length hw.map_fst_listing
    have hsize := congrArg List.length hslots
    rw [List.length_map, StoreState.listing, List.length_map, hperm.length_eq] at hlisted
    rw [Array.length_toList, List.length_map, hp.size_eq] at hsize
    exact hlisted.trans hsize.symm
  · obtain ⟨r, hrec, rfl⟩ := hw.mem_snapshot.mp htask
    have hid := hmem.mp ((hw.mem_order _).mpr ⟨r, hrec⟩)
    obtain ⟨r', result, hrec', hresult⟩ := houtcomes _ hid
    cases hrec.symm.trans hrec'
    -- the outcome is what it is at the end of the run
    obtain ⟨r'', hrec'', hresult''⟩ := Engine.run_result hu hafter hrec hresult
    obtain ⟨place, hlt, hget⟩ := List.mem_iff_getElem.mp hid
    have hserved := hp.served_of_ids h hrun hcall hslots
      (hget ▸ List.getElem?_eq_getElem hlt)
    obtain ⟨c, -, -, hc, -⟩ := hserved.record
    have hlt' := hcalls.length_eq ▸ (List.getElem?_eq_some_iff.mp hc).1
    obtain rfl := hserved.result_eq h hcalls (List.getElem?_eq_getElem hlt') hrec'' hresult''
    exact Engine.status_eq_completed hu hrec hresult

end

end

end System

end TaskRelay.Pipe
