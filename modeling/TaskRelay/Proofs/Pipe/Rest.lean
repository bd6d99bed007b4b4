import TaskRelay.Proofs.Pipe.Outputs
import TaskRelay.Proofs.Pool.Rest
import TaskRelay.Proofs.Pool.Work

/-!
# A pipe of calls that succeed does not get stuck

A job of the pool ends only when the slot of its call is filled (`Employed`). So as long as slots
are pending somebody can do something: the client goes on with its calls, the pool gets to their
jobs, a job makes its submission or takes the answer, and until it has answered everything the
engine can go on. When all slots are filled joining goes on, and then the client asks for the table.

> `Sound.outcome_isSome`, `Sound.table_isSome`: when nothing can happen any more, outputs and table
> are there.
-/

namespace TaskRelay.Pipe.System

section

variable {d : Dispatcher} {registry : Registry} {limits : Pool.Limits} {opened : Pool.State}
  {o : Engine.Options} {calls : List Call} {values : List Value} {p q : System} {e : Event}
  {es : List Engine.Event} {place : Nat} {id : TaskId}

/-! ## The pool -/

/-- The pool has been given the jobs of all calls that were made, and a job has ended only if the
slot of its call is filled. -/
structure Employed (limits : Pool.Limits) (p : System) : Prop where
  pool : ∃ opened pes, Pool.Opening limits 0 opened ∧ opened.run pes = some p.pool ∧
    Pool.Event.drop ∉ pes ∧ ∀ (place : Nat) (slot : Slot), place < p.made →
      p.pipe.slots[place]? = some slot → slot.isPending = true → place ∈ Pool.called pes
  made : p.made ≤ p.pipe.slots.size
  ended : ∀ place ∈ p.pool.finished, ∀ slot : Slot, p.pipe.slots[place]? = some slot →
    slot.isPending = false
  /-- The client is in one call at a time. -/
  alone : p.pool.callers.length ≤ 1

/-- In the beginning no call is made. -/
theorem employed_new (hopen : Pool.Opening limits 0 opened) :
    Employed limits (new opened o calls) where
  pool := ⟨opened, [], hopen, rfl, List.not_mem_nil, fun _ _ hlt => absurd hlt (Nat.not_lt_zero _)⟩
  made := Nat.zero_le _
  ended := by
    show ∀ place ∈ opened.finished, _
    rw [hopen.opens.finished_eq]
    exact fun _ hmem => absurd hmem List.not_mem_nil
  alone := by
    show opened.callers.length ≤ 1
    rw [hopen.opens.callers_eq]
    exact Nat.zero_le _

/-- One step: a call hands over its job, which ends when the slot is filled. -/
theorem Step.employed (h : Step d registry p e q) (hp : Employed limits p) :
    Employed limits q := by
  obtain ⟨start, pes, hopen, hrun, hdrop, hcalled⟩ := hp.pool
  have hpending : ∀ {place : Nat} {slot : Slot}, q.pipe.slots[place]? = some slot →
      slot.isPending = true → p.pipe.slots[place]? = some slot := h.pending
  have hended : ∀ place ∈ p.pool.finished, ∀ slot : Slot, q.pipe.slots[place]? = some slot →
      slot.isPending = false := fun place hmem slot hslot => by
    by_contra hnot
    exact hnot (hp.ended place hmem slot (hpending hslot (Bool.not_eq_false _ ▸ hnot)))
  -- most steps touch neither the pool nor the count of calls
  have hkept : q.pool = p.pool → q.made = p.made → Employed limits q := fun hpool hmade => by
    refine ⟨⟨start, pes, hopen, hpool ▸ hrun, hdrop, fun place slot hlt hslot hwaits => ?_⟩,
      ?_, ?_, ?_⟩
    · exact hcalled place slot (hmade ▸ hlt) (hpending hslot hwaits) hwaits
    · rw [hmade, h.size_slots]
      exact hp.made
    · rw [hpool]
      exact hended
    · rw [hpool]
      exact hp.alone
  cases h with
  -- the call that is made is the last one, and all before it were handed over already
  | @call definition args kwargs pool hfree hslot hpool =>
    refine ⟨⟨start, pes ++ [.call p.made], hopen, ?_, ?_,
      fun place slot hlt hslot' hwaits => ?_⟩, ?_, ?_, ?_⟩
    · rw [Pool.run_concat, hrun]
      exact hpool
    · simpa using hdrop
    · rw [Pool.called, List.filterMap_append, List.mem_append]
      obtain hlt | rfl := Nat.lt_or_eq_of_le (Nat.le_of_lt_succ hlt)
      · exact .inl (hcalled place slot hlt hslot' hwaits)
      · exact .inr (List.mem_singleton_self _)
    · exact (Array.getElem?_eq_some_iff.mp hslot).1
    · rw [finished_eq (.of_step hpool)]
      exact hended
    · have hnobody : p.pool.callers = [] := List.isEmpty_iff.mp hfree
      rw [(Pool.Step.of_step hpool).eq_of_call, hnobody]
      exact Nat.le_refl _
  | @pass slot hslot hfilled =>
    refine ⟨⟨start, pes, hopen, hrun, hdrop, fun place slot' hlt hslot' hwaits => ?_⟩, ?_, hended,
      hp.alone⟩
    · obtain hlt | rfl := Nat.lt_or_eq_of_le (Nat.le_of_lt_succ hlt)
      · exact hcalled place slot' hlt hslot' hwaits
      · cases hslot.symm.trans hslot'
        rw [hfilled] at hwaits
        cases hwaits
    · exact (Array.getElem?_eq_some_iff.mp hslot).1
  -- a job that ends here has filled its slot
  | @pool e pool hown hfilled hpool =>
    refine ⟨⟨start, pes ++ [e], hopen, ?_, ?_, fun place slot hlt hslot hwaits => ?_⟩, hp.made,
      ?_, ?_⟩
    · rw [Pool.run_concat, hrun]
      exact hpool
    · intro hmem
      obtain hmem | hmem := List.mem_append.mp hmem
      · exact hdrop hmem
      · cases List.mem_singleton.mp hmem
        cases hown
    · rw [Pool.called, List.filterMap_append, List.mem_append]
      exact .inl (hcalled place slot hlt hslot hwaits)
    · intro place hmem slot hslot
      rw [finished_eq (.of_step hpool)] at hmem
      obtain hmem | hmem := List.mem_append.mp hmem
      · exact hfilled (Option.mem_toList.mp hmem) hslot
      · exact hended place hmem slot hslot
    · exact Nat.le_trans ((Pool.Step.of_step hpool).length_callers_le hown) hp.alone
  | look | refuse => exact hkept (take_pool ..) (take_made ..)
  | submit | fill | engine | ask | list => exact hkept rfl rfl

/-! ## Runs -/

/-- What is known about a system after any run, with what has happened at its engine. -/
structure Sound (d : Dispatcher) (limits : Pool.Limits) (o : Engine.Options) (calls : List Call)
    (values : List Value) (es : List Engine.Event) (p : System) : Prop where
  history : History d o es p
  running : p.engine.running = true
  submitted : Submitted calls p
  joined : Joined d o values es p
  listed : Listed d o es p
  employed : Employed limits p

/-- In a run all of this holds, whatever has happened. -/
theorem sound_of_run {events : List Event} (hopen : Pool.Opening limits 0 opened)
    (h : (new opened o calls).run d registry events = some p)
    (hpermits : o.threads ≤ Engine.State.maxPermits)
    (hcalls : List.Forall₂ (Succeeds d) calls values) :
    ∃ es, Sound d limits o calls values es p := by
  have hkeeps : ∀ {es fs : List Engine.Event} {p q : System} {e : Event}, History d o es p →
      Submitted calls p ∧ Joined d o values es p ∧ Listed d o es p ∧ Employed limits p →
      Step d registry p e q → Engine.Undisturbed fs → p.engine.run d fs = some q.engine →
      Submitted calls q ∧ Joined d o values (es ++ fs) q ∧ Listed d o (es ++ fs) q ∧
        Employed limits q := by
    intro es fs p q e hhistory hp hstep _ hrun
    obtain ⟨hsubmitted, hjoined, hlisted, hemployed⟩ := hp
    have hrunning := hhistory.running hpermits
    exact ⟨hstep.submitted hsubmitted,
      hstep.joined hjoined hsubmitted hhistory hrunning hcalls hrun,
      hstep.listed hlisted hjoined hhistory hrun, hstep.employed hemployed⟩
  obtain ⟨es, hhistory, hsubmitted, hjoined, hlisted, hemployed⟩ := run_induction
    ⟨submitted_new, joined_new, listed_new, employed_new hopen⟩ hkeeps h
  exact ⟨es, hhistory, hhistory.running hpermits, hsubmitted, hjoined, hlisted, hemployed⟩

/-! ## What is read from it -/

/-- An outcome is that of calls that have succeeded. -/
theorem Sound.outcome_eq {r : Except Failure (List Value)}
    (hs : Sound d limits o calls values es p) (hcalls : List.Forall₂ (Succeeds d) calls values)
    (hr : p.pipe.outcome? = some r) : r = .ok values := by
  unfold Progress.outcome? at hr
  rw [hs.joined.going] at hr
  dsimp only at hr
  split at hr
  · next hsize =>
    cases hr
    refine congrArg Except.ok (hs.joined.outputs.eq_of_length ?_)
    rw [Array.length_toList, hsize, hs.submitted.size_eq, hcalls.length_eq]
  · cases hr

/-- A table that is sent shows one completed task for each call. -/
theorem Sound.table_eq {r : Except Failure StoreState}
    (hs : Sound d limits o calls values es p) (hcalls : List.Forall₂ (Succeeds d) calls values)
    (hr : p.table? = some r) :
    ∃ table : StoreState, r = .ok table ∧ table.tasks.length = calls.length ∧
      ∀ task ∈ table.tasks, task.status = .completed := by
  obtain ⟨response, hresponse, rfl⟩ := Option.map_eq_some_iff.mp hr
  obtain ⟨posted, hlisting, hresponse⟩ := Option.bind_eq_some_iff.mp hresponse
  obtain ⟨table, rfl, hlength, hcompleted⟩ :=
    hs.listed.table hs.submitted hs.history hs.running hcalls hlisting hresponse
  refine ⟨table, ?_, hlength, hcompleted⟩
  simp only [Client.readResponse, StoreState.parse_encode, Except.mapError]

/-! ## When nothing can happen any more -/

/-- As long as the engine is not quiet, it can go on. -/
theorem Sound.quiescent (hs : Sound d limits o calls values es p) (hrest : p.AtRest d registry) :
    p.engine.Quiescent := by
  by_contra hq
  obtain ⟨e, engine, hown, hstep⟩ :=
    Engine.exists_own_step (Engine.Reachable.of_run hs.history.run) hs.running hq
  have hnone := hrest (.engine e) (by simp)
  simp only [step, if_pos hown, hstep] at hnone
  cases hnone

/-- At rest every request of the engine is answered. -/
theorem Sound.exists_response {ticket : Engine.Ticket} {request : Request}
    (hs : Sound d limits o calls values es p) (hrest : p.AtRest d registry)
    (hthreads : 0 < o.threads) (hasked : p.engine.asked[ticket]? = some request) :
    ∃ response, response? p.engine (.ok ticket) = some response :=
  Option.ne_none_iff_exists'.mp <| (hs.quiescent hrest).answered_of_run hs.history.run hthreads
    (Array.getElem?_eq_some_iff.mp hasked).1

/-- At rest nothing in the pool can act whose slot is filled. -/
theorem AtRest.not_acts {e : Pool.Event} (hrest : p.AtRest d registry)
    (hacts : Pool.Acts p.pool e)
    (hfilled : ∀ {place slot}, p.pool.ended? e = some place → p.pipe.slots[place]? = some slot →
      slot.isPending = false) : False := by
  obtain ⟨pool, hpool⟩ := hacts.possible
  have hnone := hrest (.pool e) fun worker heq => hacts.patient worker (Event.pool.inj heq)
  rw [step_pool hacts.own hfilled hpool] at hnone
  cases hnone

/-- A job that runs could take its submission to the engine, or take the answer, or end. -/
theorem Sound.not_isRunning {job : Pool.Job} (hs : Sound d limits o calls values es p)
    (hrest : p.AtRest d registry) (hthreads : 0 < o.threads) :
    ¬ p.pool.isRunning job = true := by
  intro hrunning
  obtain ⟨_, pes, hopen, hpool, -, -⟩ := hs.employed.pool
  -- before its slot is filled the job submits or takes the answer; after that it can end
  by_cases hpending : ∃ definition args kwargs,
      p.pipe.slots[job]? = some (.pending definition args kwargs)
  · obtain ⟨definition, args, kwargs, hslot⟩ := hpending
    cases hposted : Rows.get? job p.pipe.world.submissions with
    | none =>
      have hnone := hrest (.submit job) (by simp)
      simp only [step, System.submit, hrunning, hslot, hposted] at hnone
      cases hnone
    | some posted =>
      obtain ⟨_, _, ticket, _, _, rfl, hasked⟩ := hs.submitted.filed (Rows.mem_of_get? hposted)
      obtain ⟨response, hresponse⟩ := hs.exists_response hrest hthreads hasked
      have hnone := hrest (.fill job) (by simp)
      simp only [step, fillSlot, hslot, hposted, Option.bind_some, hresponse] at hnone
      cases hnone
  · obtain ⟨e, hacts, hended⟩ :=
      Pool.exists_step_of_isRunning (Pool.nodup_of_run hopen hpool) hrunning
    refine hrest.not_acts hacts fun {place slot} hplace hslot => ?_
    rw [hended] at hplace
    cases hplace
    cases slot with
    | pending definition args kwargs => exact absurd ⟨_, _, _, hslot⟩ hpending
    | answered | lost => rfl

/-- So the pool rests too. -/
theorem Sound.pool_atRest (hs : Sound d limits o calls values es p)
    (hrest : p.AtRest d registry) (hthreads : 0 < o.threads) : p.pool.AtRest := by
  obtain ⟨_, pes, hopen, hpool, -, -⟩ := hs.employed.pool
  by_contra hnot
  obtain ⟨e, hacts, hended⟩ | ⟨job, hrunning⟩ := Pool.goes_on (Pool.nodup_of_run hopen hpool) hnot
  · refine hrest.not_acts hacts fun {place slot} hplace _ => ?_
    rw [hended] at hplace
    cases hplace
  · exact hs.not_isRunning hrest hthreads hrunning

/-- All calls are made, and all slots are filled. -/
theorem Sound.filled (hs : Sound d limits o calls values es p) (hrest : p.AtRest d registry)
    (hthreads : 0 < o.threads) : p.isFree = true ∧ p.made = p.pipe.slots.size ∧
      ∀ {place : Nat} {slot : Slot}, p.pipe.slots[place]? = some slot →
        slot.isPending = false := by
  obtain ⟨_, pes, hopen, hpool, hdrop, hcalled⟩ := hs.employed.pool
  have hpoolRest := hs.pool_atRest hrest hthreads
  have halive := Pool.dropped_of_run hopen hpool hdrop
  have hcallers : p.pool.callers = [] := by
    obtain ⟨hcallers, -⟩ | ⟨hdropped, -⟩ := hpoolRest
    · exact hcallers
    · rw [halive] at hdropped
      cases hdropped
  have hfree : p.isFree = true := by
    unfold isFree
    rw [hcallers]
    rfl
  have hmade : p.made = p.pipe.slots.size := by
    by_contra hne
    have hlt := Nat.lt_of_le_of_ne hs.employed.made hne
    have hnone := hrest .call (by simp)
    have hslot := Array.getElem?_eq_getElem hlt
    generalize p.pipe.slots[p.made] = slot at hslot
    cases slot with
    | pending =>
      simp only [step, callNext, hfree, hslot, Pool.State.step, halive, hcallers,
        Rows.get?] at hnone
      cases hnone
    | answered | lost =>
      simp only [step, callNext, hfree, hslot] at hnone
      cases hnone
  refine ⟨hfree, hmade, fun {place slot} hslot => ?_⟩
  -- the job of a slot that waits was given to the pool, so it has ended, and filled the slot before
  by_contra hpending
  have hlt := (Array.getElem?_eq_some_iff.mp hslot).1
  have hjob := hcalled place slot (hmade ▸ hlt) hslot (Bool.not_eq_false _ ▸ hpending)
  have hended := (Pool.finished_of_atRest hopen hpool hpoolRest).symm.subset hjob
  exact hpending (hs.employed.ended place hended slot hslot)

/-- Joining is through with all slots: at the next one it could ask, or take in what it is told. -/
theorem Sound.size_outputs (hs : Sound d limits o calls values es p)
    (hrest : p.AtRest d registry) (hthreads : 0 < o.threads)
    (hcalls : List.Forall₂ (Succeeds d) calls values) :
    p.pipe.outputs.size = p.pipe.slots.size := by
  obtain ⟨hfree, hmade, hfilled⟩ := hs.filled hrest hthreads
  have hjoining : p.isJoining = true := by
    simp only [isJoining, hfree, hmade, hs.joined.going, decide_true, Option.isNone_none,
      Bool.and_self]
  have hle := hs.joined.outputs.length_le
  rw [Array.length_toList, ← hcalls.length_eq, ← hs.submitted.size_eq] at hle
  -- if a slot were left, its question could be put, or its answer be taken in
  by_contra hne
  have hslot := Array.getElem?_eq_getElem (Nat.lt_of_le_of_ne hle hne)
  obtain ⟨id, heq, -⟩ := hs.submitted.served hs.history hs.running
    (submission?_ne_none hcalls) hslot (hfilled hslot)
  rw [heq] at hslot
  cases hquestion : p.pipe.world.question with
  | none =>
    have hnone := hrest .ask (by simp)
    simp only [step, System.ask, hjoining, hslot, hquestion] at hnone
    cases hnone
  | some posted =>
    obtain ⟨ticket, _, rfl, -, hasked, -⟩ := hs.joined.question hquestion
    obtain ⟨response, hresponse⟩ := hs.exists_response hrest hthreads hasked
    have hnone := hrest .look (by simp)
    simp only [step, System.look, hjoining, hquestion, hresponse, Option.map_some] at hnone
    cases hnone

/-- All outputs are there. -/
theorem Sound.outcome_isSome (hs : Sound d limits o calls values es p)
    (hrest : p.AtRest d registry) (hthreads : 0 < o.threads)
    (hcalls : List.Forall₂ (Succeeds d) calls values) :
    p.pipe.outcome? = some (.ok values) := by
  have hsome : p.pipe.outcome? = some (.ok p.pipe.outputs.toList) := by
    unfold Progress.outcome?
    rw [hs.joined.going]
    exact if_pos (hs.size_outputs hrest hthreads hcalls)
  rw [hsome, hs.outcome_eq hcalls hsome]

/-- The table is there. -/
theorem Sound.table_isSome (hs : Sound d limits o calls values es p)
    (hrest : p.AtRest d registry) (hthreads : 0 < o.threads)
    (hcalls : List.Forall₂ (Succeeds d) calls values) : p.table?.isSome = true := by
  have houtcome := hs.outcome_isSome hrest hthreads hcalls
  cases hlisting : p.listing with
  | none =>
    have hnone := hrest .list (by simp)
    simp only [step, System.list, houtcome, hlisting] at hnone
    cases hnone
  | some posted =>
    obtain ⟨ticket, _, rfl, hasked, -, -⟩ := hs.listed posted hlisting
    obtain ⟨response, hresponse⟩ := hs.exists_response hrest hthreads hasked
    simp only [table?, hlisting, Option.bind_some, hresponse, Option.map_some, Option.isSome_some]

end

end TaskRelay.Pipe.System
