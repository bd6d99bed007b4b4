import TaskRelay.Proofs.Pool.Size

/-!
# How a pool grows

A caller that finds no worker idle starts one, if there may be more. Jobs that wait or are about to
be put into the queue have a claim on a worker that is free, and as long as every caller that finds
a worker idle finds one that nobody has a claim on, there are as many free workers as claims:

> `Step.served`: as many workers are free as have a claim on them, or there are as many workers as
> there may be.

So no job waits while all workers are busy and another one could be started (`grows_of_run`).

But the counter of idle workers does not know about claims. It is read before the job is put into
the queue, and a worker lowers it only after it has taken a job. Two calls in a hurry may count on
the same idle worker, and then one of them is wrong (`not_always_grows`).
-/

namespace TaskRelay.Pool

namespace State

/-- How many workers are free. -/
def free (s : State) : Nat := s.workers.countP fun row => row.2.isFree

/-- How many jobs wait in the queue or are about to be put there. -/
def claimed (s : State) : Nat := s.queue.length + s.callers.countP fun row => row.2 = .offering

end State

/-- Whether a caller looks whether a worker is idle. -/
def Event.readsIdle : Event → Bool
  | .readIdle _ => true
  | _ => false

/-- In a step, a caller that finds a worker idle finds a free one that nobody has a claim on; and
no worker gives its slot back while a job waits or a call goes on. -/
def Unhurried (s : State) (e : Event) (t : State) : Prop :=
  (e.readsIdle = true → s.idle ≠ 0 → s.claimed < s.free) ∧
    (t.size < s.size → s.queue = [] ∧ s.callers = [])

instance (s : State) (e : Event) (t : State) : Decidable (Unhurried s e t) :=
  inferInstanceAs (Decidable (_ ∧ _))

/-- All steps of a run are so. -/
def State.RunsUnhurried : State → List Event → Prop
  | _, [] => True
  | s, e :: es => ∀ t ∈ s.step e, Unhurried s e t ∧ t.RunsUnhurried es

instance State.decidableRunsUnhurried :
    (es : List Event) → (s : State) → Decidable (s.RunsUnhurried es)
  | [], _ => isTrue trivial
  | _ :: es, _ =>
    have (t : State) : Decidable (t.RunsUnhurried es) := decidableRunsUnhurried es t
    inferInstanceAs (Decidable (∀ _, _ → _ ∧ _))

/-- There is a free worker for every job that waits, or all workers are there. -/
structure Served (s : State) : Prop where
  enough : s.size = s.limits.maxThreads ∨ s.claimed ≤ s.free
  /-- While a call goes on, workers only come. -/
  seen_le : ∀ row ∈ s.callers, ∀ seen, row.2 = .growing seen → seen ≤ s.size

section

variable {limits : Limits} {start s t : State} {e : Event} {es : List Event}

/-- Without jobs and calls nobody has a claim on a worker. -/
theorem State.claimed_eq_zero (hqueue : s.queue = []) (hcallers : s.callers = []) :
    s.claimed = 0 := by
  rw [State.claimed, hqueue, hcallers]
  rfl

/-- A pool that has just opened serves whoever may come. -/
theorem Opens.served (hs : Opens limits 0 s) : Served s := by
  refine ⟨.inr ?_, ?_⟩
  · rw [State.claimed_eq_zero hs.queue_eq hs.callers_eq]
    exact Nat.zero_le _
  · rw [hs.callers_eq]
    exact fun row hrow => nomatch hrow

/-- One step: a caller has read a size that there was, and no worker leaves during a call. -/
theorem Step.seen_le (h : Step s e t) (hu : Unhurried s e t) (hs : Served s) (hc : Counted s) :
    ∀ row ∈ t.callers, ∀ seen, row.2 = .growing seen → seen ≤ t.size := by
  intro row hrow seen hseen
  cases h with
  | call =>
    rcases List.mem_append.mp hrow with hrow | hrow
    · exact hs.seen_le row hrow seen hseen
    · cases List.mem_singleton.mp hrow
      cases hseen
  | approach hget happroach =>
    rcases Rows.mem_set hget hrow with rfl | hrow
    · cases happroach <;> cases hseen <;> exact Nat.le_refl _
    · exact hs.seen_le row hrow seen hseen
  -- a new worker makes the size greater, which leaves what was read below it
  | grow hget =>
    rcases Rows.mem_set hget hrow with rfl | hrow
    · cases hseen
    · exact Nat.le_succ_of_le (hs.seen_le row hrow seen hseen)
  | runInline hget =>
    rcases Rows.mem_set hget hrow with rfl | hrow
    · cases hseen
    · exact hs.seen_le row hrow seen hseen
  | enqueue hget | handOver hget | finishInline hget =>
    exact hs.seen_le row (Rows.mem_erase hget hrow) seen hseen
  | drop | turn | receive | finish => exact hs.seen_le row hrow seen hseen
  -- and a worker that leaves does so while nobody is in a call
  | retire hget | leave hget =>
    have hpos := hc.size_pos (State.mem_numbers hget)
    have hcallers := (hu.2 (Nat.sub_lt hpos Nat.one_pos)).2
    rw [show s.callers = [] from hcallers] at hrow
    cases hrow

/-- While a worker goes about, free workers stay free, unless they see that the pool is gone. -/
theorem Turn.free_eq {n idle : Nat} {p q : Worker} (h : Turn s n e p q idle) :
    q.isFree = p.isFree ∨ s.Drained := by
  cases h with
  | hangUp hdropped hqueue => exact .inr ⟨hdropped, hqueue⟩
  | countBusy hafter => cases p <;> cases hafter <;> exact .inl rfl
  | check => cases s.queue.isEmpty <;> exact .inl rfl
  | _ => exact .inl rfl

/-- What does not change the number of workers and takes a free worker only with its claim leaves
enough of them. -/
theorem Served.enough_of (hs : Served s) (hlimits : t.limits = s.limits) (hsize : t.size = s.size)
    (hbalance : t.claimed + s.free ≤ s.claimed + t.free) :
    t.size = t.limits.maxThreads ∨ t.claimed ≤ t.free := by
  rw [hlimits, hsize]
  have henough := hs.enough
  omega

/-- A caller on its way to the queue only claims a worker that nobody has a claim on, or finds that
there are as many workers as there may be. -/
theorem Approach.enough {job : Job} {p q : Caller} (h : Approach s job e p q)
    (hget : Rows.get? job s.callers = some p) (hu : Unhurried s e t) (hs : Served s)
    (hc : Counted s) : s.size = s.limits.maxThreads ∨
      { s with callers := Rows.set job q s.callers }.claimed ≤ s.free := by
  cases h with
  | busy | measure | again =>
    refine hs.enough_of (t := { s with callers := Rows.set job _ s.callers }) rfl rfl
      (Nat.le_of_eq ?_)
    simp only [State.claimed, State.free]
    rw [Rows.countP_set_eq hget]
    rfl
  | spare hidle =>
    right
    have hright := hu.1 rfl hidle
    have hclaims := Rows.countP_set_gain (f := fun row => row.2 = .offering) (a := .offering) hget
      rfl rfl
    simp only [State.claimed] at hright ⊢
    omega
  | full hfull =>
    have hseen := hs.seen_le _ (Rows.mem_of_get? hget) _ rfl
    exact .inl (Nat.le_antisymm hc.le_max (Nat.le_trans hfull hseen))

/-- One step: there is a free worker for every job that waits, unless all workers are there. -/
theorem Step.enough (h : Step s e t) (hu : Unhurried s e t) (hs : Served s) (hc : Counted s)
    (hstaffed : Staffed s) : t.size = t.limits.maxThreads ∨ t.claimed ≤ t.free := by
  have hnone : t.queue = [] → t.callers = [] →
      t.size = t.limits.maxThreads ∨ t.claimed ≤ t.free := by
    intro hqueue hcallers
    right
    rw [State.claimed_eq_zero hqueue hcallers]
    exact Nat.zero_le _
  cases h with
  | call =>
    refine hs.enough_of rfl rfl (Nat.le_of_eq ?_)
    simp only [State.claimed, State.free, List.countP_append]
    rfl
  | approach hget happroach => exact happroach.enough hget hu hs hc
  | grow hget hroom =>
    -- the worker that is started is free for the job
    right
    have henough := hs.enough
    have hclaims := Rows.countP_set_gain (f := fun row => row.2 = .offering) (a := .offering) hget
      rfl rfl
    simp only [State.claimed, State.free, List.countP_append, List.countP_singleton,
      Worker.isFree, if_true] at henough hclaims ⊢
    omega
  | enqueue hget =>
    have hclaims := Rows.countP_erase_loss (f := fun row => row.2 = .offering) hget rfl
    refine hs.enough_of rfl rfl ?_
    simp only [State.claimed, State.free, List.length_append, List.length_singleton]
    omega
  | @handOver job n hget hworker =>
    have hclaims := Rows.countP_erase_loss (f := fun row => row.2 = .offering) hget rfl
    have hfree := Rows.countP_set_loss (f := fun row => row.2.isFree) (a := .received job) hworker
      rfl rfl
    refine hs.enough_of rfl rfl ?_
    simp only [State.claimed, State.free]
    omega
  | runInline hget =>
    have hclaims := Rows.countP_set_loss (f := fun row => row.2 = .offering) (a := .running) hget
      rfl rfl
    refine hs.enough_of rfl rfl ?_
    simp only [State.claimed, State.free]
    omega
  | finishInline hget =>
    refine hs.enough_of rfl rfl (Nat.le_of_eq ?_)
    simp only [State.claimed, State.free]
    rw [Rows.countP_erase_eq hget rfl]
  | drop => exact hs.enough
  | turn hget hturn =>
    rcases hturn.free_eq with hfree | hdrained
    · refine hs.enough_of rfl rfl (Nat.le_of_eq ?_)
      simp only [State.claimed, State.free]
      rw [Rows.countP_set_eq hget hfree]
    · exact hnone hdrained.2 (hstaffed.no_calls hdrained.1)
  | @receive n job rest hget hqueue =>
    have hfree := Rows.countP_set_loss (f := fun row => row.2.isFree) (a := .received job) hget
      rfl rfl
    refine hs.enough_of rfl rfl ?_
    simp only [State.claimed, State.free, hqueue, List.length_cons]
    omega
  | finish hget =>
    have hfree := Rows.countP_set_gain (f := fun row => row.2.isFree) (a := .starting) hget rfl rfl
    refine hs.enough_of rfl rfl ?_
    simp only [State.claimed, State.free]
    omega
  | retire hget | leave hget =>
    have hpos := hc.size_pos (State.mem_numbers hget)
    obtain ⟨hqueue, hcallers⟩ := hu.2 (Nat.sub_lt hpos Nat.one_pos)
    exact hnone hqueue hcallers

/-- One step of a run without hurry keeps both. -/
theorem Step.served (h : Step s e t) (hu : Unhurried s e t) (hs : Served s) (hc : Counted s)
    (hstaffed : Staffed s) : Served t :=
  ⟨h.enough hu hs hc hstaffed, h.seen_le hu hs hc⟩

/-- So does a whole run. -/
theorem served_of_run (hs : Served s) (hc : Counted s) (hstaffed : Staffed s)
    (hu : s.RunsUnhurried es) (hrun : s.run es = some t) : Served t := by
  induction es generalizing s with
  | nil =>
    cases hrun
    exact hs
  | cons e es ih =>
    obtain ⟨m, hm, hrest⟩ := Option.bind_eq_some_iff.mp hrun
    obtain ⟨hnow, hlater⟩ := hu m hm
    have hstep := Step.of_step hm
    exact ih (hstep.served hnow hs hc hstaffed) (hstep.counted hc) (hstep.staffed hstaffed)
      hlater hrest

/-- As long as no call counts on a worker that is not free for its job, and no worker goes while a
call goes on, a job waits behind busy workers only if there are as many of them as there may be. -/
theorem grows_of_run (hopen : Opening limits 0 start) (hu : start.RunsUnhurried es)
    (hrun : start.run es = some s) (hqueue : s.queue ≠ [])
    (hbusy : ∀ row ∈ s.workers, ∃ job, row.2 = .running job) :
    s.size = limits.normalized.maxThreads := by
  have hstart := hopen.opens
  have hserved := served_of_run hstart.served hstart.counted hstart.staffed hu hrun
  have hnobody : s.free = 0 := by
    refine List.countP_eq_zero.mpr fun row hrow hfree => ?_
    obtain ⟨job, hjob⟩ := hbusy row hrow
    rw [hjob] at hfree
    cases hfree
  have hwaiting : 0 < s.claimed :=
    Nat.lt_of_lt_of_le (List.length_pos_iff.mpr hqueue) (Nat.le_add_right ..)
  rw [← limits_of_opening hopen hrun]
  refine hserved.enough.resolve_right fun henough => ?_
  omega

end

/-! ## Calls in a hurry -/

/-- Two workers may be there, and one is. Each call is made when the counter of idle workers is
right: the first job goes to the worker, a second worker is started for the second job, and the
third job waits. -/
def patience : List Event :=
  [.countIdle 0, .wait 0, .call 1, .readIdle 1, .offer 1, .receive 0, .countBusy 0,
    .call 2, .readIdle 2, .readSize 2, .grow 2 false, .offer 2,
    .countIdle 1, .wait 1, .receive 1, .countBusy 1,
    .call 3, .readIdle 3, .readSize 3, .grow 3 false, .offer 3]

theorem exists_run_patience : ∃ s, (State.new ⟨1, 2, 1, 0⟩).run patience = some s ∧
    s.queue = [3] ∧ s.workers = [(0, .running 1), (1, .running 2)] := ⟨_, rfl, rfl, rfl⟩

/-- The third job waits behind two workers, which is all there may be. -/
theorem grows_of_patience : ∃ s, (State.new ⟨1, 2, 1, 0⟩).run patience = some s ∧
    (State.new ⟨1, 2, 1, 0⟩).RunsUnhurried patience ∧ s.queue = [3] ∧ s.size = 2 := by
  have hu : (State.new ⟨1, 2, 1, 0⟩).RunsUnhurried patience := by decide
  obtain ⟨s, hrun, hqueue, hworkers⟩ := exists_run_patience
  refine ⟨s, hrun, hu, hqueue, grows_of_run .new hu hrun ?_ ?_⟩
  · rw [hqueue]
    exact List.cons_ne_nil _ _
  · rw [hworkers]
    intro row hrow
    rcases List.mem_pair.mp hrow with rfl | rfl
    · exact ⟨1, rfl⟩
    · exact ⟨2, rfl⟩

/-- The same pool. Two calls find the same worker idle, and no second worker is started. -/
def hurry : List Event :=
  [.countIdle 0, .wait 0, .call 1, .readIdle 1, .call 2, .readIdle 2,
    .offer 1, .receive 0, .countBusy 0, .offer 2]

theorem exists_run_hurry : ∃ s, (State.new ⟨1, 2, 1, 0⟩).run hurry = some s ∧
    s.dropped = false ∧ s.callers = [] ∧ s.queue = [2] ∧ s.workers = [(0, .running 1)] ∧
    s.size = 1 := ⟨_, rfl, rfl, rfl, rfl, rfl, rfl⟩

/-- A job may wait behind busy workers though another one could be started, also when no call goes
on any more. -/
theorem not_always_grows :
    ¬ ∀ {limits : Limits} {es : List Event} {s : State}, 1 ≤ limits.maxQueue →
      (State.new limits).run es = some s → s.dropped = false → s.callers = [] →
      s.queue ≠ [] → (∀ row ∈ s.workers, ∃ job, row.2 = .running job) →
      s.size = limits.normalized.maxThreads := by
  intro hgrows
  obtain ⟨s, hrun, halive, hcallers, hqueue, hworkers, hsize⟩ := exists_run_hurry
  have hfull := hgrows (Nat.le_refl 1) hrun halive hcallers (by simp [hqueue]) (by simp [hworkers])
  rw [hsize] at hfull
  cases hfull

end TaskRelay.Pool
