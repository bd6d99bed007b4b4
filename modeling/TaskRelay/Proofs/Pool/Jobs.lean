import Mathlib.Data.List.Basic
import TaskRelay.Proofs.Pool.Size

/-!
# The jobs of a pool

A pool neither drops a job nor runs one twice. A job stays with its caller until the caller gets
to the queue (`State.pending`), and from then on it is in one of four places: it waits in the queue,
a worker has it, its caller runs it, or it has ended (`State.handed`). Jobs have numbers, and a
number may be used again, so the balance is one of lists up to their order:

> `Step.calling`, `Step.handing`: a step moves jobs from place to place and loses none.

What a whole run comes to is `jobs_of_run`, from any state in which the pool has opened. It also
says when a caller runs its job itself, that a panic does not cost a worker, and that everything has
been run when the pool comes to rest.
-/

namespace TaskRelay

/-! ## What is collected from rows -/

section

variable {κ α β : Type} [DecidableEq κ] {key : κ} {a b : α} {rows : Rows κ α}

/-- When a row is set, what was collected from the old row gives way to what the new row gives. -/
theorem Rows.perm_filterMap_set (f : κ × α → Option β) (old new : Option β)
    (h : Rows.get? key rows = some b) (hold : f (key, b) = old) (hnew : f (key, a) = new) :
    (old.toList ++ (Rows.set key a rows).filterMap f).Perm (new.toList ++ rows.filterMap f) := by
  have hperm := (Rows.perm_set (a := a) h).filterMap f
  rwa [List.filterMap_eq_flatMap_toList, List.filterMap_eq_flatMap_toList, List.flatMap_cons,
    List.flatMap_cons, hold, hnew, ← List.filterMap_eq_flatMap_toList,
    ← List.filterMap_eq_flatMap_toList] at hperm

/-- What is gathered from rows loses with a row what that row has brought. -/
theorem Rows.perm_filterMap_erase (f : κ × α → Option β) (old : Option β)
    (h : Rows.get? key rows = some b) (hold : f (key, b) = old) :
    (old.toList ++ (Rows.erase key rows).filterMap f).Perm (rows.filterMap f) := by
  have hperm := (Rows.perm_erase h).filterMap f
  rwa [List.filterMap_eq_flatMap_toList, List.flatMap_cons, hold,
    ← List.filterMap_eq_flatMap_toList] at hperm

end

namespace Pool

/-! ## Where jobs are -/

/-- The job that a worker has got and not ended yet. -/
def Worker.job? : Worker → Option Job
  | .received job => some job
  | .running job => some job
  | _ => none

/-- The job of a call that has not got to the queue yet. -/
def pendingJob? (row : Job × Caller) : Option Job := if row.2 = .running then none else some row.1

/-- The job of a call that runs it. -/
def inlineJob? (row : Job × Caller) : Option Job := if row.2 = .running then some row.1 else none

namespace State

def pending (s : State) : List Job := s.callers.filterMap pendingJob?

def onCallers (s : State) : List Job := s.callers.filterMap inlineJob?

def onWorkers (s : State) : List Job := s.workers.filterMap fun row => row.2.job?

/-- All jobs that their callers have got to the queue with. -/
def handed (s : State) : List Job := s.queue ++ s.onWorkers ++ s.onCallers ++ s.finished

end State

/-- Where a job can be that its caller has got to the queue with. -/
inductive Place where
  | queue
  | worker (n : Nat)
  | caller
  | finished
deriving DecidableEq, Repr

/-- The jobs with their places. -/
def State.places (s : State) : Rows Job Place :=
  s.queue.map (·, .queue) ++
    s.workers.filterMap (fun row => row.2.job?.map (·, .worker row.1)) ++
    s.onCallers.map (·, .caller) ++ s.finished.map (·, .finished)

namespace Event

/-- The job that is submitted in an event. -/
def called? : Event → Option Job
  | .call job => some job
  | _ => none

/-- The job that leaves the way of its caller to the queue in an event: it is put into the queue,
handed to a worker, or run by the caller. -/
def offered? : Event → Option Job
  | .offer job => some job
  | .handOver job _ => some job
  | _ => none

/-- The job that a caller has run itself. -/
def endedInline? : Event → Option Job
  | .finishInline job _ => some job
  | _ => none

end Event

def called (es : List Event) : List Job := es.filterMap Event.called?

def offered (es : List Event) : List Job := es.filterMap Event.offered?

def endedInline (es : List Event) : List Job := es.filterMap Event.endedInline?

section

variable {limits : Limits} {s t : State} {e : Event} {es : List Event} {job : Job} {n : Nat}

/-- The places are those of the jobs that were handed over. -/
theorem State.keys_places (s : State) : s.places.map Prod.fst = s.handed := by
  unfold State.places State.handed State.onWorkers
  simp only [List.map_append, List.map_map, List.map_filterMap, Option.map_map]
  simp [Function.comp_def]

/-! ## What a step does to them -/

/-- On the way to the queue nothing becomes of a job. -/
theorem Approach.frame {p q : Caller} (h : Approach s job e p q) :
    e.called? = none ∧ e.offered? = none ∧ e.endedInline? = none ∧ p ≠ .running ∧ q ≠ .running := by
  cases h <;> exact ⟨rfl, rfl, rfl, nofun, nofun⟩

/-- A worker keeps its job until that has ended. -/
theorem Turn.frame {p q : Worker} {idle : Nat} (h : Turn s n e p q idle) :
    e.called? = none ∧ e.offered? = none ∧ e.endedInline? = none ∧ q.job? = p.job? := by
  cases h with
  | countBusy hafter =>
    cases p <;> cases hafter <;> exact ⟨rfl, rfl, rfl, rfl⟩
  | check => split <;> exact ⟨rfl, rfl, rfl, rfl⟩
  | _ => exact ⟨rfl, rfl, rfl, rfl⟩

/-- What has left the way to the queue is not pending any more. -/
theorem Step.calling (h : Step s e t) :
    (e.offered?.toList ++ t.pending).Perm (e.called?.toList ++ s.pending) := by
  unfold State.pending
  cases h with
  | call =>
    rw [List.filterMap_append]
    show (_ ++ [_]).Perm ([_] ++ _)
    exact List.perm_append_comm
  | @approach job e p q hget happroach =>
    obtain ⟨hcalled, hoffered, -, hp, hq⟩ := happroach.frame
    rw [hcalled, hoffered]
    exact (Rows.perm_filterMap_set pendingJob? (some job) (some job) hget (if_neg hp)
      (if_neg hq)).cons_inv
  | @grow job hget =>
    exact (Rows.perm_filterMap_set pendingJob? (some job) (some job) hget rfl rfl).cons_inv
  | enqueue hget | handOver hget => exact Rows.perm_filterMap_erase pendingJob? _ hget rfl
  | runInline hget => exact Rows.perm_filterMap_set pendingJob? _ none hget rfl rfl
  | finishInline hget => exact Rows.perm_filterMap_erase pendingJob? none hget rfl
  | turn hget hturn =>
    obtain ⟨hcalled, hoffered, -⟩ := hturn.frame
    rw [hcalled, hoffered]
  | drop | receive | finish | retire | leave => exact .refl _

/-- What has been handed over stays so, and what leaves the way to the queue comes to it. -/
theorem Step.handing (h : Step s e t) : t.handed.Perm (e.offered?.toList ++ s.handed) := by
  -- for each job the places where it can be are counted before and after; a step moves one at most
  refine List.perm_iff_count.mpr fun x => ?_
  simp only [State.handed, State.onCallers, State.onWorkers, List.count_append]
  cases h with
  | call => simp [inlineJob?, Event.offered?]
  | approach hget happroach =>
    obtain ⟨-, hoffered, -, hp, hq⟩ := happroach.frame
    have hcallers :=
      (Rows.perm_filterMap_set inlineJob? none none hget (if_neg hp) (if_neg hq)).count_eq x
    simp only [hoffered, Option.toList_none, List.nil_append, List.count_nil] at hcallers ⊢
    omega
  | grow hget =>
    have hcallers :=
      (Rows.perm_filterMap_set inlineJob? none none hget (a := .offering) rfl rfl).count_eq x
    simp only [Option.toList_none, List.nil_append] at hcallers
    simp [Event.offered?, Worker.job?, hcallers]
  -- from here on a job that was on its way to the queue gets to it
  | @enqueue job hget =>
    have hcallers := (Rows.perm_filterMap_erase inlineJob? none hget rfl).count_eq x
    simp only [Event.offered?, List.count_append, Option.toList_some, Option.toList_none,
      List.nil_append] at hcallers ⊢
    omega
  | @handOver job n hget hworker =>
    have hcallers := (Rows.perm_filterMap_erase inlineJob? none hget rfl).count_eq x
    have hworkers := (Rows.perm_filterMap_set (fun row => row.2.job?) none (some job) hworker
      (a := .received job) rfl rfl).count_eq x
    simp only [Event.offered?, Option.toList_some, Option.toList_none, List.count_append,
      List.nil_append] at hcallers hworkers ⊢
    omega
  -- or its caller keeps it
  | @runInline job hget =>
    have hcallers := (Rows.perm_filterMap_set inlineJob? none (some job) hget (a := .running)
      rfl rfl).count_eq x
    simp only [Event.offered?, Option.toList_some, Option.toList_none, List.count_append,
      List.nil_append] at hcallers ⊢
    omega
  | @finishInline job ending hget =>
    have hcallers := (Rows.perm_filterMap_erase inlineJob? (some job) hget rfl).count_eq x
    simp only [Event.offered?, Option.toList_some, Option.toList_none, List.singleton_append,
      List.count_cons, List.count_nil] at hcallers ⊢
    omega
  | drop => simp [Event.offered?]
  | @turn n idle e p q hget hturn =>
    obtain ⟨-, hoffered, -, hjob⟩ := hturn.frame
    have hworkers := (Rows.perm_filterMap_set (fun row => row.2.job?) p.job? p.job? hget rfl
      hjob).count_eq x
    simp only [hoffered, Option.toList_none, List.count_append, List.count_nil] at hworkers ⊢
    omega
  | @receive n job rest hget hqueue =>
    have hworkers := (Rows.perm_filterMap_set (fun row => row.2.job?) none (some job) hget
      (a := .received job) rfl rfl).count_eq x
    simp only [hqueue, Event.offered?, Option.toList_some, Option.toList_none, List.nil_append,
      List.singleton_append, List.count_cons, List.count_nil] at hworkers ⊢
    omega
  | @finish n job ending hget =>
    have hworkers := (Rows.perm_filterMap_set (fun row => row.2.job?) (some job) none hget
      (a := .starting) rfl rfl).count_eq x
    simp only [Event.offered?, Option.toList_some, Option.toList_none, List.nil_append,
      List.singleton_append, List.count_cons, List.count_nil] at hworkers ⊢
    omega
  | retire hget | leave hget =>
    have hworkers := (Rows.perm_filterMap_erase (fun row => row.2.job?) none hget rfl).count_eq x
    simp only [Event.offered?, Option.toList_none, List.nil_append, List.count_nil] at hworkers ⊢
    omega

/-! ## Jobs that callers run -/

/-- What a step does to the jobs that callers run. -/
inductive Inlines (s t : State) : Event → Prop
  /-- A caller starts to run its job, since the queue has no room for it. -/
  | start {job : Job} (hfull : s.limits.maxQueue ≤ s.queue.length)
      (hnobody : s.limits.maxQueue = 0 → s.someoneListens = false)
      (hjobs : t.onCallers.Perm (job :: s.onCallers)) (hruns : t.inlineRuns = s.inlineRuns + 1) :
      Inlines s t (.offer job)
  | stop {job : Job} {ending : Ending} (hjobs : (job :: t.onCallers).Perm s.onCallers)
      (hruns : t.inlineRuns = s.inlineRuns) : Inlines s t (.finishInline job ending)
  | still {e : Event} (hended : e.endedInline? = none) (hjobs : t.onCallers.Perm s.onCallers)
      (hruns : t.inlineRuns = s.inlineRuns) : Inlines s t e

/-- One step: a caller that finds the queue full runs its job itself, and nobody else does. -/
theorem Step.inlines (h : Step s e t) : Inlines s t e := by
  cases h with
  | call =>
    refine .still rfl ?_ rfl
    unfold State.onCallers
    rw [List.filterMap_append]
    show (_ ++ []).Perm _
    rw [List.append_nil]
  -- until it is refused by the queue a call runs nothing
  | approach hget happroach =>
    obtain ⟨-, -, hended, hp, hq⟩ := happroach.frame
    exact .still hended
      (Rows.perm_filterMap_set inlineJob? none none hget (if_neg hp) (if_neg hq)) rfl
  | grow hget => exact .still rfl (Rows.perm_filterMap_set inlineJob? none none hget rfl rfl) rfl
  | enqueue hget | handOver hget =>
    exact .still rfl (Rows.perm_filterMap_erase inlineJob? none hget rfl) rfl
  | @runInline job hget hfull hnobody =>
    exact .start hfull hnobody
      (Rows.perm_filterMap_set inlineJob? none (some job) hget rfl rfl) rfl
  | @finishInline job ending hget =>
    exact .stop (Rows.perm_filterMap_erase inlineJob? (some job) hget rfl) rfl
  | turn hget hturn =>
    obtain ⟨-, -, hended, -⟩ := hturn.frame
    exact .still hended (.refl _) rfl
  | drop | receive | finish | retire | leave => exact .still rfl (.refl _) rfl

/-- A caller starts to run its job when it offers it to a queue that is full. -/
theorem Step.offer_of_inline (h : Step s e t) (hs : Staffed s) (hjob : job ∈ t.onCallers)
    (hnew : job ∉ s.onCallers) :
    e = .offer job ∧ s.queue.length = s.limits.maxQueue ∧
      (s.limits.maxQueue = 0 → s.someoneListens = false) := by
  cases h.inlines with
  | start hfull hnobody hjobs =>
    rcases List.mem_cons.mp (hjobs.subset hjob) with rfl | hold
    · exact ⟨rfl, Nat.le_antisymm hs.room hfull, hnobody⟩
    · exact absurd hold hnew
  | stop hjobs => exact absurd (hjobs.subset (List.mem_cons_of_mem _ hjob)) hnew
  | still _ hjobs => exact absurd (hjobs.subset hjob) hnew

/-! ## Whole runs -/

theorem filterMap_concat {β : Type} (f : Event → Option β) :
    (es ++ [e]).filterMap f = es.filterMap f ++ (f e).toList := by
  rw [List.filterMap_append, List.filterMap_eq_flatMap_toList f [e], List.flatMap_singleton]

/-- A pool that has opened has had no jobs. -/
theorem Opens.handed_eq (hs : Opens limits 0 s) : s.handed = [] := by
  have honWorkers : s.onWorkers = [] := by
    refine List.filterMap_eq_nil_iff.mpr fun row hrow => ?_
    have hfree := hs.free row hrow
    cases hw : row.2 <;> rw [hw] at hfree <;> first | rfl | cases hfree
  rw [State.handed, hs.queue_eq, honWorkers, State.onCallers, hs.callers_eq, hs.finished_eq]
  rfl

section

variable {start : State} (hopen : Opening limits 0 start) (h : start.run es = some s)

include hopen h

/-- Every job that was submitted is on its way to the queue or has got there. -/
theorem calling_of_run : (called es).Perm (s.pending ++ offered es) := by
  refine run_induction (P := fun es s => (called es).Perm (s.pending ++ offered es)) ?_ ?_ h
  · rw [State.pending, hopen.opens.callers_eq]
    exact .refl _
  · intro es s e t _ ih hstep
    unfold called offered at ih ⊢
    rw [filterMap_concat, filterMap_concat]
    refine List.perm_iff_count.mpr fun x => ?_
    have hbefore := ih.count_eq x
    have hmoved := hstep.calling.count_eq x
    simp only [List.count_append] at hbefore hmoved ⊢
    omega

/-- Every job that has got to the queue is in one of the four places. -/
theorem handing_of_run : (offered es).Perm s.handed := by
  refine run_induction (P := fun es s => (offered es).Perm s.handed) ?_ ?_ h
  · rw [hopen.opens.handed_eq]
    exact .refl _
  · intro es s e t _ ih hstep
    unfold offered at ih ⊢
    rw [filterMap_concat]
    exact List.perm_append_comm.trans ((ih.append_left _).trans hstep.handing.symm)

/-- The pool counts the jobs that callers run or have run. -/
theorem inlineRuns_of_run : s.inlineRuns = s.onCallers.length + (endedInline es).length := by
  refine run_induction
    (P := fun es s => s.inlineRuns = s.onCallers.length + (endedInline es).length) ?_ ?_ h
  · rw [hopen.opens.inlineRuns_eq, State.onCallers, hopen.opens.callers_eq]
    rfl
  intro es s e t _ ih hstep
  unfold endedInline at ih ⊢
  rw [filterMap_concat, List.length_append]
  -- a job is started, ended or neither; both counts go along
  cases hstep.inlines with
  | start hfull hnobody hjobs hruns =>
    have hlength := hjobs.length_eq
    rw [List.length_cons] at hlength
    show _ = _ + (_ + 0)
    omega
  | stop hjobs hruns =>
    have hlength := hjobs.length_eq
    rw [List.length_cons] at hlength
    show _ = _ + (_ + 1)
    omega
  | still hended hjobs hruns =>
    have hlength := hjobs.length_eq
    rw [hended]
    show _ = _ + (_ + 0)
    omega

/-- If every call has a job of its own, a job that has got to the queue is in one place only. -/
theorem existsUnique_place (hnodup : (called es).Nodup) (hjob : job ∈ offered es) :
    ∃! place, (job, place) ∈ s.places := by
  have hoffered := (List.nodup_append.mp ((calling_of_run hopen h).nodup_iff.mp hnodup)).2.1
  have hkeys : (s.places.map Prod.fst).Nodup := by
    rw [State.keys_places]
    exact (handing_of_run hopen h).nodup_iff.mp hoffered
  have hmem : job ∈ s.places.map Prod.fst := by
    rw [State.keys_places]
    exact (handing_of_run hopen h).subset hjob
  obtain ⟨⟨job, place⟩, hplace, rfl⟩ := List.mem_map.mp hmem
  refine ⟨place, hplace, fun other hother => ?_⟩
  have hfirst := Rows.get?_of_mem hkeys hplace
  rw [Rows.get?_of_mem hkeys hother] at hfirst
  exact Option.some.inj hfirst

end

/-- The pool has come to rest: nobody is submitting and every worker waits at an empty queue, or the
pool is gone and so are its workers. -/
def State.AtRest (s : State) : Prop :=
  (s.callers = [] ∧ ∀ row ∈ s.workers, row.2 = .listening ∧ s.queue = []) ∨
    (s.dropped = true ∧ s.workers = [])

/-- At rest all submitted jobs have ended. -/
theorem finished_of_atRest {start : State} (hopen : Opening limits 0 start)
    (h : start.run es = some s) (hrest : s.AtRest) : s.finished.Perm (called es) := by
  have hstaffed := staffed_of_opening hopen h
  have hdrained := hstaffed.drained_of_nil (limits_of_opening hopen h)
  have hcallers : s.callers = [] := by
    rcases hrest with ⟨hcallers, -⟩ | ⟨hdropped, -⟩
    · exact hcallers
    · exact hstaffed.no_calls hdropped
  have hlisten : ∀ row ∈ s.workers, row.2 = .listening := by
    rcases hrest with ⟨-, hworkers⟩ | ⟨-, hnil⟩
    · exact fun row hrow => (hworkers row hrow).1
    · rw [hnil]
      exact fun row hrow => nomatch hrow
  -- a queue that somebody listens at is empty, and so is one that all workers have left
  have hqueue : s.queue = [] := by
    rcases hrest with ⟨-, hworkers⟩ | ⟨-, hnil⟩
    · rcases List.eq_nil_or_concat s.workers with hnil | ⟨rows, row, hrows⟩
      · exact (hdrained hnil).2
      · exact (hworkers row (by simp [hrows])).2
    · exact (hdrained hnil).2
  have honWorkers : s.onWorkers = [] := by
    refine List.filterMap_eq_nil_iff.mpr fun row hrow => ?_
    rw [hlisten row hrow]
    rfl
  have hpending : s.pending = [] := by rw [State.pending, hcallers, List.filterMap_nil]
  have honCallers : s.onCallers = [] := by rw [State.onCallers, hcallers, List.filterMap_nil]
  -- with nothing on the way, all calls are among the jobs that have ended
  have hcalling := calling_of_run hopen h
  have hhanding := handing_of_run hopen h
  rw [hpending, List.nil_append] at hcalling
  rw [State.handed, hqueue, honWorkers, honCallers] at hhanding
  exact (hcalling.trans hhanding).symm

/-- A worker goes on when its job has ended, however that was. -/
theorem Step.goes_on {ending : Ending} (h : Step s (.finish n ending) t) :
    Rows.get? n t.workers = some .starting ∧ t.size = s.size := by
  cases h with
  | approach _ happroach => cases happroach
  | turn _ hturn => cases hturn
  | finish hget =>
    refine ⟨?_, rfl⟩
    rw [Rows.get?_set, if_pos rfl, hget]
    rfl

/-- What has become of the jobs of a run, and what may become of those who run them. -/
structure Accounts (limits : Limits) (es : List Event) (s : State) : Prop where
  /-- Each submitted job is on its way to the queue or has got there. -/
  calling : (called es).Perm (s.pending ++ offered es)
  /-- Each job that has got there is in one of four places. -/
  handing : (offered es).Perm (s.queue ++ s.onWorkers ++ s.onCallers ++ s.finished)
  /-- It is in one of them only, if jobs have numbers of their own. -/
  one_place : (called es).Nodup → ∀ job ∈ offered es, ∃! place, (job, place) ∈ s.places
  /-- As many jobs were run by their callers as the pool has counted. -/
  inline_runs : s.inlineRuns = s.onCallers.length + (endedInline es).length
  /-- If a caller starts to run its job, the queue was full, and nobody was waiting if it has no
  room at all. -/
  inline_full : ∀ {e : Event} {t : State} {job : Job}, s.step e = some t → job ∈ t.onCallers →
    job ∉ s.onCallers → e = .offer job ∧ s.queue.length = limits.maxQueue ∧
      (limits.maxQueue = 0 → s.someoneListens = false)
  /-- A worker whose job ends, or panics, goes on and keeps its slot. -/
  goes_on : ∀ {n : Nat} {ending : Ending} {t : State}, s.step (.finish n ending) = some t →
    Rows.get? n t.workers = some .starting ∧ t.size = s.size
  /-- A worker stops only if there are more than are kept, or the pool is gone and nothing waits. -/
  stops : ∀ {e : Event} {t : State} {n : Nat}, s.step e = some t → n ∈ s.workers.map Prod.fst →
    n ∉ t.workers.map Prod.fst →
    (e = .retire n false ∧ limits.normalized.minThreads < s.size) ∨
      (e = .leave n ∧ s.dropped = true ∧ s.queue = [])
  /-- At rest every submitted job has been run, and none twice. -/
  all_run : s.AtRest → s.finished.Perm (called es)

/-- A pool keeps account of its jobs, however it has opened and whatever has happened since. -/
theorem jobs_of_run {start : State} (hopen : Opening limits 0 start)
    (h : start.run es = some s) : Accounts limits es s where
  calling := calling_of_run hopen h
  handing := handing_of_run hopen h
  one_place hnodup _ := existsUnique_place hopen h hnodup
  inline_runs := inlineRuns_of_run hopen h
  inline_full hstep hjob hnew := by
    have hoffer := (Step.of_step hstep).offer_of_inline (staffed_of_opening hopen h) hjob hnew
    rwa [limits_of_opening hopen h] at hoffer
  goes_on hstep := (Step.of_step hstep).goes_on
  stops hstep hn hgone := by
    rw [← limits_of_opening hopen h]
    exact ((Step.of_step hstep).worker_stays (staffed_of_opening hopen h) hn).resolve_left hgone
  all_run := finished_of_atRest hopen h

/-- One worker and room for one job: the worker runs the first job, which panics, the second one
waits, and the third one is run by its caller. -/
def crowd : List Event :=
  [.countIdle 0, .wait 0, .call 1, .readIdle 1, .offer 1, .receive 0,
    .call 2, .readIdle 2, .offer 2, .call 3, .readIdle 3, .offer 3,
    .countBusy 0, .finish 0 .panicked, .countIdle 0, .wait 0, .receive 0, .countBusy 0,
    .finishInline 3 .returned, .finish 0 .returned, .countIdle 0, .wait 0]

theorem exists_run_crowd : ∃ s, (State.new ⟨1, 1, 1, 0⟩).run crowd = some s ∧ s.callers = [] ∧
    s.workers = [(0, .listening)] ∧ s.queue = [] := ⟨_, rfl, rfl, rfl, rfl⟩

/-- Each of them has been run once, and the worker is still there. -/
theorem jobs_of_crowd : ∃ s, (State.new ⟨1, 1, 1, 0⟩).run crowd = some s ∧ s.AtRest ∧
    s.finished.Perm [1, 2, 3] ∧ s.inlineRuns = s.onCallers.length + 1 := by
  obtain ⟨s, hrun, hcallers, hworkers, hqueue⟩ := exists_run_crowd
  have hrest : s.AtRest := by
    refine .inl ⟨hcallers, fun row hrow => ?_⟩
    rw [hworkers] at hrow
    cases List.mem_singleton.mp hrow
    exact ⟨rfl, hqueue⟩
  have hjobs := jobs_of_run .new hrun
  exact ⟨s, hrun, hrest, hjobs.all_run hrest, hjobs.inline_runs⟩

end

end Pool

end TaskRelay
