import Mathlib.Algebra.Order.BigOperators.Group.List
import TaskRelay.Proofs.Pool.Size
import TaskRelay.Proofs.Rows

/-!
# How long a pool can go on

Everything that callers and workers do brings a pool closer to rest, with two exceptions: a worker
that gives up waiting goes around once more, and an exchange that fails for no reason is tried again
(`Event.setback`). An exchange that fails because the number of workers has changed meanwhile is no
exception, as who has changed the number has got further; so whoever changes it has to come up for
all others who have read the old one.

> `Step.work_lt`: what is left to do gets less with every event, but for setbacks.
-/

namespace TaskRelay.Pool

/-! ## What is left to do -/

/-- A number of workers that was read before is of use only if it is still the right one. -/
def staleness (seen size : Nat) : Nat := if seen = size then 0 else 1

/-- How much a worker is going to do until it waits, in a pool of at most `most` callers and
workers. -/
def Worker.work (most size : Nat) : Worker → Nat
  | .listening => 0
  | .counted => 1
  | .starting => 2
  | .running _ => 3
  | .received _ => 4
  | .retiring seen => most + 3 + staleness seen size
  | .measuring => most + 5
  | .checking => most + 6
  | .timedOut => most + 7
  | .leaving => most + 1
  | .hungUp => most + 2

/-- How much there is to do about a job that a caller comes with. -/
def Caller.work (most size : Nat) : Caller → Nat
  | .running => 1
  | .offering => 6
  | .growing seen => most + 9 + staleness seen size
  | .measuring => most + 11
  | .arriving => most + 12

/-- How much there is left to do. -/
def State.work (most : Nat) (s : State) : Nat :=
  5 * s.queue.length + (s.workers.map fun row => row.2.work most s.size).sum +
    (s.callers.map fun row => row.2.work most s.size).sum

/-- How much more there is to do because of an event. -/
def Event.setback (most : Nat) : Event → Nat
  | .timeOut _ => most + 8
  | .grow _ true => 1
  | .retire _ true => 1
  | _ => 0

/-- Whether an event throws somebody back: a worker gives up waiting, or an exchange fails for no
reason. -/
def Event.isSetback : Event → Bool
  | .timeOut _ => true
  | .grow _ spurious => spurious
  | .retire _ spurious => spurious
  | _ => false

section

variable {s t : State} {e : Event} {job : Job} {n : Nat} (most : Nat)

/-- Nothing but a setback costs anything, and no setback costs more than that. -/
theorem Event.setback_le (e : Event) :
    e.setback most ≤ if e.isSetback then most + 8 else 0 := by
  cases e with
  | grow job spurious => cases spurious <;> simp [setback, isSetback]
  | retire n spurious => cases spurious <;> simp [setback, isSetback]
  | _ => simp [setback, isSetback]

theorem staleness_self (size : Nat) : staleness size size = 0 := if_pos rfl

/-- What was read is stale or it is not. -/
theorem staleness_le (seen size : Nat) : staleness seen size ≤ 1 := by
  unfold staleness
  split <;> decide

/-- A worker loses at most one when the number of workers changes. -/
theorem Worker.work_le (size other : Nat) (w : Worker) :
    w.work most size ≤ w.work most other + 1 := by
  cases w with
  | retiring seen =>
    have hstale := staleness_le seen size
    simp only [work]
    omega
  | _ => exact Nat.le_succ _

/-- A change of the size makes no more than one step more for a caller. -/
theorem Caller.work_le (size other : Nat) (c : Caller) :
    c.work most size ≤ c.work most other + 1 := by
  cases c with
  | growing seen =>
    have hstale := staleness_le seen size
    simp only [work]
    omega
  | _ => exact Nat.le_succ _

/-- A worker without a job gets back to waiting, whatever it is about. -/
theorem Worker.work_free_le (size : Nat) {w : Worker} (h : w.isFree = true) :
    w.work most size ≤ most + 7 := by
  cases w with
  | retiring seen =>
    have hstale := staleness_le seen size
    simp only [work]
    omega
  | received | running | hungUp | leaving => cases h
  | _ =>
    simp only [work]
    omega

/-- What there is to do in a pool that has opened: its workers get to waiting. -/
theorem Opens.work_le {limits : Limits} (hs : Opens limits 0 s) :
    s.work most ≤ (most + 7) * limits.normalized.minThreads := by
  have hlength : s.workers.length = limits.normalized.minThreads := by
    have hsize := hs.counted.size_eq
    rw [State.numbers, List.length_map] at hsize
    exact hsize.symm.trans hs.size_add
  have hsum : (s.workers.map fun row => row.2.work most s.size).sum ≤
      (s.workers.map fun row => row.2.work most s.size).length • (most + 7) := by
    refine List.sum_le_card_nsmul _ _ fun n hn => ?_
    obtain ⟨row, hrow, rfl⟩ := List.mem_map.mp hn
    exact Worker.work_free_le most s.size (hs.free row hrow)
  rw [List.length_map, hlength, Nat.nsmul_eq_mul, Nat.mul_comm] at hsum
  unfold State.work
  rw [hs.queue_eq, hs.callers_eq]
  exact Nat.le_trans (Nat.le_of_eq (by simp)) hsum

/-- An exchange that fails was given an old number, or fails for no reason. -/
theorem staleness_of_fail {seen : Nat} {spurious : Bool}
    (hfail : ¬(s.size = seen ∧ spurious = false)) :
    1 ≤ staleness seen s.size + if spurious then 1 else 0 := by
  unfold staleness
  cases spurious with
  | true => exact Nat.le_add_left ..
  | false =>
    rw [if_neg fun heq => hfail ⟨heq.symm, rfl⟩]
    exact Nat.le_refl _

/-- On the way to the queue a caller gets further. -/
theorem Approach.work_lt {p q : Caller} (h : Approach s job e p q) :
    q.work most s.size + 1 ≤ p.work most s.size + e.setback most := by
  cases h with
  | busy | spare =>
    simp only [Caller.work]
    omega
  | measure =>
    simp only [Caller.work, staleness_self]
    omega
  | full =>
    simp only [Caller.work]
    omega
  | @again seen spurious hroom hfail =>
    have hstale := staleness_of_fail hfail
    cases spurious <;>
      simp only [Caller.work, staleness_self, Event.setback, if_true, Bool.false_eq_true, if_false]
        at hstale ⊢ <;> omega

/-- A worker gets closer to waiting, unless it has given up. -/
theorem Turn.work_lt {p q : Worker} {idle : Nat} (h : Turn s n e p q idle)
    (halive : s.dropped = false) :
    q.work most s.size + 1 ≤ p.work most s.size + e.setback most := by
  cases h with
  | hangUp hdropped =>
    rw [halive] at hdropped
    cases hdropped
  | countBusy hafter =>
    cases p <;> cases hafter <;> simp only [Worker.work] <;> omega
  | check =>
    split <;> simp only [Worker.work] <;> omega
  | @again seen spurious habove hfail =>
    have hstale := staleness_of_fail hfail
    cases spurious <;>
      simp only [Worker.work, staleness_self, Event.setback, if_true, Bool.false_eq_true, if_false]
        at hstale ⊢ <;> omega
  | measure =>
    simp only [Worker.work, staleness_self]
    omega
  | countIdle | wait | timeOut | stay =>
    simp only [Worker.work, Event.setback]
    omega

/-! ## One row -/

/-- A caller that goes on changes the work by what it has left itself. -/
theorem State.work_setCaller {p : Caller} (q : Caller)
    (hget : Rows.get? job s.callers = some p) :
    State.work most { s with callers := Rows.set job q s.callers } + p.work most s.size =
      s.work most + q.work most s.size := by
  have hsum := Rows.sum_set (a := q) (f := fun row => row.2.work most s.size) hget
  dsimp only at hsum
  unfold State.work
  dsimp only
  omega

/-- A caller that is done takes its work with it. -/
theorem State.work_eraseCaller {p : Caller} (hget : Rows.get? job s.callers = some p) :
    State.work most { s with callers := Rows.erase job s.callers } + p.work most s.size =
      s.work most := by
  have hsum := Rows.sum_erase (f := fun row => row.2.work most s.size) hget
  dsimp only at hsum
  unfold State.work
  dsimp only
  omega

/-- A worker that goes on changes the work by what it has left itself. -/
theorem State.work_setWorker {p : Worker} (q : Worker)
    (hget : Rows.get? n s.workers = some p) :
    State.work most { s with workers := Rows.set n q s.workers } + p.work most s.size =
      s.work most + q.work most s.size := by
  have hsum := Rows.sum_set (a := q) (f := fun row => row.2.work most s.size) hget
  dsimp only at hsum
  unfold State.work
  dsimp only
  omega

/-- A worker that stops takes its work with it. -/
theorem State.work_eraseWorker {p : Worker} (hget : Rows.get? n s.workers = some p) :
    State.work most { s with workers := Rows.erase n s.workers } + p.work most s.size =
      s.work most := by
  have hsum := Rows.sum_erase (f := fun row => row.2.work most s.size) hget
  dsimp only at hsum
  unfold State.work
  dsimp only
  omega

/-- A job that a caller comes with is to be done. -/
theorem State.work_call (s : State) (job : Job) :
    State.work most { s with callers := s.callers ++ [(job, .arriving)] } =
      s.work most + (most + 12) := by
  simp only [State.work, List.map_append, List.sum_append, List.map_singleton, List.sum_singleton]
  exact (Nat.add_assoc ..).symm

/-- A change of the number of workers is one more thing to do for each caller and worker at most. -/
theorem State.work_resize (s : State) (size : Nat) :
    State.work most { s with size := size } ≤
      s.work most + (s.workers.length + s.callers.length) := by
  have hworkers := sum_le_add_length (l := s.workers)
    fun row => row.2.work_le most size s.size
  have hcallers := sum_le_add_length (l := s.callers)
    fun row => row.2.work_le most size s.size
  unfold State.work
  dsimp only
  omega

/-- A worker that starts has its way to go. -/
theorem State.work_startWorker (s : State) : State.work most s.startWorker ≤
    s.work most + (s.workers.length + s.callers.length) + 2 := by
  have hresize := s.work_resize most (s.size + 1)
  unfold State.work at hresize ⊢
  simp only [State.startWorker, List.map_append, List.sum_append, List.map_singleton,
    List.sum_singleton] at hresize ⊢
  have hstarting : Worker.work most (s.size + 1) .starting = 2 := rfl
  omega

/-! ## One step -/

/-- A call adds a caller that arrives. -/
theorem Step.eq_of_call (h : Step s (.call job) t) :
    t = { s with callers := s.callers ++ [(job, .arriving)] } := by
  cases h with
  | call => rfl
  | approach _ happroach => cases happroach
  | turn _ hturn => cases hturn

/-- No caller comes by itself. -/
theorem Step.length_callers_le (h : Step s e t) (hown : e.isOwn = true) :
    t.callers.length ≤ s.callers.length := by
  cases h with
  | call | drop => cases hown
  | approach | grow | runInline => exact Nat.le_of_eq Rows.length_set
  | enqueue hget | handOver hget | finishInline hget =>
    exact Nat.le_of_succ_le (Nat.le_of_eq (Rows.length_erase hget))
  | turn | receive | finish | retire | leave => exact Nat.le_refl _

variable {most} in
/-- Whatever the pool does by itself leaves less to do, but for a setback. -/
theorem Step.work_lt (h : Step s e t) (hown : e.isOwn = true) (halive : s.dropped = false)
    (hmost : s.workers.length + s.callers.length ≤ most) :
    t.work most + 1 ≤ s.work most + e.setback most := by
  cases h with
  | call | drop => cases hown
  | @approach job e p q hget happroach =>
    have hmoved := s.work_setCaller most q hget
    have hless := happroach.work_lt most
    omega
  | @grow job hget hroom =>
    have hmoved := s.work_setCaller most .offering hget
    -- all others may have read a number of workers that is an old one now
    have hstarted := State.work_startWorker most
      { s with callers := Rows.set job .offering s.callers }
    simp only [Caller.work, staleness_self, Rows.length_set] at hmoved hstarted
    simp only [State.startWorker] at hstarted
    omega
  | @enqueue job hget =>
    have hmoved := s.work_eraseCaller most hget
    simp only [Caller.work] at hmoved
    unfold State.work at hmoved ⊢
    simp only [List.length_append, List.length_singleton] at hmoved ⊢
    omega
  | @handOver job n hget hworker =>
    have hmoved := s.work_setWorker most (.received job) hworker
    have herased := State.work_eraseCaller most
      (s := { s with workers := Rows.set n (.received job) s.workers }) hget
    simp only [Worker.work, Caller.work] at hmoved herased
    omega
  | @runInline job hget =>
    have hmoved := s.work_setCaller most .running hget
    simp only [Caller.work] at hmoved
    unfold State.work at hmoved ⊢
    dsimp only at hmoved ⊢
    omega
  | @finishInline job ending hget =>
    have hmoved := s.work_eraseCaller most hget
    simp only [Caller.work] at hmoved
    unfold State.work at hmoved ⊢
    dsimp only at hmoved ⊢
    omega
  | @turn n idle e p q hget hturn =>
    have hmoved := s.work_setWorker most q hget
    have hless := hturn.work_lt most halive
    unfold State.work at hmoved ⊢
    dsimp only at hmoved ⊢
    omega
  | @receive n job rest hget hqueue =>
    have hmoved := s.work_setWorker most (.received job) hget
    simp only [Worker.work] at hmoved
    unfold State.work at hmoved ⊢
    simp only [hqueue, List.length_cons] at hmoved ⊢
    omega
  | @finish n job ending hget =>
    have hmoved := s.work_setWorker most .starting hget
    simp only [Worker.work] at hmoved
    unfold State.work at hmoved ⊢
    dsimp only at hmoved ⊢
    omega
  | @retire n hget =>
    have hmoved := s.work_eraseWorker most hget
    have hresized := State.work_resize most
      { s with workers := Rows.erase n s.workers } (s.size - 1)
    have hlength := Rows.length_erase hget
    simp only [Worker.work, staleness_self] at hmoved
    dsimp only at hresized
    omega
  | @leave n hget =>
    have hmoved := s.work_eraseWorker most hget
    have hresized := State.work_resize most
      { s with workers := Rows.erase n s.workers } (s.size - 1)
    have hlength := Rows.length_erase hget
    simp only [Worker.work] at hmoved
    dsimp only at hresized
    omega

end

end TaskRelay.Pool
