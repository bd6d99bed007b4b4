import TaskRelay.Proofs.Pool.Step

/-!
# The workers of a pool

The counter of workers is the number of the workers there are (`Staffed`). A worker goes for one of
two reasons: it has waited in vain and there are more workers than are kept, or the pool is gone and
nothing waits any more. How a job ends is no reason:

> `Step.worker_stays`: what can have happened to a worker that is no more.

So as long as the pool is there, or has something to do, it has the workers that are kept, and
that is one at least:

> `Staffed.drained_of_nil`: a pool without workers is gone and has nothing left to do.
-/

namespace TaskRelay.Pool

/-- The pool is gone, and no job waits. -/
def State.Drained (s : State) : Prop := s.dropped = true ∧ s.queue = []

/-- Every slot has its worker, no more jobs wait than may, and no worker stops too early. -/
structure Staffed (s : State) : Prop where
  size_eq : s.size = s.workers.length
  room : s.queue.length ≤ s.limits.maxQueue
  /-- Nobody submits to a pool that is gone. -/
  no_calls : s.dropped = true → s.callers = []
  /-- A worker that is about to stop has seen that there is nothing left to do. -/
  done : ∀ row ∈ s.workers, row.2 = .hungUp ∨ row.2 = .leaving → s.Drained
  kept : s.Drained ∨ s.limits.minThreads ≤ s.size

section

variable {limits : Limits} {s t : State} {e : Event} {n : Nat}

/-! ## What a step keeps -/

/-- Once the pool is drained, it stays so: there is nobody left who could submit. -/
theorem Step.drained (h : Step s e t) (hs : Staffed s) (hd : s.Drained) : t.Drained := by
  have hnobody : ∀ job, Rows.get? job s.callers = none := by
    intro job
    rw [hs.no_calls hd.1]
    rfl
  cases h with
  | call hlive =>
    rw [hd.1] at hlive
    cases hlive
  | drop => exact ⟨rfl, hd.2⟩
  | receive hget hqueue =>
    rw [hd.2] at hqueue
    cases hqueue
  | approach hget | grow hget | enqueue hget | handOver hget | runInline hget | finishInline hget =>
    rw [hnobody] at hget
    cases hget
  | turn | finish | retire | leave => exact hd

/-- One step: a worker comes with its slot and goes with it. -/
theorem Step.size_eq (h : Step s e t) (hs : Staffed s) : t.size = t.workers.length := by
  have hsize := hs.size_eq
  cases h with
  | call | approach | enqueue | runInline | finishInline | drop => exact hsize
  | grow =>
    show s.size + 1 = (s.workers ++ [_]).length
    rw [List.length_append, hsize, List.length_singleton]
  | handOver | turn | receive | finish => exact hsize.trans Rows.length_set.symm
  | retire hget | leave hget =>
    have hlength := (Rows.perm_erase hget).length_eq
    rw [List.length_cons] at hlength
    show s.size - 1 = (Rows.erase _ s.workers).length
    omega

/-- One step: a job is put into the queue only where there is room. -/
theorem Step.room (h : Step s e t) (hs : Staffed s) : t.queue.length ≤ t.limits.maxQueue := by
  have hroom := hs.room
  cases h with
  | enqueue _ hlt =>
    show (s.queue ++ [_]).length ≤ s.limits.maxQueue
    rw [List.length_append, List.length_singleton]
    exact hlt
  | receive _ hqueue =>
    rw [hqueue, List.length_cons] at hroom
    exact Nat.le_of_succ_le hroom
  | _ => exact hroom

/-- One step: a pool is dropped only when no call goes on. -/
theorem Step.no_calls (h : Step s e t) (hs : Staffed s) (hdropped : t.dropped = true) :
    t.callers = [] := by
  cases h with
  | call hlive =>
    rw [show s.dropped = true from hdropped] at hlive
    cases hlive
  | drop _ hcallers => exact hcallers
  | approach hget | grow hget | enqueue hget | handOver hget | runInline hget | finishInline hget =>
    rw [hs.no_calls hdropped] at hget
    cases hget
  | turn | receive | finish | retire | leave => exact hs.no_calls hdropped

/-- A worker is about to stop only if the pool was drained when it looked. -/
theorem Turn.done {p q : Worker} {idle : Nat} (h : Turn s n e p q idle)
    (hstop : q = .hungUp ∨ q = .leaving) : s.Drained ∨ p = .hungUp := by
  cases h with
  | hangUp hdropped hqueue => exact .inl ⟨hdropped, hqueue⟩
  | countBusy hafter =>
    rcases hstop with rfl | rfl <;> cases p <;> simp [State.afterWait] at hafter ⊢
  | check =>
    split at hstop <;> rcases hstop with hstop | hstop <;> cases hstop
  | _ => rcases hstop with hstop | hstop <;> cases hstop

/-- One step: a worker hangs up only when the pool is gone and the queue is empty. -/
theorem Step.done (h : Step s e t) (hs : Staffed s) :
    ∀ row ∈ t.workers, row.2 = .hungUp ∨ row.2 = .leaving → t.Drained := by
  intro row hrow hstop
  refine h.drained hs ?_
  cases h with
  | call | approach | enqueue | runInline | finishInline | drop => exact hs.done row hrow hstop
  | grow =>
    rcases List.mem_append.mp hrow with hrow | hrow
    · exact hs.done row hrow hstop
    · cases List.mem_singleton.mp hrow
      rcases hstop with hstop | hstop <;> cases hstop
  | turn hget hturn =>
    rcases Rows.mem_set hget hrow with rfl | hrow
    · rcases hturn.done hstop with hdrained | rfl
      · exact hdrained
      · exact hs.done _ (Rows.mem_of_get? hget) (.inl rfl)
    · exact hs.done row hrow hstop
  | handOver _ hget | receive hget | finish hget =>
    rcases Rows.mem_set hget hrow with rfl | hrow
    · rcases hstop with hstop | hstop <;> cases hstop
    · exact hs.done row hrow hstop
  | retire hget | leave hget =>
    exact hs.done row (Rows.mem_erase hget hrow) hstop

/-- One step: a worker gives its slot back only if there are more than are to be kept. -/
theorem Step.kept (h : Step s e t) (hs : Staffed s) :
    t.Drained ∨ t.limits.minThreads ≤ t.size := by
  rcases hs.kept with hdrained | hkept
  · exact .inl (h.drained hs hdrained)
  · cases h with
    | grow => exact .inr (Nat.le_succ_of_le hkept)
    | retire _ habove => exact .inr (Nat.le_sub_one_of_lt habove)
    | leave hget => exact .inl (hs.done _ (Rows.mem_of_get? hget) (.inr rfl))
    | _ => exact .inr hkept

/-- One step keeps all of this. -/
theorem Step.staffed (h : Step s e t) (hs : Staffed s) : Staffed t :=
  ⟨h.size_eq hs, h.room hs, h.no_calls hs, h.done hs, h.kept hs⟩

/-! ## What becomes of workers -/

/-- A worker stays, unless it retires because there are more workers than are kept, or leaves a pool
that is drained. -/
theorem Step.worker_stays (h : Step s e t) (hs : Staffed s) (hn : n ∈ s.workers.map Prod.fst) :
    n ∈ t.workers.map Prod.fst ∨
      (e = .retire n false ∧ s.limits.minThreads < s.size) ∨ (e = .leave n ∧ s.Drained) := by
  cases h with
  | call | approach | enqueue | runInline | finishInline | drop => exact .inl hn
  | grow =>
    left
    rw [List.map_append]
    exact List.mem_append_left _ hn
  | handOver | turn | receive | finish =>
    left
    rw [Rows.keys_set]
    exact hn
  | retire hget habove =>
    rcases List.mem_cons.mp (((Rows.perm_erase hget).map Prod.fst).symm.subset hn) with rfl | hn
    · exact .inr (.inl ⟨rfl, habove⟩)
    · exact .inl hn
  | leave hget =>
    rcases List.mem_cons.mp (((Rows.perm_erase hget).map Prod.fst).symm.subset hn) with rfl | hn
    · exact .inr (.inr ⟨rfl, hs.done _ (Rows.mem_of_get? hget) (.inr rfl)⟩)
    · exact .inl hn

/-- A pool without workers is gone, and no job waits there. -/
theorem Staffed.drained_of_nil (hs : Staffed s) (hlimits : s.limits = limits.normalized)
    (hnil : s.workers = []) : s.Drained := by
  rcases hs.kept with hdrained | hkept
  · exact hdrained
  · have hmin := limits.normalized_bounds.1
    rw [hs.size_eq, hnil, hlimits] at hkept
    exact absurd (Nat.le_trans hmin hkept) (Nat.not_succ_le_zero 0)

end

end TaskRelay.Pool
