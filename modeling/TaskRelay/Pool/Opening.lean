import TaskRelay.Pool.State

/-!
# How a pool opens

A pool is made without workers. Whoever makes it starts the kept ones, one after the other, in the
way in which callers start workers: the number of workers is exchanged for one more unless that is
the most there may be, and an exchange that fails is tried again. Nobody can submit yet, but the
workers that are there already go about: they wait, give up waiting, and look whether there are
more workers than are kept.

`State.new` is the plainest state that this can end in:

> `Opening.new`: opening can end with all kept workers about to count themselves idle.
-/

namespace TaskRelay.Pool

namespace State

/-- A pool without workers. -/
def bare (limits : Limits) : State :=
  { limits := limits.normalized
    queue := []
    size := 0
    idle := 0
    inlineRuns := 0
    spawned := 0
    workers := []
    callers := []
    finished := []
    dropped := false }

end State

/-- The states that a pool with these limits can be in while it opens, with the number of workers
that are still to be started. -/
inductive Opening (limits : Limits) : Nat → State → Prop where
  | bare : Opening limits limits.normalized.minThreads (.bare limits)
  | start {left : Nat} {s : State} (h : Opening limits (left + 1) s)
      (hroom : s.size < s.limits.maxThreads) : Opening limits left s.startWorker
  /-- There are as many workers as there may be, and none is started. -/
  | full {left : Nat} {s : State} (h : Opening limits (left + 1) s)
      (hfull : s.limits.maxThreads ≤ s.size) : Opening limits left s
  /-- Something happens that is neither a submission nor the end of the pool. -/
  | go {left : Nat} {s t : State} {e : Event} (h : Opening limits left s)
      (hcall : ∀ job, e ≠ .call job) (hdrop : e ≠ .drop) (hst : s.step e = some t) :
      Opening limits left t

namespace Opening

/-- Starting workers while none of them does anything. -/
theorem started {limits : Limits} {n left : Nat} (h : n + left = limits.normalized.minThreads) :
    Opening limits left
      { State.new limits with
        size := n
        spawned := n
        workers := (List.range n).map fun i => (i, .starting) } := by
  induction n generalizing left with
  | zero =>
    rw [Nat.zero_add] at h
    subst h
    exact .bare
  | succ n ih =>
    have hbounds := limits.normalized_bounds
    have hroom : n < limits.normalized.maxThreads := by omega
    have hbefore : Opening limits (left + 1) _ := ih (by omega)
    have hnext := hbefore.start hroom
    simp only [State.startWorker] at hnext
    rw [List.range_succ, List.map_append]
    exact hnext

theorem new {limits : Limits} : Opening limits 0 (State.new limits) :=
  started (Nat.add_zero _)

end Opening

end TaskRelay.Pool
