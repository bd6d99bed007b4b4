/-!
# Limits of a worker pool

How many workers a pool keeps and may have, how many jobs may wait, and how long a worker beyond
the kept ones waits for work. `Limits.normalized` makes any limits usable:

> `Limits.normalized_bounds`: at least one worker is kept, and no more than there may be.
-/

namespace TaskRelay.Pool

structure Limits where
  /-- Workers that are kept even when there is no work. -/
  minThreads : Nat
  maxThreads : Nat
  /-- Jobs that may wait before submitters run them. -/
  maxQueue : Nat
  /-- How many milliseconds a worker beyond the kept ones waits. -/
  keepAlive : Nat
deriving DecidableEq, Repr

namespace Limits

/-- How long a worker waits if nothing else is said: a minute. -/
def defaultKeepAlive : Nat := 60000

/-- Numbers of threads and of jobs have 64 bits. -/
def wrapped (n : Nat) : Nat := n % (1 <<< 64)

/-- Limits for a machine that runs that many threads at once. Products that need more than 64 bits
lose the upper ones. -/
def forParallelism (parallelism : Nat) : Limits :=
  let p := max parallelism 1
  { minThreads := 2
    maxThreads := max (wrapped (4 * p)) 2
    maxQueue := max (wrapped (10 * p)) 2
    keepAlive := defaultKeepAlive }

theorem wrapped_of_lt {n : Nat} (h : n < 1 <<< 64) : wrapped n = n := Nat.mod_eq_of_lt h

/-- The limits that a pool goes by: there is a worker, and the kept ones are no more than there
may be. -/
def normalized (l : Limits) : Limits :=
  let most := max l.maxThreads 1
  { l with minThreads := min (max l.minThreads 1) most, maxThreads := most }

theorem normalized_bounds (l : Limits) :
    1 ≤ l.normalized.minThreads ∧ l.normalized.minThreads ≤ l.normalized.maxThreads := by
  simp only [normalized]
  omega

end Limits

end TaskRelay.Pool
