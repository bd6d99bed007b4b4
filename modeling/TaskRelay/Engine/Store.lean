import TaskRelay.Failure
import TaskRelay.StoreState
import TaskRelay.Envelope
import Std.Data.HashMap

/-!
# The task table

A `Store` holds a record for each accepted task, found by its id and listed in the order in which
the tasks were accepted. A record collects the requests that wait for the task; when the task is
complete they are handed back, and from then on the outcome is known at once.

> `Store.snapshot_insert`: a new task is listed last, as enqueued.
-/

namespace TaskRelay.Engine

/-- Requests are known by number. -/
abbrev Ticket := Nat

/-- What a requester gets. -/
abbrev Response := Except Failure String

structure Record where
  task : StoredTask
  /-- The outcome, once there is one. -/
  result : Option Envelope
  /-- The requests that wait for the outcome, first one first. -/
  waiters : List Ticket

namespace Record

/-- A task that has just been accepted. -/
def new (id : TaskId) (task : Submission) : Record :=
  ⟨⟨id, .enqueued, task.definition, task.args, task.kwargs⟩, none, []⟩

/-- The task is being run. -/
def start (r : Record) : Record := { r with task := { r.task with status := .processing } }

/-- How far a task with an outcome has got. -/
def statusOf (result : Envelope) : Status := if result.isSuccess then .completed else .failed

/-- The task has an outcome, and nothing waits for it any more. -/
def complete (result : Envelope) (r : Record) : Record :=
  ⟨{ r.task with status := statusOf result }, some result, []⟩

/-- One more request waits. -/
def park (ticket : Ticket) (r : Record) : Record := { r with waiters := r.waiters ++ [ticket] }

end Record

structure Store where
  /-- The ids of all tasks, in the order in which the tasks were accepted. -/
  order : Array TaskId
  records : Std.HashMap TaskId Record

namespace Store

/-- No task was accepted yet. -/
def empty : Store := ⟨#[], ∅⟩

/-- Adds a task. -/
def insert (id : TaskId) (task : Submission) (s : Store) : Store :=
  ⟨s.order.push id, s.records.insert id (.new id task)⟩

/-- Changes the record of a task, if there is one. -/
def modify (id : TaskId) (f : Record → Record) (s : Store) : Store :=
  { s with records := s.records.modify id f }

/-- Marks a task as being run. -/
def start (id : TaskId) (s : Store) : Store := s.modify id .start

/-- The requests that wait for a task. -/
def waiters (id : TaskId) (s : Store) : List Ticket := (s.records[id]?.map Record.waiters).getD []

/-- Records the outcome of a task. -/
def complete (id : TaskId) (result : Envelope) (s : Store) : Store := s.modify id (.complete result)

/-- What is said about an id that belongs to no task. -/
def unknown (id : TaskId) : Failure := .protocol ("Unknown task " ++ id.text)

/-- Answers a request for the outcome of a task, or lets it wait. -/
def await (id : TaskId) (ticket : Ticket) (s : Store) : Option Response × Store :=
  match s.records[id]? with
  | none => (some (.error (unknown id)), s)
  | some r =>
    match r.result with
    | some result => (some (.ok result.encode), s)
    | none => (none, s.modify id (.park ticket))

/-- The table as it is shown. -/
def snapshot (s : Store) : StoreState :=
  ⟨(s.order.toList.filterMap fun id => s.records[id]?).map Record.task⟩

/-! ### What each operation does to a record -/

theorem records_insert (id other : TaskId) (task : Submission) (s : Store) :
    (s.insert id task).records[other]? =
      if id = other then some (.new id task) else s.records[other]? := by
  simp [insert, Std.HashMap.getElem?_insert]

theorem records_modify (id other : TaskId) (f : Record → Record) (s : Store) :
    (s.modify id f).records[other]? =
      if id = other then s.records[other]?.map f else s.records[other]? := by
  simp only [modify, Std.HashMap.getElem?_modify, beq_iff_eq]
  split <;> simp_all

/-- The records of ids other than a new one are what they were. -/
theorem filterMap_records_insert {id : TaskId} {task : Submission} {s : Store} {ids : List TaskId}
    (h : id ∉ ids) :
    ids.filterMap (fun i => (s.insert id task).records[i]?) =
      ids.filterMap fun i => s.records[i]? := by
  induction ids with
  | nil => rfl
  | cons i ids ih =>
    have hi : id ≠ i := by grind
    simp only [List.filterMap_cons, records_insert, if_neg hi]
    rw [← ih (by grind)]
    simp only [records_insert]

theorem snapshot_insert {id : TaskId} {task : Submission} {s : Store} (h : id ∉ s.order) :
    (s.insert id task).snapshot.tasks =
      s.snapshot.tasks ++ [⟨id, .enqueued, task.definition, task.args, task.kwargs⟩] := by
  simp only [snapshot]
  rw [show (s.insert id task).order.toList = s.order.toList ++ [id] by simp [insert],
    List.filterMap_append, filterMap_records_insert (by simpa using h)]
  simp [records_insert, Record.new]

end Store

end TaskRelay.Engine
