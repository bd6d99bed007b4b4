import Mathlib.Data.List.Nodup
import TaskRelay.Proofs.Engine.Step

/-!
# The task table in every reachable state

The table keeps the ids of its tasks twice, in a list and as keys of records. `Store.WellFormed`
says that the two agree, that a record is found under its own id, and that nothing waits for a
task with an outcome. The operations of the table keep this as they are used by the loop:

> `Reachable.wellFormed`: the table of every reachable state is well-formed.

No task is ever lost or changed into another one, whatever happens to its status:

> `Step.keeps`: after a step every task is in the table with the invocation that it had.

An operation changes the record of one task. What that means for a number or a list collected
over all tasks is said once (`countP_except`, `flatMap_except`), for any list without repetitions.
-/

namespace TaskRelay

/-! ## What is to be run -/

/-- A definition with the texts of its arguments. -/
abbrev Invocation := String × String × String

/-- What a submission asks to be run. -/
def Submission.invocation (task : Submission) : Invocation :=
  (task.definition, task.args, task.kwargs)

/-- What is run for a task of the table. -/
def StoredTask.invocation (t : StoredTask) : Invocation := (t.definition, t.args, t.kwargs)

namespace Engine

/-! ## One member of a list -/

section

variable {α β : Type} {l : List α} {a : α}

/-- Two predicates that differ at one member only give counts that differ by that member. -/
theorem countP_except {p q : α → Bool} (hnodup : l.Nodup) (ha : a ∈ l)
    (hoff : ∀ b, b ≠ a → p b = q b) :
    l.countP p + (if q a then 1 else 0) = l.countP q + (if p a then 1 else 0) := by
  induction l with
  | nil => simp at ha
  | cons b rest ih =>
    obtain ⟨hb, hrest⟩ := List.nodup_cons.mp hnodup
    simp only [List.countP_cons]
    by_cases hba : b = a
    · subst hba
      have hsame : rest.countP p = rest.countP q :=
        List.countP_congr fun x hx => by rw [hoff x fun e => hb (e ▸ hx)]
      omega
    · have hmem : a ∈ rest := (List.mem_cons.mp ha).resolve_left fun e => hba e.symm
      have := ih hrest hmem
      rw [hoff b hba]
      omega

/-- Two functions that differ at one member only collect lists that differ by that member. -/
theorem flatMap_except {f g : α → List β} (hnodup : l.Nodup) (ha : a ∈ l)
    (hoff : ∀ b, b ≠ a → f b = g b) : (l.flatMap f ++ g a).Perm (l.flatMap g ++ f a) := by
  induction l with
  | nil => simp at ha
  | cons b rest ih =>
    obtain ⟨hb, hrest⟩ := List.nodup_cons.mp hnodup
    simp only [List.flatMap_cons]
    by_cases hba : b = a
    · subst hba
      have hsame : rest.flatMap f = rest.flatMap g :=
        List.flatMap_congr fun x hx => hoff x fun e => hb (e ▸ hx)
      rw [hsame, List.append_assoc]
      -- what `f` and `g` give for `a` change places over what both give for the rest
      refine List.perm_append_comm.trans ?_
      exact List.perm_append_comm.append_right _
    · have hmem : a ∈ rest := (List.mem_cons.mp ha).resolve_left fun e => hba e.symm
      rw [hoff b hba, List.append_assoc, List.append_assoc]
      exact (ih hrest hmem).append_left _

end

/-! ## Well-formed tables -/

namespace Store

variable {s : Store} {id other : TaskId}

/-- Nobody waits for a task that has just been entered. -/
theorem waiters_insert {task : Submission} :
    (s.insert id task).waiters other = if id = other then [] else s.waiters other := by
  unfold waiters
  rw [records_insert]
  split <;> rfl

theorem waiters_of_record {r : Record} (hrec : s.records[id]? = some r) :
    s.waiters id = r.waiters := by
  simp [waiters, hrec]

/-- A change of one record leaves those alone that wait for other tasks. -/
theorem waiters_modify {f : Record → Record} {r : Record} (hrec : s.records[id]? = some r) :
    (s.modify id f).waiters other = if id = other then (f r).waiters else s.waiters other := by
  unfold waiters
  rw [records_modify]
  split
  · next h => subst h; simp [hrec]
  · rfl

/-- Of a task that is not in the table nothing is changed. -/
theorem waiters_modify_of_none {f : Record → Record} (hrec : s.records[id]? = none) :
    (s.modify id f).waiters other = s.waiters other := by
  unfold waiters
  rw [records_modify]
  split
  · next h => subst h; simp [hrec]
  · rfl

/-- The list of ids and the records belong together. -/
structure WellFormed (s : Store) : Prop where
  nodup : s.order.toList.Nodup
  mem_order : ∀ id, id ∈ s.order.toList ↔ ∃ r : Record, s.records[id]? = some r
  id_eq : ∀ {id : TaskId} {r : Record}, s.records[id]? = some r → r.task.id = id
  /-- Nothing waits for a task with an outcome. -/
  idle : ∀ {id : TaskId} {r : Record}, s.records[id]? = some r → r.result ≠ none → r.waiters = []

namespace WellFormed

theorem empty : WellFormed empty := by
  constructor <;> simp [Store.empty]

/-- What has no record is not in the list of tasks. -/
theorem notMem_order (h : s.WellFormed) (hrec : s.records[id]? = none) : id ∉ s.order.toList := by
  intro hmem
  obtain ⟨r, hr⟩ := (h.mem_order id).mp hmem
  rw [hrec] at hr
  cases hr

/-- A new task is listed once. -/
theorem insert {task : Submission} (h : s.WellFormed) (hfresh : s.records[id]? = none) :
    (s.insert id task).WellFormed := by
  have hnew := h.notMem_order hfresh
  refine ⟨?_, fun other => ?_, fun {other r} hr => ?_, fun {other r} hr hresult => ?_⟩
  · simp only [Store.insert, Array.toList_push]
    exact h.nodup.append (List.nodup_singleton id) (List.disjoint_singleton.mpr hnew)
  · rw [records_insert]
    simp only [Store.insert, Array.toList_push, List.mem_append, List.mem_singleton, h.mem_order]
    by_cases ho : id = other
    · simp [ho]
    · simp [ho, Ne.symm ho]
  · rw [records_insert] at hr
    split at hr
    · next ho => cases hr; exact ho
    · exact h.id_eq hr
  · rw [records_insert] at hr
    split at hr
    · cases hr; rfl
    · exact h.idle hr hresult

/-- A change of records keeps the table well-formed if it keeps the id of each task, and leaves
no waiters with an outcome. -/
theorem modify {f : Record → Record} (h : s.WellFormed)
    (hid : ∀ r, (f r).task.id = r.task.id)
    (hidle : ∀ r, s.records[id]? = some r → (f r).result ≠ none → (f r).waiters = []) :
    (s.modify id f).WellFormed := by
  refine ⟨h.nodup, fun other => ?_, fun {other r} hr => ?_, fun {other r} hr hresult => ?_⟩
  · rw [records_modify]
    split
    · simp [Store.modify, h.mem_order]
    · exact h.mem_order other
  · rw [records_modify] at hr
    split at hr
    · obtain ⟨r', hr', rfl⟩ := Option.map_eq_some_iff.mp hr
      rw [hid, h.id_eq hr']
    · exact h.id_eq hr
  · rw [records_modify] at hr
    split at hr
    · next ho =>
      subst ho
      obtain ⟨r', hr', rfl⟩ := Option.map_eq_some_iff.mp hr
      exact hidle r' hr' hresult
    · exact h.idle hr hresult

/-- Starting a task keeps the table in order. -/
theorem start (h : s.WellFormed) : (s.start id).WellFormed :=
  h.modify (fun _ => rfl) fun r hr hresult => h.idle (r := r) hr hresult

/-- So does completing it. -/
theorem complete {result : Envelope} (h : s.WellFormed) : (s.complete id result).WellFormed :=
  h.modify (fun _ => rfl) fun _ _ _ => rfl

/-- Parking a request at a task without an outcome keeps the table in order. -/
theorem park {ticket : Ticket} {r : Record} (h : s.WellFormed) (hrec : s.records[id]? = some r)
    (hresult : r.result = none) : (s.modify id (.park ticket)).WellFormed := by
  refine h.modify (fun _ => rfl) fun r' hr' hsome => ?_
  rw [hrec] at hr'
  cases hr'
  exact absurd hresult hsome

end WellFormed

end Store

/-! ## Steps and runs -/

section

variable {d : Dispatcher} {o : Options} {s t : State} {e : Event}

/-- One step keeps the table in order. -/
theorem Step.wellFormed (h : Step d s e t) (hs : s.store.WellFormed) : t.store.WellFormed := by
  cases h with
  | request | refuse | reply | halt | acquire | work | release => exact hs
  | stop => rw [State.send_store]; exact hs
  | accept _ _ hfresh => exact hs.insert hfresh
  | park _ _ hrec hresult => exact hs.park hrec hresult
  | started => exact hs.start
  | complete => exact hs.complete
  | announce | report => simpa only [State.setPhase, State.send_store] using hs

/-- In a run the table is in order. -/
theorem Reachable.wellFormed (h : Reachable d o s) : s.store.WellFormed := by
  induction h with
  | new => exact .empty
  | step e _ hst ih => exact (Step.of_step hst).wellFormed ih

/-- Every task of one table is in the other, with the same invocation. -/
def Store.Keeps (s t : Store) : Prop :=
  ∀ (id : TaskId) (r : Record), s.records[id]? = some r →
    ∃ r' : Record, t.records[id]? = some r' ∧ r'.task.invocation = r.task.invocation

theorem Store.Keeps.refl (s : Store) : s.Keeps s := fun _ r h => ⟨r, h, rfl⟩

/-- A new task leaves what the others are to run. -/
theorem Store.keeps_insert {s : Store} {id : TaskId} {task : Submission}
    (hfresh : s.records[id]? = none) : s.Keeps (s.insert id task) := by
  intro other r hr
  refine ⟨r, ?_, rfl⟩
  have hne : id ≠ other := fun e => by rw [e, hr] at hfresh; cases hfresh
  rw [records_insert, if_neg hne, hr]

/-- So does a change of status or outcome. -/
theorem Store.keeps_modify {s : Store} {id : TaskId} {f : Record → Record}
    (hf : ∀ r, (f r).task.invocation = r.task.invocation) : s.Keeps (s.modify id f) := by
  intro other r hr
  rw [records_modify, hr]
  split
  · exact ⟨f r, rfl, hf r⟩
  · exact ⟨r, rfl, rfl⟩

/-- One step leaves what tasks are to run. -/
theorem Step.keeps (h : Step d s e t) : s.store.Keeps t.store := by
  cases h with
  | request | refuse | reply | halt | acquire | work | release => exact .refl _
  | stop => rw [State.send_store]; exact .refl _
  | accept _ _ hfresh => exact Store.keeps_insert hfresh
  | park | started | complete => exact Store.keeps_modify fun _ => rfl
  | announce | report => simpa only [State.setPhase, State.send_store] using .refl _

/-- Tasks stay in the table, with their invocations. -/
theorem run_record {es : List Event} {id : TaskId} {r : Record} (h : s.run d es = some t)
    (hrec : s.store.records[id]? = some r) :
    ∃ r' : Record, t.store.records[id]? = some r' ∧ r'.task.invocation = r.task.invocation := by
  refine run_keeps (P := fun s => ∃ r' : Record, s.store.records[id]? = some r' ∧
    r'.task.invocation = r.task.invocation) ?_ h ⟨r, hrec, rfl⟩
  rintro s e t hstep ⟨r', hrec', hsame⟩
  obtain ⟨r'', hrec'', hsame'⟩ := hstep.keeps _ _ hrec'
  exact ⟨r'', hrec'', hsame'.trans hsame⟩

/-- How many tasks of the table have a status, counted over the ids. -/
theorem Store.count_snapshot (s : Store) (status : Status) :
    s.snapshot.count status =
      s.order.toList.countP fun id => s.records[id]?.any fun r => r.task.status = status := by
  unfold snapshot StoreState.count
  simp only [List.countP_map, List.countP_filterMap]
  refine List.countP_congr fun id _ => ?_
  cases s.records[id]? <;> simp

end

end Engine

end TaskRelay
