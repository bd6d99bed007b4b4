import Mathlib.Data.List.Perm.Basic
import TaskRelay.Proofs.Engine.Table

/-!
# Every request is answered once

A ticket stands for a request. It starts in the channel, may be parked with the task that its
request waits for, and ends in the list of answers. No step makes a copy of it or drops it:

> `Reachable.ledger`: answered and unanswered tickets together are the tickets that were given
> out, each once.

So nothing is answered twice (`Reachable.nodup_answers`), and what is not answered is in one place
(`Reachable.count_pending`). That place fits the request (`Filed`).
-/

namespace TaskRelay.Engine

/-! ## Tickets that wait for a task -/

namespace Store

variable {s : Store} {id : TaskId} {f : Record → Record} {r : Record}

/-- The requests that wait for any task. -/
def parked (s : Store) : List Ticket := s.order.toList.flatMap fun id => s.waiters id

/-- A new task parks nobody. -/
theorem parked_insert {task : Submission} (hw : s.WellFormed) (hfresh : s.records[id]? = none) :
    (s.insert id task).parked = s.parked := by
  have hold : ∀ other ∈ s.order.toList, (s.insert id task).waiters other = s.waiters other := by
    intro other hother
    have hne : id ≠ other := fun he => hw.notMem_order hfresh (he ▸ hother)
    rw [waiters_insert, if_neg hne]
  unfold parked
  rw [show (s.insert id task).order.toList = s.order.toList ++ [id] by simp [insert],
    List.flatMap_append, List.flatMap_congr hold]
  simp [waiters_insert]

/-- If nobody waits at any task, nobody is parked. -/
theorem WellFormed.parked_eq_nil (hw : s.WellFormed)
    (hnone : ∀ {id : TaskId} {r : Record}, s.records[id]? = some r → r.waiters = []) :
    s.parked = [] := by
  refine List.flatMap_eq_nil_iff.mpr fun id hid => ?_
  obtain ⟨r, hrec⟩ := (hw.mem_order id).mp hid
  rw [waiters_of_record hrec]
  exact hnone hrec

/-- A change of one record changes what is parked by the waiters of that record. -/
theorem parked_modify (hw : s.WellFormed) (hrec : s.records[id]? = some r) :
    ((s.modify id f).parked ++ r.waiters).Perm (s.parked ++ (f r).waiters) := by
  have hmem : id ∈ s.order.toList := (hw.mem_order id).mpr ⟨r, hrec⟩
  have hperm := flatMap_except (f := (s.modify id f).waiters) (g := s.waiters) hw.nodup hmem
    fun other ho => by rw [waiters_modify hrec, if_neg (Ne.symm ho)]
  rw [waiters_of_record hrec, waiters_modify hrec, if_pos rfl] at hperm
  exact hperm

theorem parked_modify_of_none (hrec : s.records[id]? = none) : (s.modify id f).parked = s.parked :=
  List.flatMap_congr fun _ _ => waiters_modify_of_none hrec

/-- Parking adds one ticket. -/
theorem parked_park (ticket : Ticket) (hw : s.WellFormed) (hrec : s.records[id]? = some r) :
    (s.modify id (.park ticket)).parked.Perm (s.parked ++ [ticket]) := by
  have hperm := parked_modify (f := .park ticket) hw hrec
  have hmove : (s.parked ++ (r.waiters ++ [ticket])).Perm (s.parked ++ [ticket] ++ r.waiters) := by
    rw [List.append_assoc]
    exact List.perm_append_comm.append_left _
  exact (List.perm_append_right_iff _).mp (hperm.trans hmove)

/-- Those that are parked after a completion, with those that waited for the task, are those that
were parked before. -/
theorem parked_complete (id : TaskId) (result : Envelope) (hw : s.WellFormed) :
    ((s.complete id result).parked ++ s.waiters id).Perm s.parked := by
  unfold complete
  cases hrec : s.records[id]? with
  | none =>
    rw [parked_modify_of_none hrec]
    simp [waiters, hrec]
  | some r =>
    have hperm := parked_modify (f := .complete result) hw hrec
    rw [waiters_of_record hrec]
    rwa [show (r.complete result).waiters = [] from rfl, List.append_nil] at hperm

theorem waiters_start {other : TaskId} : (s.start id).waiters other = s.waiters other := by
  unfold start
  cases hrec : s.records[id]? with
  | none => exact waiters_modify_of_none hrec
  | some r =>
    rw [waiters_modify hrec]
    split
    · next ho => subst ho; exact (waiters_of_record hrec).symm
    · rfl

/-- Starting a task leaves everybody parked. -/
theorem parked_start : (s.start id).parked = s.parked :=
  List.flatMap_congr fun _ _ => waiters_start

end Store

/-! ## The ledger -/

namespace State

/-- The requests in the channel. -/
def queued (s : State) : List Ticket := s.channel.filterMap ticket?

/-- The requests that will be answered. When the loop ends, all of them are. -/
def unanswered (s : State) : List Ticket :=
  if s.running then s.store.parked ++ s.queued else []

/-- All tickets, in no particular order: the answered ones and the others. -/
def ledger (s : State) : List Ticket := s.answers.map Prod.fst ++ s.unanswered

end State

section

variable {d : Dispatcher} {o : Options} {s t : State} {e : Event}

/-- Answers that are all the same, by their tickets. -/
theorem map_fst_answers (tickets : List Ticket) (r : Response) :
    (tickets.map (·, r)).map Prod.fst = tickets := by
  rw [List.map_map]
  exact List.map_id'' (fun _ => rfl) tickets

/-- A command that brings no request changes nothing. -/
theorem State.ledger_send {c : Command} (hc : State.ticket? c = none) :
    (s.send c).ledger = s.ledger := by
  unfold State.ledger State.unanswered State.queued
  rw [State.send_answers, State.send_running, State.send_store, State.send_channel]
  split
  · simp [List.filterMap_append, hc]
  · rfl

/-- One step: a ticket may change its place in the ledger, and only a request adds one. -/
theorem Step.ledger (h : Step d s e t) (hw : s.store.WellFormed)
    (hs : s.ledger.Perm (List.range s.asked.size)) : t.ledger.Perm (List.range t.asked.size) := by
  -- only a request makes a ticket; every other step moves some, or none
  cases h with
  | acquire | work | release => exact hs
  | stop => rw [State.ledger_send rfl, State.send_asked]; exact hs
  | announce =>
    show (State.ledger (s.send _)).Perm (List.range (s.send _).asked.size)
    rw [State.ledger_send rfl, State.send_asked]
    exact hs
  | report =>
    show (State.ledger (s.send _)).Perm (List.range (s.send _).asked.size)
    rw [State.ledger_send rfl, State.send_asked]
    exact hs
  | @request r hrun =>
    simp only [State.ledger, State.unanswered, State.queued, hrun, if_true] at hs ⊢
    rw [Array.size_push, List.range_succ, List.filterMap_append, ← List.append_assoc,
      ← List.append_assoc]
    rw [← List.append_assoc] at hs
    exact hs.append_right [s.asked.size]
  | @refuse r hrun =>
    simp only [State.ledger, State.unanswered, hrun, Bool.false_eq_true, if_false,
      List.append_nil] at hs ⊢
    rw [Array.size_push, List.range_succ, List.map_cons]
    exact (hs.cons s.asked.size).trans (List.perm_append_singleton ..).symm
  | @accept fresh ticket task rest hrun hch hfresh =>
    simp only [State.ledger, State.unanswered, State.queued, hrun, if_true, hch,
      Store.parked_insert hw hfresh] at hs ⊢
    refine List.Perm.trans ?_ hs
    rw [← List.append_assoc, ← List.append_assoc]
    exact List.perm_middle.symm
  | @reply fresh ticket request response rest hrun hch =>
    simp only [State.ledger, State.unanswered, State.queued, hrun, if_true, hch] at hs ⊢
    refine List.Perm.trans ?_ hs
    rw [← List.append_assoc, ← List.append_assoc]
    exact List.perm_middle.symm
  | @park fresh id ticket r rest hrun hch hrec hresult =>
    simp only [State.ledger, State.unanswered, State.queued, hrun, if_true, hch] at hs ⊢
    have hparked := Store.parked_park ticket hw hrec
    refine List.Perm.trans (List.Perm.append_left _ ?_) hs
    refine (hparked.append_right _).trans ?_
    rw [List.append_assoc]
    exact List.Perm.refl _
  | @started fresh id rest hrun hch =>
    simp only [State.ledger, State.unanswered, State.queued, hrun, if_true, hch,
      Store.parked_start] at hs ⊢
    exact hs
  | @complete fresh id result rest hrun hch =>
    simp only [State.ledger, State.unanswered, State.queued, hrun, if_true, hch] at hs ⊢
    have hparked := Store.parked_complete id result hw
    refine List.Perm.trans ?_ hs
    rw [List.map_append, map_fst_answers]
    -- the waiters go to the front, and what is left behind them is what was parked without them
    have hfront : ((s.store.waiters id).reverse ++ s.answers.map Prod.fst).Perm
        (s.answers.map Prod.fst ++ s.store.waiters id) :=
      List.perm_append_comm.trans ((List.reverse_perm _).append_left _)
    refine (hfront.append_right _).trans ?_
    rw [List.append_assoc, ← List.append_assoc (s.store.waiters id)]
    exact ((List.perm_append_comm.trans hparked).append_right _).append_left _
  | @halt fresh rest hrun hch =>
    simp only [State.ledger, State.unanswered, hrun, if_true, Bool.false_eq_true, if_false,
      List.append_nil] at hs ⊢
    refine List.Perm.trans ?_ hs
    rw [List.map_append, map_fst_answers]
    exact List.perm_append_comm.trans ((List.reverse_perm _).append_left _)

/-- In a run the ledger has every ticket once. -/
theorem Reachable.ledger (h : Reachable d o s) : s.ledger.Perm (List.range s.asked.size) := by
  induction h with
  | new =>
    have hempty : (State.new o).ledger = [] := by
      simp [State.ledger, State.unanswered, State.queued, State.new, Store.parked, Store.empty]
    rw [hempty]
    exact List.Perm.refl _
  | step e hs hst ih => exact (Step.of_step hst).ledger hs.wellFormed ih

/-- So no ticket is in two places. -/
theorem Reachable.nodup_ledger (h : Reachable d o s) : s.ledger.Nodup :=
  h.ledger.nodup_iff.mpr List.nodup_range

/-- No request is answered twice. -/
theorem Reachable.nodup_answers (h : Reachable d o s) : (s.answers.map Prod.fst).Nodup :=
  (List.nodup_append.mp h.nodup_ledger).1

theorem State.pending_eq (s : State) : s.pending = s.store.parked ++ s.queued := rfl

/-- A request that is not answered is pending, once, and the loop runs. -/
theorem Reachable.count_pending (h : Reachable d o s) {ticket : Ticket}
    (hasked : ticket < s.asked.size) (hopen : s.answer? ticket = none) :
    s.running = true ∧ s.pending.count ticket = 1 := by
  have hone : s.ledger.count ticket = 1 :=
    List.count_eq_one_of_mem h.nodup_ledger (h.ledger.mem_iff.mpr (List.mem_range.mpr hasked))
  have hnone : (s.answers.map Prod.fst).count ticket = 0 :=
    List.count_eq_zero.mpr (Rows.get?_eq_none.mp hopen)
  unfold State.ledger at hone
  rw [List.count_append, hnone, Nat.zero_add] at hone
  unfold State.unanswered at hone
  split at hone
  · next hrun => exact ⟨hrun, hone⟩
  · cases hone

/-! ## Where a ticket is -/

/-- A ticket is in line if its request is in the channel. -/
theorem State.mem_queued {ticket : Ticket} :
    ticket ∈ s.queued ↔ ∃ request, Command.append ticket request ∈ s.channel := by
  unfold State.queued
  rw [List.mem_filterMap]
  constructor
  · rintro ⟨c, hc, hticket⟩
    cases c with
    | append _ request => cases hticket; exact ⟨request, hc⟩
    | started | complete | stop => cases hticket
  · rintro ⟨request, hc⟩
    exact ⟨_, hc, rfl⟩

/-- A ticket is in the channel with its request, and parked with the task that its request waits
for. -/
structure Filed (s : State) : Prop where
  queued : ∀ {ticket : Ticket} {request : Request}, .append ticket request ∈ s.channel →
    s.asked[ticket]? = some request
  parked : ∀ {id : TaskId} {ticket : Ticket}, ticket ∈ s.store.waiters id →
    s.asked[ticket]? = some (.awaitTask id)

/-- In the beginning nobody has asked. -/
theorem Filed.new : Filed (State.new o) := by
  constructor <;> simp [State.new, Store.empty, Store.waiters]

/-- What was asked stays at its place. -/
theorem getElem?_push_of_some {asked : Array Request} {r request : Request} {ticket : Ticket}
    (h : asked[ticket]? = some request) : (asked.push r)[ticket]? = some request := by
  obtain ⟨hlt, -⟩ := Array.getElem?_eq_some_iff.mp h
  rw [Array.getElem?_push, if_neg (Nat.ne_of_lt hlt), h]

/-- The tickets of a state are filed as those of another one with no more commands and waiters. -/
theorem Filed.mono (h : Filed s) (hasked : t.asked = s.asked)
    (hch : ∀ {ticket request}, Command.append ticket request ∈ t.channel →
      Command.append ticket request ∈ s.channel)
    (hwait : ∀ {id ticket}, ticket ∈ t.store.waiters id → ticket ∈ s.store.waiters id) :
    Filed t := by
  refine ⟨fun hmem => ?_, fun hmem => ?_⟩
  · rw [hasked]
    exact h.queued (hch hmem)
  · rw [hasked]
    exact h.parked (hwait hmem)

/-- A command without a ticket changes nothing about the files. -/
theorem Filed.send {c : Command} (h : Filed s) (hc : State.ticket? c = none) :
    Filed (s.send c) := by
  refine h.mono (State.send_asked c s) (fun hmem => ?_) (fun hmem => ?_)
  · rw [State.send_channel] at hmem
    split at hmem
    · rcases List.mem_append.mp hmem with hmem | hmem
      · exact hmem
      · rw [List.mem_singleton] at hmem
        subst hmem
        cases hc
    · exact hmem
  · rwa [State.send_store] at hmem

/-- One step: a request goes from the channel to its task, or is answered. -/
theorem Step.filed (h : Step d s e t) (hs : Filed s) : Filed t := by
  cases h with
  | acquire | work | release => exact hs.mono rfl id id
  | stop => exact hs.send rfl
  | announce => exact (hs.send (c := .started _) rfl).mono rfl id id
  | report => exact (hs.send (c := .complete _ _) rfl).mono rfl id id
  -- the new request is the one behind all others
  | @request r hrun =>
    refine ⟨fun hmem => ?_, fun hmem => getElem?_push_of_some (hs.parked hmem)⟩
    rcases List.mem_append.mp hmem with hmem | hmem
    · exact getElem?_push_of_some (hs.queued hmem)
    · rw [List.mem_singleton] at hmem
      cases hmem
      exact Array.getElem?_push_size
  | @refuse r hrun =>
    exact ⟨fun hmem => getElem?_push_of_some (hs.queued hmem),
      fun hmem => getElem?_push_of_some (hs.parked hmem)⟩
  | @accept fresh ticket task rest hrun hch hfresh =>
    refine hs.mono rfl (fun hmem => hch ▸ List.mem_cons_of_mem _ hmem) (fun hmem => ?_)
    simp only [Store.waiters_insert] at hmem
    split at hmem
    · cases hmem
    · exact hmem
  | @reply fresh ticket request response rest hrun hch hreply =>
    exact hs.mono rfl (fun hmem => hch ▸ List.mem_cons_of_mem _ hmem) id
  -- this one leaves the channel for its task
  | @park fresh id ticket r rest hrun hch hrec hresult =>
    refine ⟨fun hmem => hs.queued (hch ▸ List.mem_cons_of_mem _ hmem), fun {other _} hmem => ?_⟩
    simp only [Store.waiters_modify hrec] at hmem
    split at hmem
    · next ho =>
      subst ho
      rcases List.mem_append.mp hmem with hmem | hmem
      · exact hs.parked (Store.waiters_of_record hrec ▸ hmem)
      · rw [List.mem_singleton] at hmem
        subst hmem
        exact hs.queued (hch ▸ List.mem_cons_self ..)
    · exact hs.parked hmem
  | @started fresh id rest hrun hch =>
    refine hs.mono rfl (fun hmem => hch ▸ List.mem_cons_of_mem _ hmem) (fun hmem => ?_)
    simpa only [Store.waiters_start] using hmem
  -- those that waited for the task are answered, and wait no more
  | @complete fresh id result rest hrun hch =>
    refine hs.mono rfl (fun hmem => hch ▸ List.mem_cons_of_mem _ hmem) (fun {other _} hmem => ?_)
    cases hrec : s.store.records[id]? with
    | none =>
      simp only [Store.complete, Store.waiters_modify_of_none hrec] at hmem
      exact hmem
    | some r =>
      simp only [Store.complete, Store.waiters_modify hrec] at hmem
      split at hmem
      · cases hmem
      · exact hmem
  | halt => exact ⟨fun hmem => absurd hmem List.not_mem_nil, fun hmem => hs.parked hmem⟩

/-- In a run every request is where it belongs. -/
theorem Reachable.filed (h : Reachable d o s) : Filed s := by
  induction h with
  | new => exact .new
  | step e _ hst ih => exact (Step.of_step hst).filed ih

/-- An open request for an outcome that the loop has got to is parked with its task, once, and
nowhere else; the task has no outcome yet. -/
theorem Reachable.parked (h : Reachable d o s) {ticket : Ticket} {id : TaskId}
    (hasked : s.asked[ticket]? = some (.awaitTask id)) (hopen : s.answer? ticket = none)
    (hprocessed : ∀ request, Command.append ticket request ∉ s.channel) :
    (∃ r : Record, s.store.records[id]? = some r ∧ r.result = none ∧ r.waiters.count ticket = 1) ∧
      ∀ other, other ≠ id → ticket ∉ s.store.waiters other := by
  obtain ⟨hlt, -⟩ := Array.getElem?_eq_some_iff.mp hasked
  obtain ⟨hrun, hone⟩ := h.count_pending hlt hopen
  have hqueued : ticket ∉ s.queued := fun hmem => by
    obtain ⟨request, hc⟩ := State.mem_queued.mp hmem
    exact hprocessed request hc
  rw [State.pending_eq, List.count_append, List.count_eq_zero.mpr hqueued, Nat.add_zero] at hone
  -- it is not in the channel, so the one place where it is counted is with a task
  have hmem : ticket ∈ s.store.parked := List.count_pos_iff.mp (by omega)
  obtain ⟨owner, howner, hwaits⟩ := List.mem_flatMap.mp hmem
  have hsame : owner = id := by
    have := h.filed.parked hwaits
    rw [hasked] at this
    cases this
    rfl
  subst hsame
  have hnodup : s.store.parked.Nodup := by
    have hledger := (List.nodup_append.mp h.nodup_ledger).2.1
    unfold State.unanswered at hledger
    rw [if_pos hrun] at hledger
    exact (List.nodup_append.mp hledger).1
  constructor
  · obtain ⟨r, hrec⟩ := (h.wellFormed.mem_order owner).mp howner
    have honce := List.count_eq_one_of_mem ((List.nodup_flatMap.mp hnodup).1 owner howner) hwaits
    rw [Store.waiters_of_record hrec] at hwaits honce
    refine ⟨r, hrec, ?_, honce⟩
    by_contra hresult
    rw [h.wellFormed.idle hrec hresult] at hwaits
    cases hwaits
  · intro other ho hother
    have hsame := h.filed.parked hother
    rw [hasked] at hsame
    cases hsame
    exact ho rfl

end

end TaskRelay.Engine
