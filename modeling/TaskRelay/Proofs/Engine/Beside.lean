import Mathlib.Data.Nat.Count
import TaskRelay.Proofs.Engine.Tickets

/-!
# Two engines, one of them with visitors

Visitors are requesters that only look: they ask for the table, or for an outcome. An engine with
visitors is compared with one that nobody visits and that otherwise is asked the same. The tickets
of the others come earlier there, each by the number of visitors before it (`rank`); apart from that
the second engine has what is left of the first when everything that belongs to a visitor is taken
out of the channel, the table and the answers (`Beside`).

> `Beside.step`: what is possible at one of the engines is possible at the other, and they go on
> side by side.

> `Beside.visit`, `Beside.exists_serve`: a visitor is let in and served, and the other engine does
> nothing meanwhile.
-/

namespace TaskRelay

/-- A request that only looks. -/
def Request.isReadOnly : Request → Bool
  | .newTask _ => false
  | .awaitTask _ => true
  | .getStoreState => true

namespace Engine

/-- Which tickets are those of visitors. -/
abbrev Visitors := Ticket → Bool

/-! ## What belongs to visitors is taken out -/

/-- How many of the tickets before this one are no visitor's. -/
def rank (vs : Visitors) (ticket : Ticket) : Ticket := Nat.count (fun n => vs n = false) ticket

/-- The ticket of the same request without the visitors, unless it is a visitor's itself. -/
def home? (vs : Visitors) (ticket : Ticket) : Option Ticket :=
  if vs ticket then none else some (rank vs ticket)

/-- A command without the visitors. -/
def Command.without (vs : Visitors) : Command → Option Command
  | .append ticket request => (home? vs ticket).map (.append · request)
  | .started id => some (.started id)
  | .complete id result => some (.complete id result)
  | .stop => some .stop

/-- A record without the visitors that wait for its task. -/
def Record.without (vs : Visitors) (r : Record) : Record :=
  { r with waiters := r.waiters.filterMap (home? vs) }

/-- An answer without the visitors. -/
def answerWithout (vs : Visitors) (row : Ticket × Response) : Option (Ticket × Response) :=
  (home? vs row.1).map (·, row.2)

/-- A command with which no visitor does anything but look. -/
def Command.Harmless (vs : Visitors) : Command → Prop
  | .append ticket request => vs ticket = true → request.isReadOnly = true
  | _ => True

section

variable {vs : Visitors} {ticket other : Ticket}

theorem home?_of_own (h : vs ticket = false) : home? vs ticket = some (rank vs ticket) := by
  rw [home?, h]
  rfl

theorem home?_of_visitor (h : vs ticket = true) : home? vs ticket = none := by
  rw [home?, h]
  rfl

/-- Somebody who is no visitor takes the next place. -/
theorem rank_succ_of_own (h : vs ticket = false) : rank vs (ticket + 1) = rank vs ticket + 1 := by
  rw [rank, Nat.count_succ, if_pos h]
  rfl

/-- A visitor takes no place. -/
theorem rank_succ_of_visitor (h : vs ticket = true) : rank vs (ticket + 1) = rank vs ticket := by
  rw [rank, Nat.count_succ, if_neg (by rw [h]; exact Bool.noConfusion)]
  rfl

/-- Two who are no visitors have different places. -/
theorem rank_injective (h : vs ticket = false) (ho : vs other = false)
    (heq : rank vs ticket = rank vs other) : ticket = other :=
  Nat.count_injective (p := fun n => vs n = false) h ho heq

/-- Every ticket without the visitors is one of those before. -/
theorem exists_rank_eq {size home : Nat} (h : home < rank vs size) :
    ∃ ticket < size, vs ticket = false ∧ rank vs ticket = home := by
  induction size with
  | zero => exact absurd h (Nat.not_lt_zero home)
  | succ size ih =>
    by_cases hlast : vs size = false ∧ home = rank vs size
    · exact ⟨size, Nat.lt_succ_self size, hlast.1, hlast.2.symm⟩
    · have hbefore : home < rank vs size := by
        by_cases hown : vs size = false
        · rw [rank_succ_of_own hown] at h
          have hne : home ≠ rank vs size := fun heq => hlast ⟨hown, heq⟩
          omega
        · rwa [rank_succ_of_visitor (Bool.eq_true_of_not_eq_false hown)] at h
      obtain ⟨ticket, hlt, hticket⟩ := ih hbefore
      exact ⟨ticket, Nat.lt_succ_of_lt hlt, hticket⟩

/-- Whoever is no visitor finds the same answer. -/
theorem get?_without (h : vs ticket = false) (rows : List (Ticket × Response)) :
    Rows.get? (rank vs ticket) (rows.filterMap (answerWithout vs)) = Rows.get? ticket rows := by
  induction rows with
  | nil => rfl
  | cons row rows ih =>
    obtain ⟨other, response⟩ := row
    rw [List.filterMap_cons]
    by_cases ho : vs other = true
    · -- the row is left out, but it is not the one that is looked for
      have hne : other ≠ ticket := by
        rintro rfl
        rw [h] at ho
        cases ho
      rw [answerWithout, home?_of_visitor ho, Rows.get?, if_neg hne]
      exact ih
    · have ho : vs other = false := Bool.eq_false_iff.mpr ho
      rw [answerWithout, home?_of_own ho]
      dsimp only [Option.map_some]
      rw [Rows.get?, Rows.get?]
      by_cases heq : other = ticket
      · rw [if_pos heq, if_pos (congrArg (rank vs) heq)]
      · rw [if_neg heq, if_neg fun hrank => heq (rank_injective ho h hrank)]
        exact ih

end

/-! ## Tables -/

/-- The first table is the second one without the visitors. -/
structure Store.Beside (vs : Visitors) (s l : Store) : Prop where
  order : s.order = l.order
  records : ∀ id : TaskId, s.records[id]? = l.records[id]?.map (Record.without vs)

namespace Store.Beside

variable {vs : Visitors} {s l : Store} {id : TaskId} {r : Record}

/-- Those that wait are the same but for the visitors. -/
theorem waiters (h : Store.Beside vs s l) (id : TaskId) :
    s.waiters id = (l.waiters id).filterMap (home? vs) := by
  unfold Store.waiters
  rw [h.records]
  cases l.records[id]? <;> rfl

/-- Both tables hold the same tasks. -/
theorem mem_iff (h : Store.Beside vs s l) : id ∈ s.records ↔ id ∈ l.records := by
  rw [Std.HashMap.mem_iff_isSome_getElem?, Std.HashMap.mem_iff_isSome_getElem?, h.records,
    Option.isSome_map]

/-- Visitors are not shown. -/
theorem snapshot (h : Store.Beside vs s l) : s.snapshot = l.snapshot := by
  have hrecords : (s.order.toList.filterMap fun id => s.records[id]?) =
      (l.order.toList.filterMap fun id => l.records[id]?).map (Record.without vs) := by
    rw [h.order, List.map_filterMap]
    exact congrArg (List.filterMap · _) (funext h.records)
  unfold Store.snapshot
  rw [hrecords, List.map_map]
  rfl

/-- The same task is entered in both. -/
theorem insert (h : Store.Beside vs s l) (id : TaskId) (task : Submission) :
    Store.Beside vs (s.insert id task) (l.insert id task) where
  order := by
    show s.order.push id = l.order.push id
    rw [h.order]
  records other := by
    rw [records_insert, records_insert, h.records]
    by_cases ho : id = other
    · rw [if_pos ho, if_pos ho]
      rfl
    · rw [if_neg ho, if_neg ho]

/-- A record is changed in both tables. -/
theorem modify {f g : Record → Record} (h : Store.Beside vs s l) (id : TaskId)
    (hfg : ∀ r, f (r.without vs) = (g r).without vs) :
    Store.Beside vs (s.modify id f) (l.modify id g) where
  order := h.order
  records other := by
    rw [records_modify, records_modify, h.records]
    by_cases ho : id = other
    · rw [if_pos ho, if_pos ho, Option.map_map, Option.map_map]
      exact congrArg (Option.map · _) (funext hfg)
    · rw [if_neg ho, if_neg ho]

/-- A record is changed where the visitors are, in a way that nobody else sees. -/
theorem modify_right {g : Record → Record} (h : Store.Beside vs s l) (id : TaskId)
    (hg : ∀ r, (g r).without vs = r.without vs) : Store.Beside vs s (l.modify id g) where
  order := h.order
  records other := by
    rw [records_modify, h.records]
    by_cases ho : id = other
    · rw [if_pos ho, Option.map_map]
      exact congrArg (Option.map · _) (funext fun r => (hg r).symm)
    · rw [if_neg ho]

end Store.Beside

/-! ## Engines -/

/-- A loop that runs handles the command in front. -/
theorem State.step_process {d : Dispatcher} {s : State} {c : Command} {rest : List Command}
    {fresh : TaskId} (hrun : s.running = true) (hch : s.channel = c :: rest) :
    s.step d (.process fresh) = State.handle fresh { s with channel := rest } c := by
  rw [State.step, hch]
  exact if_pos hrun

/-- The first engine is the second one without the visitors. -/
structure Beside (vs : Visitors) (s l : State) : Prop where
  running : s.running = l.running
  permits : s.permits = l.permits
  drivers : s.drivers = l.drivers
  channel : s.channel = l.channel.filterMap (Command.without vs)
  store : Store.Beside vs s.store l.store
  size : s.asked.size = rank vs l.asked.size
  asked : ∀ ticket, vs ticket = false → s.asked[rank vs ticket]? = l.asked[ticket]?
  answers : s.answers = l.answers.filterMap (answerWithout vs)
  harmless : ∀ c ∈ l.channel, c.Harmless vs

namespace Beside

variable {vs : Visitors} {d : Dispatcher} {o : Options} {s l : State} {ticket : Ticket}
  {request : Request} {c : Command} {rest : List Command}

/-- In the beginning there are no visitors yet. -/
theorem new : Beside vs (State.new o) (State.new o) where
  running := rfl
  permits := rfl
  drivers := rfl
  channel := rfl
  store := ⟨rfl, fun id => by simp [State.new, Store.empty]⟩
  size := rfl
  asked _ _ := rfl
  answers := rfl
  harmless := nofun

/-- Whoever is no visitor has the same answer. -/
theorem answer?_eq (h : Beside vs s l) (hown : vs ticket = false) :
    s.answer? (rank vs ticket) = l.answer? ticket := by
  unfold State.answer?
  rw [h.answers]
  exact get?_without hown l.answers

/-! ### Changes of both -/

/-- The same driver goes on in both. -/
theorem setPhase (h : Beside vs s l) (id : TaskId) (task : Submission) (phase : Phase) :
    Beside vs (s.setPhase id task phase) (l.setPhase id task phase) :=
  { h with
    drivers := by
      show Rows.set id _ s.drivers = Rows.set id _ l.drivers
      rw [h.drivers] }

/-- Somebody who is no visitor is answered in both. -/
theorem answer (h : Beside vs s l) (hown : vs ticket = false) (response : Response) :
    Beside vs (s.answer (rank vs ticket) response) (l.answer ticket response) :=
  { h with
    answers := by
      show (rank vs ticket, response) :: s.answers = _
      rw [State.answer, List.filterMap_cons, answerWithout, home?_of_own hown, h.answers]
      rfl }

/-- A visitor is answered, of which nothing is to be seen without the visitors. -/
theorem answer_right (h : Beside vs s l) (hvisitor : vs ticket = true) (response : Response) :
    Beside vs s (l.answer ticket response) :=
  { h with
    answers := by
      rw [State.answer, List.filterMap_cons, answerWithout, home?_of_visitor hvisitor, h.answers]
      rfl }

/-- All who wait are answered, and among them the visitors. -/
theorem answerAll (h : Beside vs s l) (tickets : List Ticket) (response : Response) :
    Beside vs (s.answerAll (tickets.filterMap (home? vs)) response)
      (l.answerAll tickets response) := by
  induction tickets generalizing s l with
  | nil => exact h
  | cons ticket tickets ih =>
    rw [List.filterMap_cons]
    by_cases hvisitor : vs ticket = true
    · rw [home?_of_visitor hvisitor]
      exact ih (h.answer_right hvisitor response)
    · have hown : vs ticket = false := Bool.eq_false_iff.mpr hvisitor
      rw [home?_of_own hown]
      exact ih (h.answer hown response)

/-- With a harmless command behind them all commands stay harmless. -/
theorem harmless_append (h : Beside vs s l) (hharmless : c.Harmless vs) :
    ∀ c' ∈ l.channel ++ [c], c'.Harmless vs := by
  intro c' hmem
  rcases List.mem_append.mp hmem with hmem | hmem
  · exact h.harmless c' hmem
  · rw [List.mem_singleton.mp hmem]
    exact hharmless

/-- Somebody who is no visitor sends a command to both. -/
theorem send {c' : Command} (h : Beside vs s l) (hc : c.without vs = some c')
    (hharmless : c.Harmless vs) : Beside vs (s.send c') (l.send c) := by
  unfold State.send
  by_cases hrun : l.running = true
  · rw [if_pos hrun, if_pos (h.running.trans hrun)]
    refine { h with channel := ?_, harmless := h.harmless_append hharmless }
    dsimp only
    rw [List.filterMap_append, ← h.channel, List.filterMap_cons, hc, List.filterMap_nil]
  · rw [if_neg hrun, if_neg fun hs => hrun (h.running.symm.trans hs)]
    exact h

/-- A visitor sends a command. -/
theorem send_right (h : Beside vs s l) (hc : c.without vs = none) (hharmless : c.Harmless vs) :
    Beside vs s (l.send c) := by
  unfold State.send
  split
  · refine { h with channel := ?_, harmless := h.harmless_append hharmless }
    dsimp only
    rw [List.filterMap_append, ← h.channel, List.filterMap_cons, hc, List.filterMap_nil,
      List.append_nil]
  · exact h

/-! ### Requests -/

/-- Somebody who is no visitor makes a request. -/
theorem ask (h : Beside vs s l) (hown : vs l.asked.size = false) (request : Request) :
    Beside vs (s.request request) (l.request request) := by
  have hasked : Beside vs { s with asked := s.asked.push request }
      { l with asked := l.asked.push request } := by
    refine { h with size := ?_, asked := ?_ }
    · rw [Array.size_push, Array.size_push, h.size, rank_succ_of_own hown]
    · intro ticket hticket
      rw [Array.getElem?_push, Array.getElem?_push, h.size]
      -- the ticket of the new request has the next rank, as nobody else has it
      by_cases hlast : ticket = l.asked.size
      · rw [if_pos hlast, if_pos (congrArg (rank vs) hlast)]
      · rw [if_neg hlast, if_neg fun heq => hlast (rank_injective hticket hown heq)]
        exact h.asked ticket hticket
  have hcommand : (Command.append l.asked.size request).without vs =
      some (.append s.asked.size request) := by
    rw [Command.without, home?_of_own hown, h.size]
    rfl
  unfold State.request
  dsimp only
  by_cases hrun : l.running = true
  · rw [if_pos hrun, if_pos (h.running.trans hrun)]
    refine hasked.send hcommand fun hvisitor => ?_
    rw [hown] at hvisitor
    cases hvisitor
  · rw [if_neg hrun, if_neg fun hs => hrun (h.running.symm.trans hs), h.size]
    exact hasked.answer hown State.stopped

/-- A visitor makes a request, and the other engine hears nothing of it. -/
theorem visit (h : Beside vs s l) (hvisitor : vs l.asked.size = true)
    (hreadOnly : request.isReadOnly = true) : Beside vs s (l.request request) := by
  have hasked : Beside vs s { l with asked := l.asked.push request } := by
    refine { h with size := ?_, asked := ?_ }
    · rw [Array.size_push, h.size, rank_succ_of_visitor hvisitor]
    · intro ticket hticket
      have hne : ticket ≠ l.asked.size := by
        rintro rfl
        rw [hvisitor] at hticket
        cases hticket
      rw [Array.getElem?_push, if_neg hne]
      exact h.asked ticket hticket
  unfold State.request
  dsimp only
  split
  · refine hasked.send_right ?_ fun _ => hreadOnly
    rw [Command.without, home?_of_visitor hvisitor]
    rfl
  · exact hasked.answer_right hvisitor State.stopped

/-! ### The loop -/

/-- The loop takes the command in front. -/
theorem take (h : Beside vs s l) (hch : l.channel = c :: rest) :
    Beside vs { s with channel := rest.filterMap (Command.without vs) }
      { l with channel := rest } :=
  { h with
    channel := rfl
    harmless := fun c hmem => h.harmless c (hch ▸ List.mem_cons_of_mem _ hmem) }

theorem setStore {s' l' : Store} (h : Beside vs s l) (hstore : Store.Beside vs s' l') :
    Beside vs { s with store := s' } { l with store := l' } :=
  { h with store := hstore }

/-- Those that are still to be answered are the same but for the visitors. -/
theorem pending (h : Beside vs s l) : s.pending = l.pending.filterMap (home? vs) := by
  have htickets : ∀ c : Command, (c.without vs).bind State.ticket? =
      (State.ticket? c).bind (home? vs) := by
    intro c
    cases c with
    | append ticket request =>
      show ((home? vs ticket).map _).bind State.ticket? = home? vs ticket
      cases home? vs ticket <;> rfl
    | started | complete | stop => rfl
  unfold State.pending
  rw [h.store.order, h.channel, List.filterMap_append, List.filterMap_flatMap,
    List.filterMap_filterMap, List.filterMap_filterMap]
  refine congrArg₂ (· ++ ·) ?_ ?_
  · exact List.flatMap_congr fun id _ => h.store.waiters id
  · exact congrArg (List.filterMap · _) (funext htickets)

/-- Who is no visitor awaits an outcome. -/
theorem await (h : Beside vs s l) (hown : vs ticket = false) (id : TaskId) :
    Beside vs (s.await (rank vs ticket) id) (l.await ticket id) := by
  unfold State.await Store.await
  rw [h.store.records]
  cases hrec : l.store.records[id]? with
  | none => exact h.answer hown _
  | some r =>
    dsimp only [Option.map_some, Record.without]
    cases hresult : r.result with
    | some result => exact h.answer hown _
    | none =>
      refine h.setStore (h.store.modify id fun r => ?_)
      unfold Record.park Record.without
      dsimp only
      rw [List.filterMap_append, List.filterMap_cons, home?_of_own hown, List.filterMap_nil]

/-- A visitor who waits is parked, or answered; either makes no difference to the others. -/
theorem await_right (h : Beside vs s l) (hvisitor : vs ticket = true) (id : TaskId) :
    Beside vs s (l.await ticket id) := by
  unfold State.await Store.await
  cases hrec : l.store.records[id]? with
  | none => exact h.answer_right hvisitor _
  | some r =>
    dsimp only
    cases hresult : r.result with
    | some result => exact h.answer_right hvisitor _
    | none =>
      refine { h with store := h.store.modify_right id fun r => ?_ }
      unfold Record.park Record.without
      dsimp only
      rw [List.filterMap_append, List.filterMap_cons, home?_of_visitor hvisitor,
        List.filterMap_nil, List.append_nil]

/-- The loop handles a command that is no visitor's. -/
theorem handle {c' : Command} (h : Beside vs s l) (hc : c.without vs = some c')
    (fresh : TaskId) : Option.Rel (Beside vs) (s.handle fresh c') (l.handle fresh c) := by
  cases c with
  | append ticket request =>
    by_cases hvisitor : vs ticket = true
    · rw [Command.without, home?_of_visitor hvisitor] at hc
      cases hc
    · have hown : vs ticket = false := Bool.eq_false_iff.mpr hvisitor
      rw [Command.without, home?_of_own hown] at hc
      cases hc
      cases request with
      | newTask task =>
        show Option.Rel (Beside vs)
          (if fresh ∈ s.store.records then none else some (s.accept (rank vs ticket) fresh task))
          (if fresh ∈ l.store.records then none else some (l.accept ticket fresh task))
        -- both tables have the same ids, so an id is new in both or in neither
        by_cases hmem : fresh ∈ l.store.records
        · rw [if_pos hmem, if_pos (h.store.mem_iff.mpr hmem)]
          exact .none
        · rw [if_neg hmem, if_neg fun hs => hmem (h.store.mem_iff.mp hs)]
          refine .some (Beside.answer ?_ hown _)
          refine { h with drivers := ?_, store := h.store.insert fresh task }
          dsimp only
          rw [h.drivers]
      | awaitTask id => exact .some (h.await hown id)
      | getStoreState =>
        unfold State.handle
        rw [h.store.snapshot]
        exact .some (h.answer hown _)
  | started id =>
    cases hc
    exact .some (h.setStore (h.store.modify id fun _ => rfl))
  | complete id result =>
    cases hc
    have hstore : Store.Beside vs (s.store.complete id result) (l.store.complete id result) :=
      h.store.modify id fun _ => rfl
    refine .some ?_
    unfold State.complete
    rw [h.store.waiters]
    exact (h.setStore hstore).answerAll _ _
  | stop =>
    cases hc
    have hended : Beside vs { s with running := false, channel := [] }
        { l with running := false, channel := [] } :=
      { h with running := rfl, channel := rfl, harmless := nofun }
    refine .some ?_
    unfold State.halt
    rw [h.pending]
    exact hended.answerAll _ _

/-- The loop gets to a visitor, and the other engine does nothing meanwhile. -/
theorem exists_serve (h : Beside vs s l) (hrun : l.running = true)
    (hch : l.channel = .append ticket request :: rest) (hvisitor : vs ticket = true)
    (fresh : TaskId) : ∃ m, l.step d (.process fresh) = some m ∧ Beside vs s m ∧
      m.channel = rest ∧ m.asked = l.asked ∧ m.running = true := by
  have hharmless : vs ticket = true → request.isReadOnly = true :=
    h.harmless (.append ticket request) (hch ▸ List.mem_cons_self ..)
  have htaken : Beside vs s { l with channel := rest } := by
    have hsame : rest.filterMap (Command.without vs) = s.channel := by
      rw [h.channel, hch, List.filterMap_cons, Command.without, home?_of_visitor hvisitor]
      rfl
    have htake := h.take hch
    rw [hsame] at htake
    exact htake
  cases request with
  | newTask task => cases hharmless hvisitor
  | awaitTask id =>
    refine ⟨State.await ticket id { l with channel := rest }, State.step_process hrun hch,
      htaken.await_right hvisitor id, ?_⟩
    unfold State.await
    split <;> exact ⟨rfl, rfl, hrun⟩
  | getStoreState =>
    exact ⟨State.answer ticket (.ok l.store.snapshot.encode) { l with channel := rest },
      State.step_process hrun hch, htaken.answer_right hvisitor _, rfl, rfl, hrun⟩

end Beside

/-! ## Side by side -/

/-- Whether an event is a visitor's: its request, or that the loop gets to it. -/
def State.isVisit (vs : Visitors) (l : State) : Event → Bool
  | .request _ => vs l.asked.size
  | .process _ =>
    match l.channel with
    | .append ticket _ :: _ => vs ticket
    | _ => false
  | _ => false

section

variable {vs : Visitors} {d : Dispatcher} {s l : State} {e : Event} {c : Command}
  {rest : List Command}

/-- A command that is no visitor's is there without the visitors. -/
theorem Command.exists_without {fresh : TaskId} (hch : l.channel = c :: rest)
    (hown : l.isVisit vs (.process fresh) = false) : ∃ c', c.without vs = some c' := by
  cases c with
  | append ticket request =>
    unfold State.isVisit at hown
    rw [hch] at hown
    rw [Command.without, home?_of_own hown]
    exact ⟨_, rfl⟩
  | started | complete | stop => exact ⟨_, rfl⟩

/-- Any other event is possible at both engines or at neither, and they go on side by side. -/
theorem Beside.step (h : Beside vs s l) (hown : l.isVisit vs e = false) :
    Option.Rel (Beside vs) (s.step d e) (l.step d e) := by
  cases e with
  | request request => exact .some (h.ask hown request)
  | stop => exact .some (h.send (c := .stop) rfl trivial)
  -- with the visitors left out the same command is in front, as it is none of theirs
  | process fresh =>
    cases hch : l.channel with
    | nil =>
      simp only [State.step, h.channel, hch, List.filterMap_nil]
      exact .none
    | cons c rest =>
      obtain ⟨c', hc⟩ := Command.exists_without hch hown
      simp only [State.step, h.channel, hch, List.filterMap_cons, hc]
      by_cases hrun : l.running = true
      · rw [if_pos hrun, if_pos (h.running.trans hrun)]
        exact (h.take hch).handle hc fresh
      · rw [if_neg hrun, if_neg fun hs => hrun (h.running.symm.trans hs)]
        exact .none
  -- drivers and permits are the same, so a driver can go on in both or in neither
  | acquire id =>
    simp only [State.step, h.drivers, h.permits]
    split
    · split
      · exact .none
      · refine .some (Beside.setPhase ?_ id _ _)
        exact { h with permits := rfl, drivers := rfl }
    · exact .none
  | announce id =>
    simp only [State.step, h.drivers]
    split
    · exact .some ((h.send (c := .started id) rfl trivial).setPhase id _ _)
    · exact .none
  | execute id =>
    simp only [State.step, h.drivers]
    split
    · exact .some (h.setPhase id _ _)
    · exact .none
  | finish id =>
    simp only [State.step, h.drivers]
    split
    · exact .some (h.setPhase id _ _)
    · exact .none
  | lose id message =>
    simp only [State.step, h.drivers]
    split
    · exact .some (h.setPhase id _ _)
    · exact .none
  | report id =>
    simp only [State.step, h.drivers]
    split
    · exact .some ((h.send (c := .complete id _) rfl trivial).setPhase id _ _)
    · exact .none
  | release id =>
    simp only [State.step, h.drivers, h.permits]
    split
    · exact .some { h with permits := rfl, drivers := rfl }
    · exact .none

end

end Engine

end TaskRelay
