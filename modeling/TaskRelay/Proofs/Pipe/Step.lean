import Mathlib.Data.List.Nodup
import TaskRelay.Pipe.Traffic
import TaskRelay.Proofs.Pool.Jobs

/-!
# What a move of a pipe can do

`Step` lists what a move makes of a pipe whose messages are written down: a submission is made,
joining is through with a slot or stops there, or nothing changes.

What was written down fixes the slots and what joining has made of them:

* either the submission of a call was not made yet and its slot is as the call left it, or it was
  made once and the slot holds the answer (`Known`, `Faithful`);
* joining is through with a slot only if that is filled, and what it takes from the slot is what
  the slot says together with the answer to the question for the outcome (`Judged`, `Joined`);
* a question was asked for each task that joining has found, in the order of the slots (`Asked`).

> `Step.sound`: every move keeps all of this.

On a pool it is the end of a job that makes a submission (`Pooled.Step`). So the three hold in every
state that a run comes to (`Pooled.sound_of_run`), and no submission is still to be made whose job
has ended (`Pooled.settled_of_run`).
-/

namespace TaskRelay

namespace Slot

/-- Whether the submission is still to be made. -/
def isPending : Slot → Bool
  | .pending _ _ _ => true
  | _ => false

/-- The task that the submission has brought. -/
def task? : Slot → Option TaskId
  | .answered (.ok id) => some id
  | _ => none

/-- What went wrong, if the submission has brought no task. -/
def failure? : Slot → Option Failure
  | .answered (.error f) => some f
  | .lost => some Pipe.dropped
  | _ => none

/-- A slot with a failure has no task. -/
theorem task?_of_failure {slot : Slot} {f : Failure} (h : slot.failure? = some f) :
    slot.task? = none := by
  unfold failure? at h
  split at h
  · rfl
  · rfl
  · cases h

end Slot

namespace Pipe

variable {σ : Type} {wire : Wire σ} {registry : Registry} {calls : List Call} {place : Nat}
  {slot : Slot}

/-- The submission at a place is not to be made any more. -/
def Progress.Settled (p : Progress (σ × Traffic)) (place : Nat) : Prop :=
  ∀ slot, p.slots[place]? = some slot → slot.isPending = false

/-! ## The possibilities -/

/-- One move, by what it does. -/
inductive Step (wire : Wire σ) (registry : Registry) (p : Progress (σ × Traffic)) :
    Move → Progress (σ × Traffic) → Prop
  | submit {place : Nat} {definition args kwargs message : String}
      {response : Attempt (Except Failure String)} {s : σ}
      (hslot : p.slots[place]? = some (.pending definition args kwargs))
      (hmessage : message = (Request.newTask (.ofTask definition args kwargs)).encode)
      (hresponse : wire.submit place message p.world.1 = (response, s)) :
      Step wire registry p (.submit place)
        { p with
          slots := p.slots.setIfInBounds place (fill response)
          world := (s, p.world.2.submitted place message response) }
  | pass {place : Nat} (hsettled : p.Settled place) : Step wire registry p (.submit place) p
  | output {id : TaskId} {message : String} {response : Except Failure String} {v : Value} {s : σ}
      (hgoing : p.problem = none) (hslot : p.slots[p.outputs.size]? = some (.answered (.ok id)))
      (hmessage : message = (Request.awaitTask id).encode)
      (hresponse : wire.ask p.outputs.size message p.world.1 = (response, s))
      (hread : readOutput registry response = .ok v) :
      Step wire registry p .join
        { p with
          outputs := p.outputs.push v
          world := (s, p.world.2.asked p.outputs.size message response) }
  | stop {id : TaskId} {message : String} {response : Except Failure String} {f : Failure} {s : σ}
      (hgoing : p.problem = none) (hslot : p.slots[p.outputs.size]? = some (.answered (.ok id)))
      (hmessage : message = (Request.awaitTask id).encode)
      (hresponse : wire.ask p.outputs.size message p.world.1 = (response, s))
      (hread : readOutput registry response = .error f) :
      Step wire registry p .join
        { p with
          problem := some f
          world := (s, p.world.2.asked p.outputs.size message response) }
  | refuse {slot : Slot} {f : Failure} (hgoing : p.problem = none)
      (hslot : p.slots[p.outputs.size]? = some slot) (hfailure : slot.failure? = some f) :
      Step wire registry p .join { p with problem := some f }
  | wait {slot : Slot} (hslot : p.slots[p.outputs.size]? = some slot)
      (hpending : slot.isPending = true) : Step wire registry p .join p
  | ended (hended : p.problem ≠ none ∨ p.slots.size ≤ p.outputs.size) : Step wire registry p .join p

/-- A submission that is played is one of these steps. -/
theorem Step.of_submitAt {p : Progress (σ × Traffic)} :
    Step wire registry p (.submit place) (submitAt wire.logged place p) := by
  unfold submitAt
  split
  · next hslot => exact .submit hslot rfl rfl
  · next hno =>
    refine .pass fun slot hslot => ?_
    cases slot with
    | pending definition args kwargs => exact absurd hslot (hno definition args kwargs)
    | answered | lost => rfl

/-- So is a look at the next slot. -/
theorem Step.of_joinNext {p : Progress (σ × Traffic)} :
    Step wire registry p .join (joinNext wire.logged registry p) := by
  unfold joinNext
  split
  · next slot hgoing hslot =>
    unfold joinSlot?
    cases slot with
    | pending => exact .wait hslot rfl
    | lost => exact .refuse hgoing hslot rfl
    | answered r =>
      cases r with
      | error f => exact .refuse hgoing hslot rfl
      | ok id =>
        simp only [waitFor_eq]
        -- asking always comes to something: to an output, or to a failure that stops joining
        split
        · next heq => cases heq
        · next v t heq =>
          obtain ⟨hread, rfl⟩ := Prod.mk.inj (Option.some.inj heq)
          exact .output hgoing hslot rfl rfl hread
        · next f t heq =>
          obtain ⟨hread, rfl⟩ := Prod.mk.inj (Option.some.inj heq)
          exact .stop hgoing hslot rfl rfl hread
  · next hno =>
    refine .ended (or_iff_not_imp_left.mpr fun hgoing => Nat.le_of_not_lt fun hlt => ?_)
    exact hno _ (not_not.mp hgoing) (Array.getElem?_eq_getElem hlt)

/-! ## Slots -/

/-- What is known about a slot, by the call that it belongs to and by what was written down about
the submission. -/
inductive Known (c : Call) : Option (String × Attempt (Except Failure String)) → Slot → Prop
  | untouched : Known c none (slotOf c)
  | answered {message : String} {response : Attempt (Except Failure String)}
      (hmessage : c.message? = some message) : Known c (some (message, response)) (fill response)

structure Faithful (calls : List Call) (p : Progress (σ × Traffic)) : Prop where
  size_eq : p.slots.size = calls.length
  known : ∀ {place slot}, p.slots[place]? = some slot → ∃ c, calls[place]? = some c ∧
    Known c (Rows.get? place p.world.2.submissions) slot
  once : (p.world.2.submissions.map Prod.fst).Nodup

theorem isPending_fill {response : Attempt (Except Failure String)} :
    (fill response).isPending = false := by
  cases response <;> rfl

/-- The slot of a call waits for its submission just if the call has a message. -/
theorem isPending_slotOf {c : Call} : (slotOf c).isPending = c.message?.isSome := by
  unfold slotOf Call.message?
  cases c.arguments <;> rfl

/-- A pending slot is as its call left it. -/
theorem Known.of_pending {c : Call} {sent : Option (String × Attempt (Except Failure String))}
    {definition args kwargs : String} (h : Known c sent (.pending definition args kwargs)) :
    sent = none ∧
      c.message? = some (Request.newTask (.ofTask definition args kwargs)).encode := by
  generalize hslot : Slot.pending definition args kwargs = slot at h
  cases h with
  | untouched =>
    refine ⟨rfl, ?_⟩
    unfold slotOf at hslot
    unfold Call.message?
    cases harguments : c.arguments with
    | error f =>
      rw [harguments] at hslot
      cases hslot
    | ok texts =>
      obtain ⟨args', kwargs'⟩ := texts
      rw [harguments] at hslot
      cases hslot
      rfl
  | answered =>
    have hpending := congrArg Slot.isPending hslot
    rw [isPending_fill] at hpending
    cases hpending

/-- Where nothing was sent the slot is as its call left it. -/
theorem Known.of_none {c : Call} (h : Known c none slot) : slot = slotOf c := by
  cases h
  rfl

/-- In the beginning nothing was sent, and the slots are as the calls left them. -/
theorem faithful_start {s : σ} : Faithful calls (start calls (s, .empty)) where
  size_eq := by simp [start]
  known := by
    intro place slot hslot
    simp only [start, List.getElem?_toArray, List.getElem?_map, Option.map_eq_some_iff] at hslot
    obtain ⟨c, hc, rfl⟩ := hslot
    exact ⟨c, hc, .untouched⟩
  once := List.nodup_nil

section

variable {p q : Progress (σ × Traffic)} {m : Move}

/-- One step: a slot is filled by what its message was answered. -/
theorem Step.faithful (h : Step wire registry p m q) (hp : Faithful calls p) :
    Faithful calls q := by
  cases h with
  | @submit other definition args kwargs message response s hslot hmessage hresponse =>
    obtain ⟨c, hc, hknown⟩ := hp.known hslot
    obtain ⟨hnone, htext⟩ := hknown.of_pending
    have hnew := Rows.get?_eq_none.mp hnone
    refine ⟨(Array.size_setIfInBounds).trans hp.size_eq, fun {place slot} hplace => ?_, ?_⟩
    · dsimp only [Traffic.submitted] at hplace ⊢
      rw [Rows.get?_append]
      -- the slot that is filled has its message now; all others are as they were
      by_cases hsame : other = place
      · subst hsame
        have hlt := (Array.getElem?_eq_some_iff.mp hslot).1
        rw [Array.getElem?_setIfInBounds_self_of_lt hlt] at hplace
        cases hplace
        rw [hnone, if_pos rfl, Option.none_or]
        exact ⟨c, hc, .answered (hmessage ▸ htext)⟩
      · rw [Array.getElem?_setIfInBounds_ne hsame] at hplace
        rw [if_neg hsame, Option.or_none]
        exact hp.known hplace
    · dsimp only [Traffic.submitted]
      rw [List.map_append]
      exact List.nodup_append_comm.mp (List.nodup_cons.mpr ⟨hnew, hp.once⟩)
  | pass | output | stop | refuse | wait | ended => exact ⟨hp.size_eq, hp.known, hp.once⟩

/-! ## Joining -/

/-- What a slot comes to, as far as questions were asked. -/
inductive Judged (registry : Registry) (t : Traffic) (place : Nat) :
    Slot → Except Failure Value → Prop
  | read {id : TaskId} {response : Except Failure String} {r : Except Failure Value}
      (hasked : (place, (Request.awaitTask id).encode, response) ∈ t.questions)
      (hread : readOutput registry response = r) : Judged registry t place (.answered (.ok id)) r
  | failed {slot : Slot} {f : Failure} (hfailure : slot.failure? = some f) :
      Judged registry t place slot (.error f)

structure Joined (registry : Registry) (p : Progress (σ × Traffic)) : Prop where
  outputs : ∀ {place v}, p.outputs[place]? = some v → ∃ slot, p.slots[place]? = some slot ∧
    Judged registry p.world.2 place slot (.ok v)
  problem : ∀ {f}, p.problem = some f → ∃ slot, p.slots[p.outputs.size]? = some slot ∧
    Judged registry p.world.2 p.outputs.size slot (.error f)

/-- Joining judges no slot before that is filled. -/
theorem Judged.not_pending {t : Traffic} {r : Except Failure Value}
    (h : Judged registry t place slot r) : slot.isPending = false := by
  cases h with
  | read => rfl
  | failed hfailure => cases slot <;> first | rfl | cases hfailure

/-- A slot is judged alike however much is asked afterwards. -/
theorem Judged.mono {t u : Traffic} {r : Except Failure Value}
    (h : Judged registry t place slot r) (hsub : t.questions ⊆ u.questions) :
    Judged registry u place slot r := by
  cases h with
  | read hasked hread => exact .read (hsub hasked) hread
  | failed hfailure => exact .failed hfailure

/-- A slot that waits and one that is filled are at different places. -/
theorem ne_of_filled {other : Nat} {definition args kwargs : String}
    (hother : p.slots[other]? = some (.pending definition args kwargs))
    (hslot : p.slots[place]? = some slot) (hfilled : slot.isPending = false) : other ≠ place := by
  rintro rfl
  rw [hother] at hslot
  cases hslot
  cases hfilled

/-- A slot that is filled stays as it is. -/
theorem Step.slot_kept (h : Step wire registry p m q) (hslot : p.slots[place]? = some slot)
    (hfilled : slot.isPending = false) : q.slots[place]? = some slot := by
  cases h with
  | submit hother =>
    rw [Array.getElem?_setIfInBounds_ne (ne_of_filled hother hslot hfilled)]
    exact hslot
  | pass | output | stop | refuse | wait | ended => exact hslot

/-- A slot that is filled stays so. -/
theorem Step.settled (h : Step wire registry p m q) (hp : p.Settled place) : q.Settled place := by
  cases h with
  | @submit other definition args kwargs message response s hother =>
    intro slot hslot
    by_cases hsame : other = place
    · subst hsame
      cases hp _ hother
    · rw [Array.getElem?_setIfInBounds_ne hsame] at hslot
      exact hp slot hslot
  | pass | output | stop | refuse | wait | ended => exact hp

/-- After its submission a slot is filled. -/
theorem Step.settled_submit (h : Step wire registry p (.submit place) q) : q.Settled place := by
  cases h with
  | submit hother =>
    intro slot hslot
    rw [Array.getElem?_setIfInBounds_self_of_lt (Array.getElem?_eq_some_iff.mp hother).1] at hslot
    cases hslot
    exact isPending_fill
  | pass hsettled => exact hsettled

/-- Questions are only ever added. -/
theorem Step.questions_subset (h : Step wire registry p m q) :
    p.world.2.questions ⊆ q.world.2.questions := by
  cases h with
  | output | stop => exact List.subset_append_left _ _
  | submit | pass | refuse | wait | ended => exact List.Subset.refl _

/-- What a slot comes to stays so. -/
theorem Step.judged {r : Except Failure Value} (h : Step wire registry p m q)
    (hslot : p.slots[place]? = some slot) (hjudged : Judged registry p.world.2 place slot r) :
    ∃ slot, q.slots[place]? = some slot ∧ Judged registry q.world.2 place slot r :=
  ⟨slot, h.slot_kept hslot hjudged.not_pending, hjudged.mono h.questions_subset⟩

/-- In the beginning joining has judged nothing. -/
theorem joined_start {s : σ × Traffic} : Joined registry (start calls s) :=
  ⟨nofun, nofun⟩

/-- One step: joining judges the next slot, or judges nothing. -/
theorem Step.joined (h : Step wire registry p m q) (hp : Joined registry p) :
    Joined registry q := by
  -- what was judged before stays judged
  have hkept : ∀ {place v}, p.outputs[place]? = some v → ∃ slot, q.slots[place]? = some slot ∧
      Judged registry q.world.2 place slot (.ok v) := fun hplace =>
    let ⟨_, hslot, hjudged⟩ := hp.outputs hplace
    h.judged hslot hjudged
  cases h with
  | submit hslot hmessage hresponse =>
    refine ⟨hkept, fun hproblem => ?_⟩
    obtain ⟨slot, hslot', hjudged⟩ := hp.problem hproblem
    exact (Step.submit hslot hmessage hresponse).judged hslot' hjudged
  | output hgoing hslot hmessage hresponse hread =>
    refine ⟨fun {place v'} hplace => ?_, fun hproblem => ?_⟩
    · rw [Array.getElem?_push] at hplace
      split at hplace
      · next hlast =>
        cases hplace
        subst hlast hmessage
        exact ⟨_, hslot, .read (List.mem_append_right _ (List.mem_singleton_self _)) hread⟩
      · exact hkept hplace
    · rw [hgoing] at hproblem
      cases hproblem
  | stop hgoing hslot hmessage hresponse hread =>
    refine ⟨hkept, fun hproblem => ?_⟩
    cases hproblem
    subst hmessage
    exact ⟨_, hslot, .read (List.mem_append_right _ (List.mem_singleton_self _)) hread⟩
  | refuse hgoing hslot hfailure =>
    refine ⟨hkept, fun hproblem => ?_⟩
    cases hproblem
    exact ⟨_, hslot, .failed hfailure⟩
  | pass | wait | ended => exact hp

/-- Joining is never through with more slots than there are. -/
theorem Joined.size_le (hp : Joined registry p) : p.outputs.size ≤ p.slots.size := by
  refine Nat.le_of_not_lt fun hlt => ?_
  obtain ⟨slot, hslot, -⟩ := hp.outputs (Array.getElem?_eq_getElem hlt)
  exact Nat.lt_irrefl _ (Array.getElem?_eq_some_iff.mp hslot).1

end

/-! ## Questions -/

/-- How many slots joining has looked into: those that it is through with, and the one at which it
has stopped. -/
def Progress.looked (p : Progress (σ × Traffic)) : Nat :=
  p.outputs.size + if p.problem.isSome then 1 else 0

/-- A question was asked for each task that was found in a slot, in the order of the slots. -/
def Asked (p : Progress (σ × Traffic)) : Prop :=
  Traffic.texts p.world.2.questions = (List.range p.looked).filterMap p.world.2.question?

/-- A slot has the task that was accepted at its place. -/
theorem Known.accepted {c : Call} {t : Traffic}
    (h : Known c (Rows.get? place t.submissions) slot) : t.accepted? place = slot.task? := by
  unfold Traffic.accepted?
  generalize Rows.get? place t.submissions = sent at h
  cases h with
  | untouched =>
    unfold slotOf
    cases c.arguments <;> rfl
  | @answered message response =>
    cases response with
    | error => rfl
    | ok response =>
      dsimp only [fill]
      cases Client.readResponse TaskId.parse response <;> rfl

/-- A submission has no say about other places. -/
theorem accepted_submitted {t : Traffic} {other : Nat} {message : String}
    {response : Attempt (Except Failure String)} (h : other ≠ place) :
    (t.submitted other message response).accepted? place = t.accepted? place := by
  dsimp only [Traffic.accepted?, Traffic.submitted]
  rw [Rows.get?_append, if_neg h, Option.or_none]

section

variable {p q : Progress (σ × Traffic)} {m : Move}

/-- While joining goes on it has looked at no more slots than it has outputs. -/
theorem Progress.looked_of_going (h : p.problem = none) : p.looked = p.outputs.size := by
  unfold Progress.looked
  rw [h]
  rfl

/-- All slots that joining has looked at are filled. -/
theorem Joined.filled (hp : Joined registry p) (h : place < p.looked) :
    ∃ slot, p.slots[place]? = some slot ∧ slot.isPending = false := by
  by_cases hlt : place < p.outputs.size
  · obtain ⟨slot, hslot, hjudged⟩ := hp.outputs (Array.getElem?_eq_getElem hlt)
    exact ⟨slot, hslot, hjudged.not_pending⟩
  · cases hproblem : p.problem with
    | none =>
      rw [Progress.looked_of_going hproblem] at h
      exact absurd h hlt
    | some f =>
      unfold Progress.looked at h
      rw [hproblem] at h
      obtain rfl : place = p.outputs.size :=
        Nat.le_antisymm (Nat.lt_succ_iff.mp h) (Nat.le_of_not_lt hlt)
      obtain ⟨slot, hslot, hjudged⟩ := hp.problem hproblem
      exact ⟨slot, hslot, hjudged.not_pending⟩

/-- The question about a slot is the one for its task. -/
theorem Faithful.question_eq (hf : Faithful calls p) (hslot : p.slots[place]? = some slot) :
    p.world.2.question? place =
      slot.task?.map fun id => (place, (Request.awaitTask id).encode) := by
  obtain ⟨c, -, hknown⟩ := hf.known hslot
  rw [Traffic.question?, hknown.accepted]

/-- What is gathered from a range grows by what its next number brings. -/
theorem range_succ_filterMap {α : Type} {f : Nat → Option α} {n : Nat} {l : List α}
    {last : Option α} (hl : l = (List.range n).filterMap f) (hlast : f n = last) :
    l ++ last.toList = (List.range (n + 1)).filterMap f := by
  rw [List.range_succ, List.filterMap_append, hl, ← hlast]
  cases hn : f n <;> simp [hn]

/-- One step: the next question is added behind the others, if there is one. -/
theorem Step.asked (h : Step wire registry p m q) (hf : Faithful calls p) (hj : Joined registry p)
    (hp : Asked p) : Asked q := by
  unfold Asked at hp ⊢
  cases h with
  -- joining has asked about filled slots only, and this one was not filled
  | submit hother =>
    refine hp.trans (List.filterMap_congr fun place hplace => ?_)
    obtain ⟨slot, hslot, hfilled⟩ := hj.filled (List.mem_range.mp hplace)
    unfold Traffic.question?
    rw [accepted_submitted (ne_of_filled hother hslot hfilled)]
  | @output id message response v s hgoing hslot hmessage =>
    have hquestion := hf.question_eq hslot
    rw [Progress.looked_of_going hgoing] at hp
    show Traffic.texts (p.world.2.questions ++ [(p.outputs.size, message, response)]) =
      (List.range ((p.outputs.push v).size + if p.problem.isSome then 1 else 0)).filterMap
        p.world.2.question?
    rw [hgoing, Array.size_push, Traffic.texts, List.map_append, hmessage]
    exact range_succ_filterMap hp hquestion
  | @stop id message response f s hgoing hslot hmessage =>
    have hquestion := hf.question_eq hslot
    rw [Progress.looked_of_going hgoing] at hp
    show Traffic.texts (p.world.2.questions ++ [(p.outputs.size, message, response)]) =
      (List.range (p.outputs.size + 1)).filterMap p.world.2.question?
    rw [Traffic.texts, List.map_append, hmessage]
    exact range_succ_filterMap hp hquestion
  -- a slot with a failure is looked at and nothing is asked
  | @refuse slot f hgoing hslot hfailure =>
    have hquestion := hf.question_eq hslot
    rw [Slot.task?_of_failure hfailure] at hquestion
    rw [Progress.looked_of_going hgoing] at hp
    show Traffic.texts p.world.2.questions = (List.range (p.outputs.size + 1)).filterMap _
    rw [← List.append_nil (Traffic.texts _)]
    exact range_succ_filterMap hp hquestion
  | pass | wait | ended => exact hp

end

structure Sound (registry : Registry) (calls : List Call) (p : Progress (σ × Traffic)) : Prop where
  faithful : Faithful calls p
  joined : Joined registry p
  asked : Asked p

/-- In the beginning all three hold. -/
theorem sound_start {s : σ} : Sound registry calls (start calls (s, .empty)) :=
  ⟨faithful_start, joined_start, rfl⟩

/-- One step keeps all three. -/
theorem Step.sound {p q : Progress (σ × Traffic)} {m : Move} (h : Step wire registry p m q)
    (hp : Sound registry calls p) : Sound registry calls q :=
  ⟨h.faithful hp.faithful, h.joined hp.joined, h.asked hp.faithful hp.joined hp.asked⟩

/-! ## On a pool -/

/-- The job that ends in a step is what the step adds to the jobs that have ended. -/
theorem finished_eq {s t : Pool.State} {e : Pool.Event} (h : Pool.Step s e t) :
    t.finished = (s.ended? e).toList ++ s.finished := by
  cases h with
  | approach _ happroach => cases happroach <;> rfl
  | turn _ hturn => cases hturn <;> rfl
  | finish hget =>
    dsimp only [Pool.State.ended?]
    rw [hget]
    rfl
  | _ => rfl

namespace Pooled

/-- One step of a pooled pipe: a job ends and makes its submission, or something else happens in the
pool, or joining looks at its next slot. -/
inductive Step (wire : Wire σ) (registry : Registry) (p : Pooled (σ × Traffic)) :
    Event → Pooled (σ × Traffic) → Prop
  | submit {e : Pool.Event} {place : Nat} {pool : Pool.State} {pipe : Progress (σ × Traffic)}
      (hpool : p.pool.step e = some pool) (hfinished : pool.finished = place :: p.pool.finished)
      (hpipe : Pipe.Step wire registry p.pipe (.submit place) pipe) :
      Step wire registry p (.pool e) ⟨pool, pipe⟩
  | work {e : Pool.Event} {pool : Pool.State} (hpool : p.pool.step e = some pool)
      (hfinished : pool.finished = p.pool.finished) : Step wire registry p (.pool e) ⟨pool, p.pipe⟩
  | join {pipe : Progress (σ × Traffic)} (hpipe : Pipe.Step wire registry p.pipe .join pipe) :
      Step wire registry p .join ⟨p.pool, pipe⟩

/-- Whatever a pooled pipe does is one of these steps. -/
theorem Step.of_step {p q : Pooled (σ × Traffic)} {e : Event}
    (h : p.step wire.logged registry e = some q) : Step wire registry p e q := by
  cases e with
  | join =>
    cases h
    exact .join .of_joinNext
  | pool e =>
    obtain ⟨pool, hpool, hq⟩ := Option.map_eq_some_iff.mp h
    have hfinished := finished_eq (.of_step hpool)
    cases hended : p.pool.ended? e with
    | none =>
      rw [hended] at hq hfinished
      subst hq
      exact .work hpool hfinished
    | some place =>
      rw [hended] at hq hfinished
      subst hq
      exact .submit hpool hfinished .of_submitAt

section

variable {limits : Pool.Limits} {opened : Pool.State} {s : σ} {p q : Pooled (σ × Traffic)}
  {e : Event} {es : List Event}

theorem run_append {fs : List Event} : p.run wire.logged registry (es ++ fs) =
    (p.run wire.logged registry es).bind fun q => q.run wire.logged registry fs :=
  List.foldlM_append

/-- The last event of a run is a step. -/
theorem exists_step_of_run_concat (h : p.run wire.logged registry (es ++ [e]) = some q) :
    ∃ m, p.run wire.logged registry es = some m ∧ Step wire registry m e q := by
  rw [run_append] at h
  obtain ⟨m, hm, hlast⟩ := Option.bind_eq_some_iff.mp h
  obtain ⟨q, hq, hnil⟩ := Option.bind_eq_some_iff.mp hlast
  cases hnil
  exact ⟨m, hm, .of_step hq⟩

/-- What a new pooled pipe has and every step keeps, every run keeps. The property may speak about
the events so far. -/
theorem run_induction {P : List Event → Pooled (σ × Traffic) → Prop}
    (hnew : P [] (new opened calls (s, .empty)))
    (hstep : ∀ {es p e q}, (new opened calls (s, .empty)).run wire.logged registry es = some p →
      P es p → Step wire registry p e q → P (es ++ [e]) q) :
    ∀ {es p}, (new opened calls (s, .empty)).run wire.logged registry es = some p → P es p := by
  intro es
  induction es using List.reverseRecOn with
  | nil =>
    intro p h
    cases h
    exact hnew
  | append_singleton es e ih =>
    intro p h
    obtain ⟨m, hm, hlast⟩ := exists_step_of_run_concat h
    exact hstep hm (ih hm) hlast

/-- A run of a pooled pipe is a run of its pool. -/
theorem pool_of_run (h : (new opened calls (s, .empty)).run wire.logged registry es = some p) :
    opened.run (poolEvents es) = some p.pool := by
  refine run_induction (P := fun es p => opened.run (poolEvents es) = some p.pool) rfl ?_ h
  intro es p e q _ ih hstep
  unfold poolEvents at ih ⊢
  rw [List.filterMap_append]
  cases hstep with
  | submit hpool | work hpool =>
    refine Pool.run_concat.trans ?_
    rw [ih]
    exact hpool
  | join =>
    rw [show [Event.join].filterMap Event.pool? = [] from rfl, List.append_nil]
    exact ih

/-- What every move keeps, a run keeps. -/
theorem pipe_of_run {P : Progress (σ × Traffic) → Prop} (hstart : P (start calls (s, .empty)))
    (hmove : ∀ {p m q}, Pipe.Step wire registry p m q → P p → P q)
    (h : (new opened calls (s, .empty)).run wire.logged registry es = some p) : P p.pipe := by
  refine run_induction (P := fun _ p => P p.pipe) hstart ?_ h
  intro es p e q _ ih hstep
  cases hstep with
  | submit _ _ hpipe | join hpipe => exact hmove hpipe ih
  | work => exact ih

/-- In a run all three hold. -/
theorem sound_of_run (h : (new opened calls (s, .empty)).run wire.logged registry es = some p) :
    Sound registry calls p.pipe :=
  pipe_of_run sound_start Pipe.Step.sound h

/-- The submission of a job that has ended is made. -/
theorem settled_of_run (hopen : Pool.Opening limits 0 opened)
    (h : (new opened calls (s, .empty)).run wire.logged registry es = some p)
    (hplace : place ∈ p.pool.finished) : p.pipe.Settled place := by
  have hnone : ∀ place ∈ opened.finished, (start calls (s, Traffic.empty)).Settled place := by
    rw [hopen.opens.finished_eq]
    exact fun _ hnil => nomatch hnil
  refine run_induction (P := fun _ p => ∀ place ∈ p.pool.finished, p.pipe.Settled place)
    hnone ?_ h place hplace
  intro es p e q _ ih hstep place hplace
  cases hstep with
  | submit _ hfinished hpipe =>
    rw [hfinished] at hplace
    rcases List.mem_cons.mp hplace with rfl | hold
    · exact hpipe.settled_submit
    · exact hpipe.settled (ih place hold)
  | work _ hfinished => exact ih place (hfinished ▸ hplace)
  | join hpipe => exact hpipe.settled (ih place hplace)

end

end Pooled

end Pipe

end TaskRelay
