import TaskRelay.Proofs.Pipe.Sequential

/-!
# What a pipe puts on the wire

Submissions are the business of the pool, and questions that of joining, so they follow different
rules when something goes wrong. The pool makes the submission of each call that has one, when its
job ends and whatever has become of the other calls (`sent_of_run`). Joining asks for one
outcome after the other, in the order of the calls and up to the first problem (`Step.asked`).

`messages_of_run` puts this together.
-/

namespace TaskRelay

/-- If no job is submitted twice, none ends twice. -/
theorem Pool.finished_nodup {limits : Limits} {opened s : State} {es : List Event}
    (hopen : Opening limits 0 opened) (h : opened.run es = some s) (hnodup : (called es).Nodup) :
    s.finished.Nodup := by
  have hoffered := (List.nodup_append.mp ((calling_of_run hopen h).nodup_iff.mp hnodup)).2.1
  exact (List.nodup_append.mp ((handing_of_run hopen h).nodup_iff.mp hoffered)).2.1

namespace Pipe

section

variable {σ : Type} {wire : Wire σ} {registry : Registry} {limits : Pool.Limits}
  {opened : Pool.State} {calls : List Call} {place : Nat} {s : σ}

/-! ## Submissions -/

theorem place_of_messageAt {row : Nat × String} (h : messageAt? calls place = some row) :
    row.1 = place := by
  obtain ⟨message, -, rfl⟩ := Option.map_eq_some_iff.mp h
  rfl

section

variable {p q : Progress (σ × Traffic)}

/-- A submission sends the message of its call, if that has one. -/
theorem Step.sent_submit (h : Step wire registry p (.submit place) q) (hp : Faithful calls p)
    (hnew : place ∉ p.world.2.submissions.map Prod.fst) :
    Traffic.texts q.world.2.submissions =
      Traffic.texts p.world.2.submissions ++ (messageAt? calls place).toList := by
  cases h with
  | submit hslot hmessage hresponse =>
    obtain ⟨c, hc, hknown⟩ := hp.known hslot
    rw [messageAt?, hc, Option.bind_some, hknown.of_pending.2, ← hmessage]
    exact List.map_append
  | pass hsettled =>
    suffices hnone : messageAt? calls place = none by
      rw [hnone, Option.toList_none, List.append_nil]
    unfold messageAt?
    cases hc : calls[place]? with
    | none => rfl
    | some c =>
      -- the slot was not filled by a submission, so it never was pending
      have hlt := (List.getElem?_eq_some_iff.mp hc).1
      rw [← hp.size_eq] at hlt
      have hslot := Array.getElem?_eq_getElem hlt
      obtain ⟨c', hc', hknown⟩ := hp.known hslot
      rw [Rows.get?_eq_none.mpr hnew] at hknown
      rw [hc] at hc'
      cases hc'
      have hfilled := hsettled _ hslot
      rw [hknown.of_none, isPending_slotOf] at hfilled
      rw [Option.bind_some, Option.not_isSome_iff_eq_none.mp (Bool.eq_false_iff.mp hfilled)]
      rfl

/-- Joining submits nothing. -/
theorem Step.sent_join (h : Step wire registry p .join q) :
    q.world.2.submissions = p.world.2.submissions := by
  cases h <;> rfl

end

namespace Pooled

variable {p q : Pooled (σ × Traffic)} {es : List Event}

/-- Each job of a call, when it ends, has put the message of the call on the wire. -/
theorem sent_of_run (hopen : Pool.Opening limits 0 opened)
    (h : (new opened calls (s, .empty)).run wire.logged registry es = some p)
    (hnodup : p.pool.finished.Nodup) : Traffic.texts p.pipe.world.2.submissions =
      p.pool.finished.reverse.filterMap (messageAt? calls) := by
  have hnone : Traffic.texts (start calls (s, Traffic.empty)).world.2.submissions =
      opened.finished.reverse.filterMap (messageAt? calls) := by
    rw [hopen.opens.finished_eq]
    rfl
  refine run_induction (P := fun _ p => p.pool.finished.Nodup →
    Traffic.texts p.pipe.world.2.submissions =
      p.pool.finished.reverse.filterMap (messageAt? calls)) (fun _ => hnone) ?_ h hnodup
  intro es p e q hrun ih hstep hnodup
  cases hstep with
  | @submit e place pool pipe hpool hfinished hpipe =>
    rw [hfinished] at hnodup ⊢
    obtain ⟨hfresh, hbefore⟩ := List.nodup_cons.mp hnodup
    have hsent := ih hbefore
    -- what was sent is that of jobs that have ended, and this one has not
    have hnew : place ∉ p.pipe.world.2.submissions.map Prod.fst := by
      intro hmem
      obtain ⟨row, hrow, rfl⟩ := List.mem_map.mp hmem
      have htext := List.mem_map_of_mem (f := fun row => (row.1, row.2.1)) hrow
      change _ ∈ Traffic.texts p.pipe.world.2.submissions at htext
      rw [hsent] at htext
      obtain ⟨other, hother, hat⟩ := List.mem_filterMap.mp htext
      obtain rfl := place_of_messageAt hat
      exact hfresh (List.mem_reverse.mp hother)
    rw [hpipe.sent_submit (sound_of_run hrun).faithful hnew, hsent, List.reverse_cons,
      List.filterMap_append, List.filterMap_eq_flatMap_toList _ [place], List.flatMap_singleton]
  | work _ hfinished =>
    rw [hfinished] at hnodup ⊢
    exact ih hnodup
  | join hpipe =>
    rw [hpipe.sent_join]
    exact ih hnodup

end Pooled

/-- Different places have different messages, as each message comes with its place. -/
theorem nodup_messageAt {places : List Nat} (h : places.Nodup) :
    (places.filterMap (messageAt? calls)).Nodup :=
  h.filterMap fun _ _ _ hrow hother =>
    (place_of_messageAt hrow).symm.trans (place_of_messageAt hother)

/-- If each place is there once, and the place of every message is there, then so is every message,
once. -/
theorem perm_messages {places : List Nat} (hnodup : places.Nodup)
    (hall : ∀ row ∈ messages calls, row.1 ∈ places) :
    (places.filterMap (messageAt? calls)).Perm (messages calls) := by
  refine (List.perm_ext_iff_of_nodup (nodup_messageAt hnodup)
    (nodup_messageAt List.nodup_range)).mpr fun row => ⟨fun hrow => ?_, fun hrow => ?_⟩
  · obtain ⟨place, -, hat⟩ := List.mem_filterMap.mp hrow
    obtain ⟨message, hmessage, rfl⟩ := Option.map_eq_some_iff.mp hat
    obtain ⟨c, hc, hmessage⟩ := Option.bind_eq_some_iff.mp hmessage
    exact mem_messages hc hmessage
  · obtain ⟨place, -, hat⟩ := List.mem_filterMap.mp hrow
    have hplace := hall row hrow
    rw [place_of_messageAt hat] at hplace
    exact List.mem_filterMap.mpr ⟨place, hplace, hat⟩

/-! ## Questions -/

/-- A question is asked by joining, and one at a time. -/
theorem Pooled.Step.questions {p q : Pooled (σ × Traffic)} {e : Pooled.Event}
    (h : Pooled.Step wire registry p e q) :
    q.pipe.world.2.questions = p.pipe.world.2.questions ∨ e = .join ∧
      ∃ row, q.pipe.world.2.questions = p.pipe.world.2.questions ++ [row] := by
  cases h with
  | work => exact .inl rfl
  | submit _ _ hpipe =>
    cases hpipe with
    | submit | pass => exact .inl rfl
  | join hpipe =>
    cases hpipe with
    | output | stop => exact .inr ⟨rfl, _, rfl⟩
    | refuse | wait | ended => exact .inl rfl

/-- A slot that joining is through with was asked for. -/
theorem Sound.question_isSome {p : Progress (σ × Traffic)} (hp : Sound registry calls p)
    (h : place < p.outputs.size) : (p.world.2.question? place).isSome := by
  obtain ⟨slot, hslot, hjudged⟩ := hp.joined.outputs (Array.getElem?_eq_getElem h)
  rw [hp.faithful.question_eq hslot]
  cases hjudged
  rfl

/-! ## Runs -/

/-- However its pool has opened: at each moment the submissions that were made are those of the
calls whose jobs have ended, in that order; when the pool has come to rest, they are the messages of
all calls that have one, whatever joining has met with. Questions were asked for the outcomes of the
tasks that were found in the slots which joining has looked into, one after the other. Those are the
slots before the first failed call, each with a question, and the slot of that call, with a question
if its submission has brought a task. -/
theorem messages_of_run {p : Pooled (σ × Traffic)} {es : List Pooled.Event}
    (hopen : Pool.Opening limits 0 opened)
    (h : (Pooled.new opened calls (s, .empty)).run wire.logged registry es = some p) :
    (HandedOver calls (Pooled.poolEvents es) →
      Traffic.texts p.pipe.world.2.submissions =
        p.pool.finished.reverse.filterMap (messageAt? calls) ∧
      (p.pool.AtRest → (Traffic.texts p.pipe.world.2.submissions).Perm (messages calls))) ∧
    Traffic.texts p.pipe.world.2.questions =
      (List.range p.pipe.looked).filterMap p.pipe.world.2.question? ∧
    (∀ place < p.pipe.outputs.size, (p.pipe.world.2.question? place).isSome) ∧
    (∀ answers : Answers, answers.Agree p.pipe.world.2 →
      (∀ place < p.pipe.outputs.size, ∃ c v, calls[place]? = some c ∧
        answers.verdict registry place c = .ok v) ∧
      ∀ f, p.pipe.problem = some f → ∃ c, calls[p.pipe.outputs.size]? = some c ∧
        answers.verdict registry p.pipe.outputs.size c = .error f) ∧
    ∀ e q, p.step wire.logged registry e = some q →
      q.pipe.world.2.questions = p.pipe.world.2.questions ∨ e = .join ∧
        ∃ row, q.pipe.world.2.questions = p.pipe.world.2.questions ++ [row] := by
  have hsound := Pooled.sound_of_run h
  refine ⟨fun hover => ?_, hsound.asked, fun place => hsound.question_isSome,
    fun answers hagree => ⟨fun place hplace => ?_, fun f hproblem => ?_⟩,
    fun e q hstep => (Pooled.Step.of_step hstep).questions⟩
  -- no job ends twice, so that the messages are those of different calls
  · have hnodup := Pool.finished_nodup hopen (Pooled.pool_of_run h) hover.once
    have hsent := Pooled.sent_of_run hopen h hnodup
    refine ⟨hsent, fun hrest => ?_⟩
    rw [hsent]
    refine perm_messages (List.nodup_reverse.mpr hnodup) fun row hrow => ?_
    exact List.mem_reverse.mpr (Pooled.ended_of_atRest hopen h hrest hover row hrow)
  · obtain ⟨c, hc, hverdict⟩ :=
      hsound.verdict_of_judged hagree (hsound.joined.outputs (Array.getElem?_eq_getElem hplace))
    exact ⟨c, _, hc, hverdict⟩
  · exact hsound.verdict_of_judged hagree (hsound.joined.problem hproblem)

end

/-- The message of the second call is sent first, and the one of the first call when joining waits
for it already. The third call sends nothing. Two slots are looked into, and nothing else. -/
theorem messages_of_detour : ∃ p, (Pooled.new (.new ⟨1, 1, 1, 0⟩) trio ((), .empty)).run
    fragile.wire.logged .empty detour = some p ∧
    HandedOver trio (Pooled.poolEvents detour) ∧ p.pool.AtRest ∧
    (Traffic.texts p.pipe.world.2.submissions).map Prod.fst = [1, 0] ∧
    Traffic.texts p.pipe.world.2.questions = [0, 1].filterMap p.pipe.world.2.question? := by
  obtain ⟨p, hrun, hrest, hfinished, hlooked⟩ := exists_run_detour
  obtain ⟨hsubmissions, hquestions, -⟩ := messages_of_run .new hrun
  obtain ⟨hsent, -⟩ := hsubmissions handedOver_detour
  rw [hlooked] at hquestions
  refine ⟨p, hrun, handedOver_detour, hrest, ?_, hquestions⟩
  rw [hsent, hfinished]
  rfl

end Pipe

end TaskRelay
