import TaskRelay.Proofs.Message
import TaskRelay.Proofs.Pipe.Step

/-!
# A pipe and the loop that it stands for

Submissions are made by a pool, in any order and while joining waits for their outcomes, and the
messages of different calls may be answered in any way. Still a pipe comes to what the sequential
loop comes to where every call meets with the same answers:

* each call has a verdict, which depends on its own answers only, and the loop returns the verdicts
  up to the first problem (`sequentialFrom_eq`);
* what joining has made of a slot is the verdict on its call (`Judged.verdict_eq`).

Joining also comes to an end: when the jobs of all calls have ended every slot is filled, and then
joining is through with one more slot at each look, unless it has stopped (`Step.through`).

`sequential_of_run` puts this together. It also says what a verdict has to do with the pool: the
failure of a worker pool is the verdict on a call whose submission has broken off.
-/

namespace TaskRelay

/-! ## Lists of verdicts -/

section

variable {α β ε : Type} {g : α → Except ε β} {l : List α}

/-- A list is what a loop comes to if each of its entries is. -/
theorem mapM_eq_ok {vs : List β} (hlength : vs.length = l.length)
    (h : ∀ {i : Nat} {a v}, l[i]? = some a → vs[i]? = some v → g a = .ok v) :
    l.mapM g = .ok vs := by
  induction l generalizing vs with
  | nil =>
    obtain rfl := List.eq_nil_of_length_eq_zero hlength
    rfl
  | cons a l ih =>
    obtain ⟨v, vs, rfl⟩ := List.exists_cons_of_length_eq_add_one hlength
    have hrest := ih (Nat.succ.inj hlength) fun {i b w} hb hw =>
      h (i := i + 1) (a := b) (v := w) hb hw
    rw [List.mapM_cons, h (i := 0) (a := a) (v := v) rfl rfl, hrest]
    rfl

/-- The first problem decides. -/
theorem mapM_eq_error {k : Nat} {a : α} {f : ε} (hk : l[k]? = some a) (ha : g a = .error f)
    (h : ∀ {i : Nat} {b}, i < k → l[i]? = some b → ∃ v, g b = .ok v) : l.mapM g = .error f := by
  induction l generalizing k with
  | nil => cases hk
  | cons b l ih =>
    cases k with
    | zero =>
      cases hk
      rw [List.mapM_cons, ha]
      rfl
    | succ k =>
      obtain ⟨v, hv⟩ := h (Nat.succ_pos k) (List.getElem?_cons_zero)
      have hrest := ih hk fun {i b} hi hb => h (Nat.succ_lt_succ hi) hb
      rw [List.mapM_cons, hv, hrest]
      rfl

end

/-! ## The loop -/

/-- The verdicts on calls from a place on, up to the first problem. -/
def Answers.verdicts (answers : Answers) (registry : Registry) (place : Nat) (calls : List Call) :
    Except Failure (List Value) :=
  (calls.zipIdx place).mapM fun row => answers.verdict registry row.2 row.1

namespace Pipe

variable {σ : Type} {wire : Wire σ} {registry : Registry} {answers : Answers} {place : Nat}
  {slot : Slot} {c : Call} {calls : List Call}

/-- The verdict on a call is what calling it alone comes to. -/
theorem callOne_eq (h : wire.Gives answers) {s : σ} :
    (callOne wire registry place c s).1 = answers.verdict registry place c := by
  unfold callOne Answers.verdict
  cases c.arguments with
  | error f => rfl
  | ok texts =>
    obtain ⟨args, kwargs⟩ := texts
    dsimp only
    rw [h.submit]
    cases answers.submission place with
    | error panic => rfl
    | ok response =>
      dsimp only [fill]
      cases Client.readResponse TaskId.parse response with
      | error f => rfl
      | ok id =>
        dsimp only
        rw [waitFor_eq, h.ask]

/-- The verdicts up to the first problem are what the loop comes to. -/
theorem sequentialFrom_eq (h : wire.Gives answers) {s : σ} :
    (sequentialFrom wire registry place calls s).1 = answers.verdicts registry place calls := by
  unfold Answers.verdicts
  induction calls generalizing place s with
  | nil => rfl
  | cons c calls ih =>
    have hone : (callOne wire registry place c s).1 = answers.verdict registry place c :=
      callOne_eq h
    rw [List.zipIdx_cons, List.mapM_cons, ← hone]
    unfold sequentialFrom
    obtain ⟨r, t⟩ := callOne wire registry place c s
    cases r with
    | error f => rfl
    | ok v =>
      have hrest : (sequentialFrom wire registry (place + 1) calls t).1 = _ := ih
      dsimp only
      rw [hrest]
      rfl

/-! ## What joining makes of a slot -/

section

variable {p q : Progress (σ × Traffic)} {m : Move} {r : Except Failure Value}

/-- What joining has made of a slot is the verdict on its call. -/
theorem Judged.verdict_eq {t : Traffic} (h : Judged registry t place slot r)
    (hagree : answers.Agree t) (hknown : Known c (Rows.get? place t.submissions) slot) :
    answers.verdict registry place c = r := by
  unfold Answers.verdict
  generalize hsent : Rows.get? place t.submissions = sent at hknown
  cases hknown with
  | untouched =>
    -- a call whose slot was judged without a submission is one whose arguments were refused
    cases harguments : c.arguments with
    | ok texts =>
      have hpending := h.not_pending
      rw [isPending_slotOf, Call.message?, harguments] at hpending
      cases hpending
    | error f =>
      rw [slotOf, harguments] at h
      cases h with
      | failed hfailure =>
        cases hfailure
        rfl
  | @answered message response hmessage =>
    have hresponse := hagree.submission _ (Rows.mem_of_get? hsent)
    dsimp only at hresponse
    cases harguments : c.arguments with
    | error f =>
      rw [Call.message?, harguments] at hmessage
      cases hmessage
    | ok texts =>
      rw [← hresponse]
      cases response with
      | error panic =>
        cases h with
        | failed hfailure =>
          cases hfailure
          rfl
      | ok response =>
        dsimp only [fill] at h ⊢
        generalize Client.readResponse TaskId.parse response = task at h
        cases h with
        | read hasked hread =>
          rw [← hagree.question _ hasked]
          exact hread
        | failed hfailure =>
          cases task with
          | error f =>
            cases hfailure
            rfl
          | ok id => cases hfailure

theorem Sound.verdict_of_judged (hp : Sound registry calls p) (hagree : answers.Agree p.world.2)
    (h : ∃ slot, p.slots[place]? = some slot ∧ Judged registry p.world.2 place slot r) :
    ∃ c, calls[place]? = some c ∧ answers.verdict registry place c = r := by
  obtain ⟨slot, hslot, hjudged⟩ := h
  obtain ⟨c, hc, hknown⟩ := hp.faithful.known hslot
  exact ⟨c, hc, hjudged.verdict_eq hagree hknown⟩

theorem getElem?_zipIdx_of_getElem? (hc : calls[place]? = some c) :
    calls.zipIdx[place]? = some (c, place) := by
  rw [List.getElem?_zipIdx, hc, Option.map_some, Nat.zero_add]

/-- The outcome of a pipe is made of the verdicts on its calls. -/
theorem Sound.outcome_eq {r : Except Failure (List Value)} (hp : Sound registry calls p)
    (hagree : answers.Agree p.world.2) (h : p.outcome? = some r) :
    r = answers.verdicts registry 0 calls := by
  have houtputs : ∀ {i : Nat} {row v}, calls.zipIdx[i]? = some row → p.outputs[i]? = some v →
      answers.verdict registry row.2 row.1 = .ok v := by
    intro i row v hrow hv
    obtain ⟨c, hc, hverdict⟩ := hp.verdict_of_judged hagree (hp.joined.outputs hv)
    rw [getElem?_zipIdx_of_getElem? hc] at hrow
    cases hrow
    exact hverdict
  -- the first problem is the verdict on a call before which all others have outputs
  unfold Progress.outcome? at h
  unfold Answers.verdicts
  split at h
  · next f hproblem =>
    cases h
    obtain ⟨c, hc, hverdict⟩ := hp.verdict_of_judged hagree (hp.joined.problem hproblem)
    refine (mapM_eq_error (getElem?_zipIdx_of_getElem? hc) hverdict fun {i row} hi hrow => ?_).symm
    exact ⟨_, houtputs hrow (Array.getElem?_eq_getElem hi)⟩
  · split at h
    · next hsize =>
      cases h
      refine (mapM_eq_ok ?_ fun {i row v} hrow hv => houtputs hrow ?_).symm
      · rw [Array.length_toList, hsize, hp.faithful.size_eq, List.length_zipIdx]
      · rwa [Array.getElem?_toList] at hv
    · cases h

/-! ## Answers -/

/-- What a wire answers in every state, it has answered in every run. -/
theorem Step.agree (h : Step wire registry p m q) (hgives : wire.Gives answers)
    (hp : answers.Agree p.world.2) : answers.Agree q.world.2 := by
  cases h with
  | submit hslot hmessage hresponse =>
    refine ⟨fun row hrow => ?_, hp.question⟩
    rcases List.mem_append.mp hrow with hold | hlast
    · exact hp.submission row hold
    · cases List.mem_singleton.mp hlast
      exact (congrArg Prod.fst hresponse).symm.trans (hgives.submit _ _ _)
  | output hgoing hslot hmessage hresponse | stop hgoing hslot hmessage hresponse =>
    refine ⟨hp.submission, fun row hrow => ?_⟩
    rcases List.mem_append.mp hrow with hold | hlast
    · exact hp.question row hold
    · cases List.mem_singleton.mp hlast
      exact (congrArg Prod.fst hresponse).symm.trans (hgives.ask _ _ _)
  | pass | refuse | wait | ended => exact hp

/-- No outcome is asked for twice. -/
theorem Asked.once (hp : Asked p) : (p.world.2.questions.map Prod.fst).Nodup := by
  have hkeys : p.world.2.questions.map Prod.fst =
      (Traffic.texts p.world.2.questions).map Prod.fst := by
    rw [Traffic.texts, List.map_map]
    rfl
  have hplace : ∀ {i n : Nat}, n ∈ (p.world.2.question? i).map Prod.fst → n = i := by
    intro i n hn
    unfold Traffic.question? at hn
    rw [Option.map_map] at hn
    obtain ⟨id, -, rfl⟩ := Option.map_eq_some_iff.mp hn
    rfl
  rw [hkeys, hp, List.map_filterMap]
  exact List.nodup_range.filterMap fun i j n hi hj => (hplace hi).symm.trans (hplace hj)

/-- Each message of a run has one answer, so there are answers that were given. -/
theorem Sound.exists_agree (hp : Sound registry calls p) :
    ∃ answers : Answers, answers.Agree p.world.2 := by
  refine ⟨⟨fun place => ((Rows.get? place p.world.2.submissions).map Prod.snd).getD
      (.error .wordless), fun place => ((Rows.get? place p.world.2.questions).map Prod.snd).getD
      (.error dropped)⟩, fun row hrow => ?_, fun row hrow => ?_⟩
  · dsimp only
    rw [Rows.get?_of_mem hp.faithful.once hrow]
    rfl
  · dsimp only
    rw [Rows.get?_of_mem hp.asked.once hrow]
    rfl

/-! ## Joining comes to an end -/

/-- Joining has stopped, or it is through with that many slots, or with all of them. -/
def Through (p : Progress (σ × Traffic)) (n : Nat) : Prop :=
  p.problem ≠ none ∨ min n p.slots.size ≤ p.outputs.size

/-- If all slots are filled, a look is enough for one more of them. -/
theorem Step.through {n : Nat} (h : Step wire registry p .join q)
    (hsettled : ∀ place, p.Settled place) (hp : Through p n) : Through q (n + 1) := by
  cases h with
  | output hgoing hslot =>
    have hlt := (Array.getElem?_eq_some_iff.mp hslot).1
    have hsize := hp.resolve_left (not_not.mpr hgoing)
    refine .inr ?_
    rw [Array.size_push]
    dsimp only
    omega
  | stop | refuse => exact .inl (Option.some_ne_none _)
  | wait hslot hpending =>
    rw [hsettled _ _ hslot] at hpending
    cases hpending
  | ended hended =>
    rcases hended with hproblem | hsize
    · exact .inl hproblem
    · exact .inr (Nat.le_trans (Nat.min_le_right _ _) hsize)

/-- If joining is through with all slots, there is an outcome. -/
theorem Sound.exists_outcome (hp : Sound registry calls p) (hthrough : Through p calls.length) :
    ∃ r, p.outcome? = some r := by
  unfold Progress.outcome?
  cases hproblem : p.problem with
  | some f => exact ⟨_, rfl⟩
  | none =>
    have hsize := hthrough.resolve_left (not_not.mpr hproblem)
    rw [← hp.faithful.size_eq, Nat.min_self] at hsize
    exact ⟨_, if_pos (Nat.le_antisymm hp.joined.size_le hsize)⟩

end

/-! ## On a pool -/

/-- Each call with arguments was handed to the pool, as one job. There may be other jobs. -/
structure HandedOver (calls : List Call) (es : List Pool.Event) : Prop where
  once : (Pool.called es).Nodup
  all : ∀ row ∈ messages calls, row.1 ∈ Pool.called es

theorem mem_messages {message : String} (hc : calls[place]? = some c)
    (hmessage : c.message? = some message) : (place, message) ∈ messages calls := by
  have hlt := (List.getElem?_eq_some_iff.mp hc).1
  refine List.mem_filterMap.mpr ⟨place, List.mem_range.mpr hlt, ?_⟩
  rw [messageAt?, hc, Option.bind_some, hmessage]
  rfl

namespace Pooled

variable {limits : Pool.Limits} {opened : Pool.State} {s : σ} {p q : Pooled (σ × Traffic)}
  {es : List Event} {n : Nat}

/-- What was sent in a run was answered as the connection answers. -/
theorem agree_of_run (h : (new opened calls (s, .empty)).run wire.logged registry es = some p)
    (hgives : wire.Gives answers) : answers.Agree p.pipe.world.2 :=
  pipe_of_run (P := fun p => answers.Agree p.world.2)
    ⟨fun _ hnil => absurd hnil List.not_mem_nil, fun _ hnil => absurd hnil List.not_mem_nil⟩
    (fun hstep => hstep.agree hgives) h

/-- At rest, the job of each call that is submitted has ended. -/
theorem ended_of_atRest (hopen : Pool.Opening limits 0 opened)
    (h : (new opened calls (s, .empty)).run wire.logged registry es = some p)
    (hrest : p.pool.AtRest) (hover : HandedOver calls (poolEvents es)) :
    ∀ row ∈ messages calls, row.1 ∈ p.pool.finished := fun row hrow =>
  (Pool.finished_of_atRest hopen (pool_of_run h) hrest).mem_iff.mpr (hover.all row hrow)

/-- When their jobs have ended, all submissions are made. -/
theorem settled_of_ended (hopen : Pool.Opening limits 0 opened)
    (h : (new opened calls (s, .empty)).run wire.logged registry es = some p)
    (hended : ∀ row ∈ messages calls, row.1 ∈ p.pool.finished) (place : Nat) :
    p.pipe.Settled place := by
  intro slot hslot
  obtain ⟨c, hc, hknown⟩ := (sound_of_run h).faithful.known hslot
  cases hmessage : c.message? with
  | some message => exact settled_of_run hopen h (hended _ (mem_messages hc hmessage)) slot hslot
  | none =>
    generalize Rows.get? place p.pipe.world.2.submissions = sent at hknown
    cases hknown with
    | untouched => rw [isPending_slotOf, hmessage, Option.isSome_none]
    | answered => exact isPending_fill

/-- While joining looks at slots, the pool stays as it is. If all slots are filled, joining is
through with as many as it has looked at. -/
theorem through_of_joins (h : p.run wire.logged registry (List.replicate n .join) = some q) :
    q.pool = p.pool ∧ ((∀ place, p.pipe.Settled place) →
      (∀ place, q.pipe.Settled place) ∧ Through q.pipe n) := by
  induction n generalizing q with
  | zero =>
    cases h
    refine ⟨rfl, fun hsettled => ⟨hsettled, .inr ?_⟩⟩
    rw [Nat.zero_min]
    exact Nat.zero_le _
  | succ n ih =>
    rw [List.replicate_succ'] at h
    obtain ⟨m, hm, hlast⟩ := exists_step_of_run_concat h
    obtain ⟨hpool, hthrough⟩ := ih hm
    cases hlast with
    | join hpipe =>
      refine ⟨hpool, fun hsettled => ?_⟩
      obtain ⟨hfilled, hbefore⟩ := hthrough hsettled
      exact ⟨fun place => hpipe.settled (hfilled place), hpipe.through hfilled hbefore⟩

/-- When their jobs have ended, one look at each slot is enough. -/
theorem exists_outcome_of_run (hopen : Pool.Opening limits 0 opened)
    (h : (new opened calls (s, .empty)).run wire.logged registry es = some p)
    (hended : ∀ row ∈ messages calls, row.1 ∈ p.pool.finished)
    (hlooks : List.replicate calls.length .join <:+ es) : ∃ r, p.pipe.outcome? = some r := by
  have hsound := sound_of_run h
  obtain ⟨before, rfl⟩ := hlooks
  rw [run_append] at h
  obtain ⟨m, hm, hjoins⟩ := Option.bind_eq_some_iff.mp h
  obtain ⟨hpool, hthrough⟩ := through_of_joins hjoins
  rw [hpool] at hended
  exact hsound.exists_outcome (hthrough (settled_of_ended hopen hm hended)).2

end Pooled

end Pipe

/-! ## The failure of a worker pool -/

section

variable {registry : Registry} {answers : Answers} {place : Nat} {c : Call} {m : String}

/-- The submission of a call breaks off. -/
def Answers.Loses (answers : Answers) (place : Nat) (c : Call) : Prop :=
  c.message?.isSome ∧ ∃ panic, answers.submission place = .error panic

/-- The connection itself answers a message of a call with this failure. -/
def Answers.Reports (answers : Answers) (place : Nat) (f : Failure) : Prop :=
  answers.submission place = .ok (.error f) ∨ answers.question place = .error f

/-- Encoding arguments does not go through the pool. -/
theorem Arguments.encode_ne_workerPool {definition : String}
    {args kwargs : Except CodecError Value} :
    Arguments.encode definition args kwargs ≠ .error (.workerPool m) := by
  unfold Arguments.encode notList notObject
  grind

/-- No envelope is taken for a failure of the pool. -/
theorem Registry.reconstruct_ne_workerPool {kind message : String} {trace : List String} :
    registry.reconstruct kind message trace ≠ .workerPool m := by
  unfold Registry.reconstruct Failure.ofTaxonomy?
  grind

/-- Reading a response does not make it a failure of the pool. -/
theorem Client.response_of_workerPool {α : Type} {parse : String → Except DecodeError α}
    {response : Except Failure String}
    (h : Client.readResponse parse response = .error (.workerPool m)) :
    response = .error (.workerPool m) := by
  cases response with
  | error f => exact congrArg Except.error (Except.error.inj h)
  | ok text =>
    have htext : (parse text).mapError Client.undecodable = .error (.workerPool m) := h
    cases hparse : parse text <;> rw [hparse] at htext <;> cases htext

/-- Neither does reading an output. -/
theorem Pipe.response_of_workerPool {response : Except Failure String}
    (h : Pipe.readOutput registry response = .error (.workerPool m)) :
    response = .error (.workerPool m) := by
  unfold Pipe.readOutput at h
  cases hread : Client.readResponse Envelope.parse response with
  | error f =>
    rw [hread] at h
    cases h
    exact Client.response_of_workerPool hread
  | ok e =>
    rw [hread] at h
    cases e with
    | success result =>
      have hvalue : Future.output registry .value (.success result) =
          .ok (Value.ofJson result.tree) := rfl
      cases hvalue.symm.trans h
    | failure kind message trace =>
      exact absurd (Except.error.inj h) Registry.reconstruct_ne_workerPool

/-- A call whose submission breaks off was dropped. -/
theorem Answers.verdict_of_loses (h : answers.Loses place c) :
    answers.verdict registry place c = .error Pipe.dropped := by
  obtain ⟨hmessage, panic, hpanic⟩ := h
  unfold Answers.verdict
  rw [hpanic]
  cases harguments : c.arguments with
  | error f =>
    rw [Call.message?, harguments] at hmessage
    cases hmessage
  | ok texts => rfl

/-- A call that was accepted comes to what the question for its outcome is answered. -/
theorem Answers.verdict_of_accepted {texts : String × String} {response : Except Failure String}
    {id : TaskId} (hc : c.arguments = .ok texts)
    (hresponse : answers.submission place = .ok response)
    (hid : Client.readResponse TaskId.parse response = .ok id) :
    answers.verdict registry place c = Pipe.readOutput registry (answers.question place) := by
  unfold Answers.verdict
  rw [hc, hresponse]
  dsimp only
  rw [hid]

/-- A failure of the pool comes of a submission that broke off, or the connection reports one
itself. -/
theorem Answers.loses_of_workerPool {args kwargs : Except CodecError Value}
    (hc : c.arguments = Arguments.encode c.definition args kwargs)
    (h : answers.verdict registry place c = .error (.workerPool m)) :
    answers.Loses place c ∨ answers.Reports place (.workerPool m) := by
  unfold Answers.verdict at h
  -- each way to a verdict is gone through: it ends at the arguments, at the submission or at the
  -- question
  cases harguments : c.arguments with
  | error f =>
    rw [harguments] at h
    cases h
    exact absurd (hc.symm.trans harguments) Arguments.encode_ne_workerPool
  | ok texts =>
    rw [harguments] at h
    cases hsubmission : answers.submission place with
    | error panic =>
      refine .inl ⟨?_, panic, hsubmission⟩
      rw [Call.message?, harguments]
      rfl
    | ok response =>
      rw [hsubmission] at h
      dsimp only at h
      refine .inr ?_
      cases htask : Client.readResponse TaskId.parse response with
      | error f =>
        rw [htask] at h
        cases h
        exact .inl (hsubmission.trans (congrArg Except.ok (Client.response_of_workerPool htask)))
      | ok id =>
        rw [htask] at h
        exact .inr (Pipe.response_of_workerPool h)

end

/-! ## Runs -/

namespace Pipe

section

variable {σ : Type} {wire : Wire σ} {registry : Registry} {limits : Pool.Limits}
  {opened : Pool.State} {calls : List Call} {s : σ} {p : Pooled (σ × Traffic)}
  {es : List Pooled.Event}

/-- Complaining about the items of a list is complaining about each of them. -/
theorem items_mapError {α : Type} {item : Json → Except Cause α} {complain : Cause → Failure}
    {values : List Value} : (OfJson.items item (values.map Value.tree)).mapError complain =
      values.mapM fun v => (item v.tree).mapError complain := by
  induction values with
  | nil => rfl
  | cons v values ih =>
    rw [List.mapM_cons, ← ih, List.map_cons, OfJson.items]
    cases item v.tree with
    | error cause => rfl
    | ok a => cases OfJson.items item (values.map Value.tree) <;> rfl

/-- Outputs are decoded one by one, each as the output of a task of its own would be. -/
theorem decodeAll_eq {shape : Shape} : decodeAll shape =
    fun values => values.mapM fun v => Future.output registry shape (.success v) :=
  funext fun _ => items_mapError

/-- However its pool has opened, joining a pipe comes to what the loop comes to where every message
is answered as it was in the run: to the verdicts on all calls in their order, or to the first
problem. If the answers do not depend on the state of the wire, it is the loop on the wire itself.
When the jobs of all calls have ended, as they have in a pool at rest, joining does come to this
with one look at each slot. Decoding comes after that. A call whose submission breaks off has the
failure of a worker pool for its verdict, and no other call has, unless the connection itself
reports such a failure. -/
theorem sequential_of_run (hopen : Pool.Opening limits 0 opened)
    (h : (Pooled.new opened calls (s, .empty)).run wire.logged registry es = some p) :
    (p.pool.AtRest → HandedOver calls (Pooled.poolEvents es) →
      ∀ row ∈ messages calls, row.1 ∈ p.pool.finished) ∧
    (∃ answers : Answers, answers.Agree p.pipe.world.2) ∧
    (∀ answers : Answers, wire.Gives answers → answers.Agree p.pipe.world.2 ∧
      (sequential wire registry calls s).1 = (sequential answers.wire registry calls ()).1) ∧
    ∀ answers : Answers, answers.Agree p.pipe.world.2 →
      (∀ r, p.pipe.outcome? = some r → r = (sequential answers.wire registry calls ()).1) ∧
      ((∀ row ∈ messages calls, row.1 ∈ p.pool.finished) →
        List.replicate calls.length .join <:+ es →
        p.pipe.outcome? = some (sequential answers.wire registry calls ()).1) ∧
      (∀ shape, p.pipe.decoded? shape = p.pipe.outcome?.map fun r =>
        r.bind fun vs => vs.mapM fun v => Future.output registry shape (.success v)) ∧
      (sequential answers.wire registry calls ()).1 =
        calls.zipIdx.mapM (fun row => answers.verdict registry row.2 row.1) ∧
      ∀ place c args kwargs, c.arguments = Arguments.encode c.definition args kwargs →
        (answers.Loses place c → answers.verdict registry place c = .error dropped) ∧
        ∀ m, answers.verdict registry place c = .error (.workerPool m) →
          answers.Loses place c ∨ answers.Reports place (.workerPool m) := by
  have hsound := Pooled.sound_of_run h
  refine ⟨Pooled.ended_of_atRest hopen h, hsound.exists_agree,
    fun answers hgives => ⟨Pooled.agree_of_run h hgives, ?_⟩, fun answers hagree => ?_⟩
  · exact (sequentialFrom_eq hgives).trans (sequentialFrom_eq answers.gives_wire).symm
  -- the loop with these answers is the list of verdicts, whatever is behind the wire
  · have hloop : (sequential answers.wire registry calls ()).1 =
        answers.verdicts registry 0 calls := sequentialFrom_eq answers.gives_wire
    refine ⟨fun r hr => hloop ▸ hsound.outcome_eq hagree hr, fun hended hlooks => ?_,
      fun shape => ?_, hloop, fun place c args kwargs hc => ⟨Answers.verdict_of_loses,
        fun m => Answers.loses_of_workerPool hc⟩⟩
    · obtain ⟨r, hr⟩ := Pooled.exists_outcome_of_run hopen h hended hlooks
      rw [hr, hloop, hsound.outcome_eq hagree hr]
    · rw [Progress.decoded?, decodeAll_eq]

end

/-! ## A call that breaks off -/

/-- The submission of the first call is accepted and its task returns; any other one breaks off. -/
def fragile : Answers where
  submission
    | 0 => .ok (.ok (TaskId.mk "a").toJson.compact)
    | _ => .error .wordless
  question _ := .ok (Envelope.success .null).encode

/-- Two calls with arguments, and one without. -/
def trio : List Call :=
  [⟨"Add", .ok ("[]", "{}")⟩, ⟨"Add", .ok ("[]", "{}")⟩, ⟨"Add", .error (Arguments.notList "Add")⟩]

/-- The first submission waits in the queue while the caller runs the second one, and joining has
looked at the first slot before that is filled. -/
def detour : List Pooled.Event :=
  [.pool (.call 0), .pool (.readIdle 0), .pool (.readSize 0), .pool (.grow 0 false),
    .pool (.offer 0), .pool (.call 1), .pool (.readIdle 1), .pool (.readSize 1),
    .pool (.grow 1 false), .pool (.offer 1), .pool (.finishInline 1 .panicked), .join,
    .pool (.countIdle 0), .pool (.wait 0), .pool (.receive 0), .pool (.countBusy 0),
    .pool (.finish 0 .returned), .pool (.countIdle 0), .pool (.wait 0), .join, .join, .join]

/-- In the end the only worker waits at an empty queue. -/
theorem exists_run_detour : ∃ p, (Pooled.new (.new ⟨1, 1, 1, 0⟩) trio ((), .empty)).run
    fragile.wire.logged .empty detour = some p ∧ p.pool.AtRest ∧ p.pool.finished = [0, 1] ∧
    p.pipe.looked = 2 := by
  have hrun : ∃ p, (Pooled.new (.new ⟨1, 1, 1, 0⟩) trio ((), .empty)).run fragile.wire.logged .empty
      detour = some p ∧ (p.pool.callers = [] ∧ p.pool.workers = [(0, .listening)] ∧
      p.pool.queue = []) ∧ p.pool.finished = [0, 1] ∧ p.pipe.looked = 2 :=
    ⟨_, rfl, ⟨rfl, rfl, rfl⟩, rfl, by decide +kernel⟩
  obtain ⟨p, hp, ⟨hcallers, hworkers, hqueue⟩, hfinished, hlooked⟩ := hrun
  refine ⟨p, hp, .inl ⟨hcallers, fun row hrow => ?_⟩, hfinished, hlooked⟩
  rw [hworkers] at hrow
  cases List.mem_singleton.mp hrow
  exact ⟨rfl, hqueue⟩

theorem handedOver_detour : HandedOver trio (Pooled.poolEvents detour) where
  once := by decide
  all row hrow := by
    have hplaces : (messages trio).map Prod.fst = [0, 1] := rfl
    have hplace := List.mem_map_of_mem (f := Prod.fst) hrow
    rw [hplaces] at hplace
    exact hplace

theorem verdict_fragile {registry : Registry} {c : Call} {texts : String × String}
    (hc : c.arguments = .ok texts) : fragile.verdict registry 0 c = .ok .null := by
  have htask : Client.readResponse TaskId.parse (.ok (TaskId.mk "a").toJson.compact) =
      .ok ⟨"a"⟩ := by
    rw [Client.readResponse, TaskId.parse_compact]
    rfl
  have houtput : readOutput registry (.ok (Envelope.success .null).encode) = .ok .null := by
    have hparse := Envelope.parse_encode (e := .success .null) trivial (by decide)
    rw [readOutput, Client.readResponse, hparse]
    exact congrArg Except.ok (Value.ofJson_tree .null)
  exact (Answers.verdict_of_accepted hc rfl htask).trans houtput

/-- Joining stops at the second call, whose submission broke off, and not at the third one, whose
arguments had been refused long before. -/
theorem sequential_of_detour : ∃ p, (Pooled.new (.new ⟨1, 1, 1, 0⟩) trio ((), .empty)).run
    fragile.wire.logged .empty detour = some p ∧ p.pool.AtRest ∧
    HandedOver trio (Pooled.poolEvents detour) ∧ p.pipe.outcome? = some (.error dropped) := by
  obtain ⟨p, hrun, hrest, -⟩ := exists_run_detour
  obtain ⟨hended, -, hgives, hjoined⟩ := sequential_of_run .new hrun
  obtain ⟨-, hcomes, -, hverdicts, -⟩ := hjoined fragile (hgives fragile fragile.gives_wire).1
  refine ⟨p, hrun, hrest, handedOver_detour, ?_⟩
  rw [hcomes (hended hrest handedOver_detour) ⟨detour.take 19, rfl⟩, hverdicts]
  refine congrArg some (mapM_eq_error (k := 1) rfl rfl fun {i row} hi hrow => ⟨.null, ?_⟩)
  obtain rfl := Nat.lt_one_iff.mp hi
  cases hrow
  exact verdict_fragile rfl

end Pipe

end TaskRelay
