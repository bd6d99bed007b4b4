import TaskRelay.Client.Calls
import TaskRelay.Proofs.Dispatcher
import TaskRelay.Proofs.Engine.Failing
import TaskRelay.Proofs.Engine.Verbatim
import TaskRelay.Proofs.Pipe.Messages
import TaskRelay.Proofs.Shape.Any

/-!
# Arguments arrive as they were given

Whoever submits a call, one by one or on a pipe, first has its arguments written. A request is sent
if and only if they are a list and an object; otherwise what is wrong is returned and nothing is
sent. The positional arguments are judged before anybody looks at the named ones (`Judged`).

What is sent are two texts in the text of a request, and two readers take them apart again. The
request is read by a reader for which both are just texts, however deep what they stand for is
nested. Only the one who decodes them to run the task goes by a limit. So there are submissions that
are accepted and cannot be run:

> `delivered`: any list and any map without doubles are decoded to just that list and that map if
> neither is nested too deeply. Otherwise the engine accepts the task all the same, and its outcome
> is a failed decoding, with nothing built.
-/

namespace TaskRelay

namespace Arguments

/-! ## What is made of arguments -/

section

variable {definition : String} {args kwargs : Except CodecError Value}
  {r : Except Failure (String × String)}

/-- The two texts of a call, or the first thing that is wrong with its arguments. -/
inductive Judged (definition : String) (args kwargs : Except CodecError Value) :
    Except Failure (String × String) → Prop
  | texts {a k : Value} {js : List Json} {ms : List (String × Json)} (hargs : args = .ok a)
      (hlist : a.tree = .array js) (hkwargs : kwargs = .ok k) (hobject : k.tree = .object ms) :
      Judged definition args kwargs (.ok (a.text, k.text))
  | argsUnwritten {e : CodecError} (hargs : args = .error e) :
      Judged definition args kwargs (.error (.codec e))
  | argsNoList {a : Value} (hargs : args = .ok a) (hlist : ∀ js, a.tree ≠ .array js) :
      Judged definition args kwargs (.error (.validation
        ("positional arguments of " ++ definition ++ " must encode to a JSON array")))
  | kwargsUnwritten {a : Value} {js : List Json} {e : CodecError} (hargs : args = .ok a)
      (hlist : a.tree = .array js) (hkwargs : kwargs = .error e) :
      Judged definition args kwargs (.error (.codec e))
  | kwargsNoObject {a k : Value} {js : List Json} (hargs : args = .ok a)
      (hlist : a.tree = .array js) (hkwargs : kwargs = .ok k)
      (hobject : ∀ ms, k.tree ≠ .object ms) :
      Judged definition args kwargs (.error (.validation
        ("keyword arguments of " ++ definition ++ " must encode to a JSON object")))

/-- Arguments are judged as `encode` does it. -/
theorem Judged.eq_encode (h : Judged definition args kwargs r) :
    r = encode definition args kwargs := by
  unfold encode
  cases h with
  | texts hargs hlist hkwargs hobject => simp only [hargs, hlist, hkwargs, hobject]
  | argsUnwritten hargs => simp only [hargs]
  | argsNoList hargs hlist =>
    simp only [hargs]
    rfl
  | kwargsUnwritten hargs hlist hkwargs => simp only [hargs, hlist, hkwargs]
  | kwargsNoObject hargs hlist hkwargs hobject =>
    simp only [hargs, hlist, hkwargs]
    rfl

theorem judged_encode (definition : String) (args kwargs : Except CodecError Value) :
    Judged definition args kwargs (encode definition args kwargs) := by
  unfold encode
  split
  · exact .argsUnwritten rfl
  · next a =>
    split
    · next js hlist =>
      split
      · exact .kwargsUnwritten rfl hlist rfl
      · next k =>
        split
        · next ms hobject => exact .texts rfl hlist rfl hobject
        · next hobject => exact .kwargsNoObject rfl hlist rfl hobject
    · next hlist => exact .argsNoList rfl hlist

/-- There is one judgement on any arguments, and it is that of `encode`. -/
theorem judged_iff : Judged definition args kwargs r ↔ r = encode definition args kwargs := by
  refine ⟨Judged.eq_encode, ?_⟩
  rintro rfl
  exact judged_encode definition args kwargs

end

/-- The message that brings the texts of a call. -/
def message (definition : String) (texts : String × String) : String :=
  (Request.newTask (.ofTask definition texts.1 texts.2)).encode

/-! ## One by one -/

/-- What a submission returns and sends, whatever answers it. -/
structure Submits {σ : Type} (connection : Connection σ) (s : σ) (definition : String)
    (args kwargs : Except CodecError Value) : Prop where
  refused : ∀ f, Judged definition args kwargs (.error f) →
    Client.submitEncoded connection.recorded definition (encode definition args kwargs) (s, []) =
      (.error f, s, [])
  sent : ∀ texts, Judged definition args kwargs (.ok texts) →
    Client.submitEncoded connection.recorded definition (encode definition args kwargs) (s, []) =
      (Client.readResponse TaskId.parse (connection (message definition texts) s).1,
        (connection (message definition texts) s).2, [message definition texts])

/-- Nothing is sent for arguments that are refused, and one message for any others. -/
theorem submits {σ : Type} (connection : Connection σ) (s : σ) (definition : String)
    (args kwargs : Except CodecError Value) : Submits connection s definition args kwargs where
  refused f h := by
    rw [← h.eq_encode]
    rfl
  sent texts h := by
    rw [← h.eq_encode]
    rfl

/-! ## On a pipe -/

section

open Pipe

variable {σ : Type} {wire : Wire σ} {registry : Registry} {limits : Pool.Limits}
  {opened : Pool.State} {calls : List Call} {place : Nat} {c : Call} {s : σ}
  {p : Pooled (σ × Traffic)} {es : List Pooled.Event}

/-- The message that was put on the wire for the call at a place. -/
def sentAt (p : Pooled (σ × Traffic)) (place : Nat) : Option String :=
  (Rows.get? place p.pipe.world.2.submissions).map Prod.fst

/-- Every call has its slot, also before anything is sent. -/
theorem exists_slot (h : (Pooled.new opened calls (s, .empty)).run wire.logged registry es = some p)
    (hc : calls[place]? = some c) : ∃ slot, p.pipe.slots[place]? = some slot ∧
      Known c (Rows.get? place p.pipe.world.2.submissions) slot := by
  have hfaithful := (Pooled.sound_of_run h).faithful
  have hlt := (List.getElem?_eq_some_iff.mp hc).1
  rw [← hfaithful.size_eq] at hlt
  have hslot := Array.getElem?_eq_getElem hlt
  obtain ⟨c', hc', hknown⟩ := hfaithful.known hslot
  rw [hc] at hc'
  cases hc'
  exact ⟨_, hslot, hknown⟩

/-- Nothing is ever sent for a call whose arguments were refused, and the complaint stays in its
slot. -/
theorem refused_of_run {f : Failure}
    (h : (Pooled.new opened calls (s, .empty)).run wire.logged registry es = some p)
    (hc : calls[place]? = some c) (hf : c.arguments = .error f) :
    sentAt p place = none ∧ p.pipe.slots[place]? = some (.answered (.error f)) := by
  obtain ⟨slot, hslot, hknown⟩ := exists_slot h hc
  unfold sentAt
  generalize Rows.get? place p.pipe.world.2.submissions = row at hknown ⊢
  cases hknown with
  | untouched =>
    refine ⟨rfl, ?_⟩
    rw [hslot, slotOf, hf]
  | answered hmessage =>
    rw [Call.message?, hf] at hmessage
    cases hmessage

/-- Joining never gets past such a call: if it gets there, it ends with the complaint. -/
theorem joined_of_refused {f : Failure}
    (h : (Pooled.new opened calls (s, .empty)).run wire.logged registry es = some p)
    (hslot : p.pipe.slots[place]? = some (.answered (.error f))) :
    p.pipe.outputs.size ≤ place ∧ (p.pipe.outputs.size = place →
      (∀ g, p.pipe.problem = some g → g = f) ∧
      (joinNext wire.logged registry p.pipe).problem = some f) := by
  have hjoined := (Pooled.sound_of_run h).joined
  constructor
  · refine Nat.le_of_not_lt fun hlt => ?_
    -- a slot that was passed is judged to be an output, which a complaint is not
    obtain ⟨slot, hslot', hjudged⟩ := hjoined.outputs (Array.getElem?_eq_getElem hlt)
    rw [hslot] at hslot'
    cases hslot'
    cases hjudged
  · rintro rfl
    have hproblem : ∀ g, p.pipe.problem = some g → g = f := by
      intro g hg
      obtain ⟨slot, hslot', hjudged⟩ := hjoined.problem hg
      rw [hslot] at hslot'
      cases hslot'
      cases hjudged with
      | failed hfailure => exact (Option.some.inj hfailure).symm
    refine ⟨hproblem, ?_⟩
    unfold joinNext
    cases hg : p.pipe.problem with
    | none => simp only [hslot, joinSlot?]
    | some g => rw [← hproblem g hg, hg]

/-- A call with texts is sent once its job has ended, as the message with these texts. -/
theorem sent_of_run {texts : String × String} (hopen : Pool.Opening limits 0 opened)
    (h : (Pooled.new opened calls (s, .empty)).run wire.logged registry es = some p)
    (hc : calls[place]? = some c) (htexts : c.arguments = .ok texts) :
    (sentAt p place = none ∨ sentAt p place = some (message c.definition texts)) ∧
    (place ∈ p.pool.finished → sentAt p place = some (message c.definition texts)) := by
  have hmessage : c.message? = some (message c.definition texts) := by
    rw [Call.message?, htexts]
    rfl
  obtain ⟨slot, hslot, hknown⟩ := exists_slot h hc
  have hsettled := fun hplace => Pooled.settled_of_run hopen h hplace _ hslot
  unfold sentAt
  generalize Rows.get? place p.pipe.world.2.submissions = row at hknown ⊢
  cases hknown with
  | untouched =>
    refine ⟨.inl rfl, fun hplace => ?_⟩
    have hfilled := hsettled hplace
    rw [isPending_slotOf, hmessage] at hfilled
    cases hfilled
  | answered hsame =>
    rw [hmessage] at hsame
    cases hsame
    exact ⟨.inr rfl, fun _ => rfl⟩

/-- What becomes of a call on a pipe, as far as its pool and joining have got. -/
structure Travels (wire : Wire σ) (registry : Registry) (calls : List Call)
    (es : List Pooled.Event) (p : Pooled (σ × Traffic)) (place : Nat) (definition : String)
    (args kwargs : Except CodecError Value) : Prop where
  /-- Nothing is sent twice. -/
  once : (p.pipe.world.2.submissions.map Prod.fst).Nodup
  refused : ∀ f, Judged definition args kwargs (.error f) →
    sentAt p place = none ∧ p.pipe.outputs.size ≤ place ∧ (p.pipe.outputs.size = place →
      (∀ g, p.pipe.problem = some g → g = f) ∧
      (joinNext wire.logged registry p.pipe).problem = some f)
  sent : ∀ texts, Judged definition args kwargs (.ok texts) →
    (sentAt p place = none ∨ sentAt p place = some (message definition texts)) ∧
    (place ∈ p.pool.finished → sentAt p place = some (message definition texts)) ∧
    (HandedOver calls (Pooled.poolEvents es) → p.pool.AtRest → place ∈ p.pool.finished)

/-- On a pool a call of a task is judged before it is handed over, and sent by its job. -/
theorem travels_of_run {definition : String} {args kwargs : Except CodecError Value}
    (hopen : Pool.Opening limits 0 opened)
    (h : (Pooled.new opened calls (s, .empty)).run wire.logged registry es = some p)
    (hc : calls[place]? = some ⟨definition, encode definition args kwargs⟩) :
    Travels wire registry calls es p place definition args kwargs where
  once := (Pooled.sound_of_run h).faithful.once
  refused f hf := by
    obtain ⟨hsent, hslot⟩ := refused_of_run h hc hf.eq_encode.symm
    exact ⟨hsent, joined_of_refused h hslot⟩
  sent texts htexts := by
    obtain ⟨hsent, hended⟩ := sent_of_run hopen h hc htexts.eq_encode.symm
    refine ⟨hsent, hended, fun hover hrest => ?_⟩
    have hmessage : (Call.mk definition (encode definition args kwargs)).message? =
        some (message definition texts) := by
      rw [Call.message?, ← htexts.eq_encode]
      rfl
    exact Pooled.ended_of_atRest hopen h hrest hover _ (mem_messages hc hmessage)

end

/-! ## Any list and any map -/

section

variable {vs : List Value} {ms : List (String × Value)} {σ ε ω : Type}
  {t : Stages (List Value) (List (String × Value)) σ ε ω}

/-- A task that takes any list and any map. -/
structure TakesAny (t : Stages (List Value) (List (String × Value)) σ ε ω) : Prop where
  args : ∀ text, t.decodeArgs text = .ok (((Shape.list .value).parse text).mapError .decode)
  kwargs : ∀ text, t.decodeKwargs text = .ok (((Shape.dict .value).parse text).mapError .decode)

/-- The texts of any list and any map, as a task that takes them has them written. -/
def encodeAny (definition : String) (vs : List Value) (ms : List (String × Value)) :
    Except Failure (String × String) :=
  encode definition (((Shape.list .value).toValue vs).mapError .encode)
    (((Shape.dict .value).toValue ms).mapError .encode)

/-- Such arguments always get through. -/
theorem encodeAny_eq (definition : String) (vs : List Value) (hms : Members.Increasing ms) :
    encodeAny definition vs ms =
      .ok ((Json.ofValues vs).compact, (Json.ofEntries ms).compact) := by
  unfold encodeAny
  rw [Shape.toValue_values, Shape.toValue_entries hms]
  exact (Judged.texts rfl rfl rfl rfl).eq_encode.symm

/-- A task that takes any arguments gets those that were sent. -/
theorem TakesAny.ready (ht : TakesAny t) (hms : Members.Increasing ms)
    (hvs : (Json.ofValues vs).DoubleFree) (hentries : (Json.ofEntries ms).DoubleFree)
    (hargs : (Json.ofValues vs).depth ≤ Json.depthLimit)
    (hkwargs : (Json.ofEntries ms).depth ≤ Json.depthLimit) :
    t.Ready (Json.ofValues vs).compact (Json.ofEntries ms).compact vs ms where
  args := by
    rw [ht.args, Shape.parse_values hvs hargs]
    rfl
  kwargs := by
    rw [ht.kwargs, Shape.parse_entries hms hentries hkwargs]
    rfl

/-- What is said about arguments that are nested too deeply. -/
def tooDeep (p : Position) : String :=
  (CodecError.decode ⟨.malformed .nestedTooDeeply, some p⟩).message

/-- If either is nested too deeply, decoding fails and nothing is built. -/
theorem TakesAny.ends_tooDeep (ht : TakesAny t) (hms : Members.Increasing ms)
    (hvs : (Json.ofValues vs).DoubleFree) (hentries : (Json.ofEntries ms).DoubleFree)
    (hdeep : Json.depthLimit < (Json.ofValues vs).depth ∨
      Json.depthLimit < (Json.ofEntries ms).depth) :
    ∃ entered p, .build ∉ entered ∧
      t.Ends (Json.ofValues vs).compact (Json.ofEntries ms).compact entered
        (.failure "serde_json::error::Error" (tooDeep p) [tooDeep p]) := by
  by_cases hargs : (Json.ofValues vs).depth ≤ Json.depthLimit
  · have hkwargs := hdeep.resolve_left (Nat.not_lt_of_le hargs)
    obtain ⟨p, hparse⟩ := Shape.parse_entries_tooDeep hms hentries hkwargs
    have hdecoded : t.decodeArgs (Json.ofValues vs).compact = .ok (.ok vs) := by
      rw [ht.args, Shape.parse_values hvs hargs]
      rfl
    refine ⟨_, p, by decide, .kwargsRefused hdecoded ?_⟩
    rw [ht.kwargs, hparse]
    rfl
  · obtain ⟨p, hparse⟩ := Shape.parse_values_tooDeep hvs (Nat.lt_of_not_le hargs)
    refine ⟨_, p, by decide, .argsRefused ?_⟩
    rw [ht.args, hparse]
    rfl

end

/-! ## Accepted all the same -/

section

open Engine

variable {d : Dispatcher} {o : Options} {s u : State} {before submitting : List Event}
  {task : Submission}

/-- Who submits a task to an engine that has not stopped is given the id under which the table has
the task. -/
theorem answer_of_submission (hthreads : 0 < o.threads)
    (hbefore : (State.new o).run d before = some s)
    (hrun : s.run d (.request (.newTask task) :: submitting) = some u)
    (hend : u.answer? s.asked.size ≠ none ∨ u.Quiescent) :
    (u.running = false ∧ u.answer? s.asked.size = some State.stopped) ∨
      ∃ (id : TaskId) (r : Record), u.answer? s.asked.size = some (.ok id.toJson.compact) ∧
        u.store.records[id]? = some r ∧ r.task.invocation = task.invocation := by
  have hu := run_trans hbefore hrun
  have hasked := run_asked hrun
  have hanswered : u.answer? s.asked.size ≠ none := by
    rcases hend with hanswered | hq
    · exact hanswered
    · exact hq.answered_of_run hu hthreads (Array.getElem?_eq_some_iff.mp hasked).1
  obtain ⟨response, hans⟩ := Option.ne_none_iff_exists'.mp hanswered
  cases right_of_answer hu hasked hans with
  | stopped hstopped => exact .inl ⟨hstopped, hans⟩
  | accepted hrec htask => exact .inr ⟨_, _, hans, hrec, htask⟩

end

/-! ## The whole way -/

section

open Engine Registration

variable {definition : String} {vs : List Value} {ms : List (String × Value)}

/-- What becomes of any list and any map that are submitted to run a task. -/
structure Delivers (definition : String) (vs : List Value) (ms : List (String × Value))
    (task : Submission) : Prop where
  encoded : encodeAny definition vs ms = .ok (task.args, task.kwargs)
  requested : task.definition = definition ∧
    Request.decode (message definition (task.args, task.kwargs)) = .ok (.newTask task)
  /-- The task gets the very list and the very map. -/
  ready : (Json.ofValues vs).depth ≤ 127 → (Json.ofEntries ms).depth ≤ 127 →
    ∀ {σ ε ω : Type} {t : Stages (List Value) (List (String × Value)) σ ε ω}, TakesAny t →
      t.Ready task.args task.kwargs vs ms
  /-- Decoding fails, and nothing is built. -/
  tooDeep : 127 < (Json.ofValues vs).depth ∨ 127 < (Json.ofEntries ms).depth →
    ∀ {σ ε ω : Type} {t : Stages (List Value) (List (String × Value)) σ ε ω}, TakesAny t →
      ∀ told : List Registration, latest? told definition = some ⟨t⟩ →
        .build ∉ Dispatcher.entered (latest? told definition) task.args task.kwargs ∧
        ∃ p, Dispatcher.execute ⟨registry told⟩ definition task.args task.kwargs =
          .failure "serde_json::error::Error" (tooDeep p) [tooDeep p]
  /-- The engine takes the task, and its outcome is that of executing it. -/
  accepted : ∀ {d : Dispatcher} {o : Options} {before submitting : List Event}
    {parts : List (List Event)} {s u : State}, 0 < o.threads →
    (State.new o).run d before = some s →
    s.run d (.request (.newTask task) :: submitting) = some u →
    (u.answer? s.asked.size ≠ none ∨ u.Quiescent) →
    (u.running = false ∧ Client.submitEncoded (Scheduled.connection d) definition
      (.ok (task.args, task.kwargs)) (some ⟨s, submitting :: parts⟩) =
        (.error Error.stopped.toFailure, some ⟨u, parts⟩)) ∨
    ∃ id, Client.submitEncoded (Scheduled.connection d) definition
        (.ok (task.args, task.kwargs)) (some ⟨s, submitting :: parts⟩) =
          (.ok id, some ⟨u, parts⟩) ∧
      ∀ {later : List Event} {v : State}, u.run d later = some v →
        ∃ r : Record, v.store.records[id]? = some r ∧
          r.task.invocation = (definition, task.args, task.kwargs) ∧
          ∀ result, r.result = some result →
            Explained d (before ++ .request (.newTask task) :: submitting ++ later) id
              (definition, task.args, task.kwargs) result

/-- What was sent arrives, or is nested too deeply for any task to be built. -/
theorem delivers (definition : String) (hms : Members.Increasing ms)
    (hvs : (Json.ofValues vs).DoubleFree) (hentries : (Json.ofEntries ms).DoubleFree) :
    Delivers definition vs ms
      (.ofTask definition (Json.ofValues vs).compact (Json.ofEntries ms).compact) where
  encoded := encodeAny_eq definition vs hms
  requested := ⟨rfl, Request.decode_encode _⟩
  ready hargs hkwargs _ _ _ _ ht := ht.ready hms hvs hentries hargs hkwargs
  tooDeep hdeep _ _ _ t ht told htold := by
    obtain ⟨entered, p, hbuild, hends⟩ := ht.ends_tooDeep hms hvs hentries hdeep
    obtain ⟨hentered, houtcome⟩ := hends.watched_eq
    rw [Dispatcher.execute_of_known htold, htold]
    exact ⟨fun hmem => hbuild (hentered ▸ hmem), p, houtcome.symm⟩
  accepted := by
    intro d o before submitting parts s u hthreads hbefore hrun hend
    -- the client reads what the engine answers to its submission
    have hsubmit : ∀ {response : Response}, u.answer? s.asked.size = some response →
        Client.submitEncoded (Scheduled.connection d) definition
          (.ok ((Json.ofValues vs).compact, (Json.ofEntries ms).compact))
          (some ⟨s, submitting :: parts⟩) =
            (Client.readResponse TaskId.parse response, some ⟨u, parts⟩) := fun hans =>
      Scheduled.send_eq (l := ⟨s, submitting :: parts⟩) rfl hrun hans
    rcases answer_of_submission hthreads hbefore hrun hend with
      ⟨hstopped, hans⟩ | ⟨id, r, hans, hrec, htask⟩
    · exact .inl ⟨hstopped, hsubmit hans⟩
    · have hsent := hsubmit hans
      rw [Client.readResponse, TaskId.parse_compact] at hsent
      refine .inr ⟨id, hsent, fun hlater => ?_⟩
      obtain ⟨r', hrec', hsame⟩ := run_record hlater hrec
      refine ⟨r', hrec', hsame.trans htask, fun result hresult => ?_⟩
      -- the outcome belongs to the texts that were sent, as the record of the task keeps them
      have hwhy := explained_of_run (run_trans (run_trans hbefore hrun) hlater) hrec' hresult
      rw [hsame, htask] at hwhy
      exact hwhy

end

/-- The arguments of a call are two texts or the first complaint, as `Judged` says. One by one and
on a pipe, whatever answers, a request with the two texts is sent if there are any, and otherwise
the complaint is what comes of the call and nothing is sent for it. What is sent for any list and
any map without doubles is decoded to just these by the task, unless one of them is nested more than
127 deep; then the task is accepted all the same, and fails without being built. -/
theorem delivered :
    (∀ {definition : String} {args kwargs : Except CodecError Value} {r},
      Judged definition args kwargs r ↔ r = encode definition args kwargs) ∧
    (∀ (t : TaskType) (args : t.args.Carrier) (kwargs : t.kwargs.Carrier) (r),
      r = encode t.definition ((t.args.toValue args).mapError .encode)
        ((t.kwargs.toValue kwargs).mapError .encode) →
      Call.ofTask t args kwargs = ⟨t.definition, r⟩ ∧
      ∀ {σ : Type} (connection : Connection σ) (s : σ),
        Client.submit connection t args kwargs s =
          Client.submitEncoded connection t.definition r s) ∧
    (∀ {σ : Type} (connection : Connection σ) (s : σ) (definition : String)
      (args kwargs : Except CodecError Value), Submits connection s definition args kwargs) ∧
    (∀ {σ : Type} {wire : Wire σ} {registry : Registry} {limits : Pool.Limits}
      {opened : Pool.State} {calls : List Call} {s : σ} {p : Pipe.Pooled (σ × Traffic)}
      {es : List Pipe.Pooled.Event} {place : Nat} {definition : String}
      {args kwargs : Except CodecError Value}, Pool.Opening limits 0 opened →
      (Pipe.Pooled.new opened calls (s, .empty)).run wire.logged registry es = some p →
      calls[place]? = some ⟨definition, encode definition args kwargs⟩ →
      Travels wire registry calls es p place definition args kwargs) ∧
    ∀ (definition : String) {vs : List Value} {ms : List (String × Value)},
      Members.Increasing ms → (Json.ofValues vs).DoubleFree → (Json.ofEntries ms).DoubleFree →
      ∃ task, Delivers definition vs ms task := by
  refine ⟨judged_iff, ?_, submits, travels_of_run, ?_⟩
  · rintro t args kwargs r rfl
    exact ⟨rfl, fun _ _ => rfl⟩
  · intro definition vs ms hms hvs hentries
    exact ⟨_, delivers definition hms hvs hentries⟩

/-- A task that keeps the list that it is given. -/
def keeper : Stages (List Value) (List (String × Value)) Unit Unit (List Value) where
  decodeArgs text := .ok (((Shape.list .value).parse text).mapError .decode)
  decodeKwargs text := .ok (((Shape.dict .value).parse text).mapError .decode)
  build := .ok ()
  call _ args _ := .ok (.ok args)
  errorKind := "app::Never"
  fault _ := .root (.ok "")
  encode vs := .ok (.ok ⟨.ofValues vs, Json.sorted_ofValues vs⟩)

def keeping : List Registration := [.task "Keep" ⟨keeper⟩]

/-- A list that is nested that deeply. -/
def nestedList (n : Nat) : List Value := [⟨Engine.nested n, Engine.nested_sorted n⟩]

/-- The first call is sent and the third is not. A list that is nested 127 deep gets through, and
one that is nested 128 deep gets as far as the engine. -/
theorem delivered_nested :
    (∃ p, (Pipe.Pooled.new (.new ⟨1, 1, 1, 0⟩) Pipe.trio ((), .empty)).run
      Pipe.fragile.wire.logged .empty Pipe.detour = some p ∧
      sentAt p 0 = some (message "Add" ("[]", "\x7b\x7d")) ∧ sentAt p 2 = none) ∧
    (∃ args kwargs, keeper.Ready args kwargs (nestedList 126) []) ∧
    ∃ texts id l p, encodeAny "Keep" (nestedList 127) [] = .ok texts ∧
      Client.submitEncoded (Engine.Scheduled.connection ⟨Registration.registry keeping⟩) "Keep"
        (encodeAny "Keep" (nestedList 127) []) (some ⟨Engine.State.new .default, Engine.listOnce⟩) =
          (.ok id, some l) ∧
      Dispatcher.execute ⟨Registration.registry keeping⟩ "Keep" texts.1 texts.2 =
        .failure "serde_json::error::Error" (tooDeep p) [tooDeep p] := by
  obtain ⟨hjudged, -, -, hpipe, hdelivers⟩ := delivered
  have hdepth : ∀ n, (Json.ofValues (nestedList n)).depth = n + 1 := fun n => by
    show max (Engine.nested n).depth 0 + 1 = n + 1
    rw [Engine.nested_depth, Nat.max_zero]
  have hfree : ∀ n, (Json.ofValues (nestedList n)).DoubleFree := fun n =>
    ⟨Engine.nested_doubleFree n, trivial⟩
  have hempty : Members.Increasing ([] : List (String × Value)) := List.Pairwise.nil
  have hkeeper : TakesAny keeper := ⟨fun _ => rfl, fun _ => rfl⟩
  refine ⟨?_, ?_, ?_⟩
  · obtain ⟨p, hrun, -, hfinished, -⟩ := Pipe.exists_run_detour
    have hwritten : encode "Add" (.ok ⟨.ofValues [], Json.sorted_ofValues []⟩)
        (.ok ⟨.ofEntries [], Json.sorted_ofEntries hempty⟩) = .ok ("[]", "\x7b\x7d") := rfl
    have hrefused : encode "Add" (.ok .null) (.ok .null) = .error (notList "Add") := rfl
    have hfirst : Pipe.trio[0]? = some ⟨"Add", encode "Add"
        (.ok ⟨.ofValues [], Json.sorted_ofValues []⟩)
        (.ok ⟨.ofEntries [], Json.sorted_ofEntries hempty⟩)⟩ := rfl
    have hthird : Pipe.trio[2]? = some ⟨"Add", encode "Add" (.ok .null) (.ok .null)⟩ := rfl
    obtain ⟨-, hsent, -⟩ := (hpipe .new hrun hfirst).sent _ (hjudged.mpr hwritten.symm)
    obtain ⟨hnothing, -⟩ := (hpipe .new hrun hthird).refused _ (hjudged.mpr hrefused.symm)
    exact ⟨p, hrun, hsent (by rw [hfinished]; decide), hnothing⟩
  · obtain ⟨task, htask⟩ := hdelivers "Keep" hempty (hfree 126) trivial
    exact ⟨_, _, htask.ready (Nat.le_of_eq (hdepth 126)) (by decide) hkeeper⟩
  · obtain ⟨task, htask⟩ := hdelivers "Keep" hempty (hfree 127) trivial
    obtain ⟨-, p, hfails⟩ :=
      htask.tooDeep (.inl (Nat.lt_of_lt_of_eq (by decide) (hdepth 127).symm)) hkeeper keeping rfl
    obtain ⟨l, -, -, -, -, hnew, -⟩ := Engine.exists_listOnce ⟨Registration.registry keeping⟩
      "Keep" task.args task.kwargs
    rw [htask.encoded]
    exact ⟨_, _, l, p, rfl, hnew, hfails⟩

end Arguments

end TaskRelay
