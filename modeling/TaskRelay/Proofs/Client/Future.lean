import TaskRelay.Client.Calls
import TaskRelay.Proofs.Registry

/-!
# A future settles once

A future asks for the outcome until it hears one, and from then on it knows it. `Expected` says what
is to be reported of a call, by how many of the calls before it needed the outcome: either none of
them heard it, or one of them was the first to hear it.

> `Future.calls_expected`: whatever the connection answers and whatever is called in which order,
> the report on every call is the expected one, and once the outcome is heard it stays the same.

Between two calls the future stands where the calls so far have brought it (`Standing`), and one
call takes it to where it stands next (`Standing.call`).
-/

namespace TaskRelay.Future

/-! ## What is heard -/

/-- What a client makes of a response: the failure of the connection as it is, a complaint about a
text that is no envelope, or an envelope. -/
inductive Heard : Except Failure String → Except Failure Envelope → Prop
  | failed (failure : Failure) : Heard (.error failure) (.error failure)
  | undecodable {text : String} {e : DecodeError} (h : Envelope.parse text = .error e) :
      Heard (.ok text) (.error (.protocol ("undecodable response: " ++ e.message)))
  | envelope {text : String} {e : Envelope} (h : Envelope.parse text = .ok e) :
      Heard (.ok text) (.ok e)

/-- No envelope is heard. -/
def Silent (response : Except Failure String) : Prop := ∀ e, ¬ Heard response (.ok e)

/-- Of many answers, this one is the first in which an envelope is heard. -/
structure FirstHeard (answers : Nat → Except Failure String) (k : Nat) (e : Envelope) : Prop where
  silent : ∀ m < k, Silent (answers m)
  heard : Heard (answers k) (.ok e)

/-- A client hears in a response what it reads there. -/
theorem heard_readResponse (response : Except Failure String) :
    Heard response (Client.readResponse Envelope.parse response) := by
  cases response with
  | error failure => exact .failed failure
  | ok text =>
    simp only [Client.readResponse]
    cases h : Envelope.parse text with
    | error e => exact .undecodable h
    | ok e => exact .envelope h

/-- And nothing else. -/
theorem Heard.eq_readResponse {response : Except Failure String} {outcome : Except Failure Envelope}
    (h : Heard response outcome) : outcome = Client.readResponse Envelope.parse response := by
  cases h with
  | failed => rfl
  | undecodable h | envelope h =>
    simp only [Client.readResponse, h]
    rfl

/-- One hears an envelope or a failure, and not both. -/
theorem silent_of_heard {response : Except Failure String} {failure : Failure}
    (h : Heard response (.error failure)) : Silent response := by
  intro e he
  have heq := h.eq_readResponse.trans he.eq_readResponse.symm
  cases heq

/-- There is only one first answer. -/
theorem FirstHeard.unique {answers : Nat → Except Failure String} {k l : Nat} {e d : Envelope}
    (hk : FirstHeard answers k e) (hl : FirstHeard answers l d) : k = l ∧ e = d := by
  have heq : k = l := by
    refine Nat.le_antisymm (Nat.not_lt.mp fun hlt => ?_) (Nat.not_lt.mp fun hlt => ?_)
    · exact hk.silent l hlt d hl.heard
    · exact hl.silent k hlt e hk.heard
  subst heq
  exact ⟨rfl, Except.ok.inj (hk.heard.eq_readResponse.trans hl.heard.eq_readResponse.symm)⟩

/-! ## What is made of it -/

section

variable {registry : Registry} {shape : Shape}

/-- What an envelope comes to for somebody who waits for an output of a shape: the output, a
complaint about an output of another shape, or the failure that the registry takes the envelope
for. -/
inductive Opened (registry : Registry) (shape : Shape) :
    Envelope → Except Failure shape.Carrier → Prop
  | decoded {result : Value} {x : shape.Carrier} (h : shape.ofJson .value result.tree = .ok x) :
      Opened registry shape (.success result) (.ok x)
  | undecodable {result : Value} {cause : Cause}
      (h : shape.ofJson .value result.tree = .error cause) :
      Opened registry shape (.success result) (.error (.codec (.decode ⟨cause, none⟩)))
  | rebuilt {kind message : String} {trace : List String} {f : Failure}
      (h : registry.Rebuilt kind message trace f) :
      Opened registry shape (.failure kind message trace) (.error f)

/-- What a call returns when this is what it makes of the outcome. -/
inductive Returns (registry : Registry) (shape : Shape) :
    Except Failure Envelope → Call → Reply shape.Carrier → Prop
  | result (outcome : Except Failure Envelope) :
      Returns registry shape outcome .result (.result outcome)
  | notHeard (failure : Failure) :
      Returns registry shape (.error failure) .wait (.wait (.error failure))
  | opened {e : Envelope} {x : Except Failure shape.Carrier} (h : Opened registry shape e x) :
      Returns registry shape (.ok e) .wait (.wait x)
  | isResolved (e : Envelope) : Returns registry shape (.ok e) .isResolved (.isResolved true)

/-- What `output` makes of an envelope is what the envelope comes to. -/
theorem opened_output (registry : Registry) (shape : Shape) (e : Envelope) :
    Opened registry shape e (output registry shape e) := by
  cases e with
  | failure kind message trace => exact .rebuilt (registry.rebuilt_reconstruct kind message trace)
  | success result =>
    rw [output]
    cases h : shape.ofJson .value result.tree with
    | ok x => exact .decoded h
    | error cause => exact .undecodable h

/-- An envelope comes to one thing only. -/
theorem Opened.eq_output {e : Envelope} {x : Except Failure shape.Carrier}
    (h : Opened registry shape e x) : x = output registry shape e := by
  cases h with
  | decoded h | undecodable h =>
    rw [output, h]
    rfl
  | rebuilt h => exact congrArg Except.error h.eq_reconstruct

theorem Returns.unique {outcome : Except Failure Envelope} {c : Call}
    {reply other : Reply shape.Carrier} (h : Returns registry shape outcome c reply)
    (hother : Returns registry shape outcome c other) : reply = other := by
  cases h with
  | result | notHeard | isResolved =>
    cases hother
    rfl
  | opened hx =>
    cases hother with
    | opened hy => rw [hx.eq_output, hy.eq_output]

end

/-! ## What is to be reported -/

section

variable {σ : Type} (connection : Connection σ) (registry : Registry) (shape : Shape)
  (id : TaskId) (s : σ)

/-- The one message that is ever sent. -/
def question : String := (Request.awaitTask id).encode

/-- What is heard when the question is put once more. -/
def answers (n : Nat) : Except Failure String := connection.answer (question id) s n

/-- What is to be reported of a call after `n` calls that needed the outcome. -/
inductive Expected (n : Nat) : Call → Report shape.Carrier → Prop
  /-- Nothing was heard so far. -/
  | unresolved (h : ∀ m < n, Silent (answers connection id s m)) :
      Expected n .isResolved ⟨.isResolved false, []⟩
  /-- Nothing was heard so far, so the question is put, and what is heard is returned. -/
  | asked {c : Call} {outcome : Except Failure Envelope} {reply : Reply shape.Carrier}
      (hc : c.needsOutcome = true) (h : ∀ m < n, Silent (answers connection id s m))
      (hheard : Heard (answers connection id s n) outcome)
      (hreply : Returns registry shape outcome c reply) :
      Expected n c ⟨reply, [question id]⟩
  /-- The outcome was heard before, and nothing is sent for it again. -/
  | known {c : Call} {k : Nat} {e : Envelope} {reply : Reply shape.Carrier} (hk : k < n)
      (h : FirstHeard (answers connection id s) k e)
      (hreply : Returns registry shape (.ok e) c reply) :
      Expected n c ⟨reply, []⟩

/-- Where a future stands after `n` calls that needed the outcome. -/
inductive Standing (n : Nat) : Future → σ → Prop
  | unresolved (h : ∀ m < n, Silent (answers connection id s m)) :
      Standing n (ofTask id) (connection.after (question id) s n)
  | known {k : Nat} {e : Envelope} (hk : k < n) (h : FirstHeard (answers connection id s) k e) :
      Standing n ⟨id, some e⟩ (connection.after (question id) s (k + 1))

end

section

variable {σ : Type} {connection : Connection σ} {registry : Registry} {shape : Shape} {id : TaskId}
  {s t : σ} {n : Nat} {f : Future}

/-- An unresolved future puts the question. -/
theorem call_of_unresolved (registry : Registry) (shape : Shape) {c : Call}
    (hc : c.needsOutcome = true) {e : Except Failure Envelope}
    (he : e = Client.readResponse Envelope.parse (answers connection id s n)) :
    ∃ reply, Returns registry shape e c reply ∧
      (ofTask id).call connection.recorded registry shape
          (connection.after (question id) s n, []) c =
        (reply, ⟨id, e.toOption⟩, connection.after (question id) s (n + 1), [question id]) := by
  have hresult : (ofTask id).result connection.recorded (connection.after (question id) s n, []) =
      (e, ⟨id, e.toOption⟩, connection.after (question id) s (n + 1), [question id]) := by
    subst he
    simp only [result, ofTask, Client.awaitTask, Client.send, Connection.recorded,
      List.nil_append, Connection.after, answers, Connection.answer, question]
    cases Client.readResponse Envelope.parse
      (connection (Request.awaitTask id).encode
        (connection.after (Request.awaitTask id).encode s n)).1 <;> rfl
  -- only `wait` looks into what was heard
  cases c with
  | isResolved => cases hc
  | result =>
    refine ⟨_, .result e, ?_⟩
    rw [call, hresult]
  | wait =>
    rw [call, wait, hresult]
    cases e with
    | error failure => exact ⟨_, .notHeard failure, rfl⟩
    | ok e => exact ⟨_, .opened (opened_output registry shape e), rfl⟩

/-- A future that knows the outcome asks nobody. -/
theorem call_of_known (registry : Registry) (shape : Shape) (e : Envelope) (c : Call)
    (world : σ × List String) :
    ∃ reply, Returns registry shape (.ok e) c reply ∧
      (Future.mk id (some e)).call connection.recorded registry shape world c =
        (reply, ⟨id, some e⟩, world) := by
  cases c with
  | result => exact ⟨_, .result _, rfl⟩
  | wait => exact ⟨_, .opened (opened_output registry shape e), rfl⟩
  | isResolved => exact ⟨_, .isResolved e, rfl⟩

theorem silent_succ (h : ∀ m < n, Silent (answers connection id s m))
    (hn : Silent (answers connection id s n)) :
    ∀ m < n + 1, Silent (answers connection id s m) := by
  intro m hm
  rcases Nat.lt_succ_iff_lt_or_eq.mp hm with hm | rfl
  · exact h m hm
  · exact hn

/-- One call, by where the future stands: it is reported as expected, and takes the future on. -/
theorem Standing.call (registry : Registry) (shape : Shape) (c : Call)
    (h : Standing connection id s n f t) :
    ∃ reply sent g u, f.call connection.recorded registry shape (t, []) c = (reply, g, u, sent) ∧
      Expected connection registry shape id s n c ⟨reply, sent⟩ ∧
      Standing connection id s (n + if c.needsOutcome then 1 else 0) g u := by
  cases h with
  | known hk hfirst =>
    obtain ⟨reply, hreply, hcall⟩ := call_of_known registry shape _ c _
    refine ⟨_, _, _, _, hcall, .known hk hfirst hreply, ?_⟩
    exact .known (Nat.lt_of_lt_of_le hk (Nat.le_add_right ..)) hfirst
  | unresolved hsilent =>
    cases hc : c.needsOutcome with
    | false =>
      -- the one call that asks for nothing
      cases c with
      | result | wait => cases hc
      | isResolved => exact ⟨_, _, _, _, rfl, .unresolved hsilent, .unresolved hsilent⟩
    | true =>
      have hheard := heard_readResponse (answers connection id s n)
      generalize hread : Client.readResponse Envelope.parse (answers connection id s n) = outcome
        at hheard
      obtain ⟨reply, hreply, hcall⟩ := call_of_unresolved registry shape hc hread.symm
      refine ⟨_, _, _, _, hcall, .asked hc hsilent hheard hreply, ?_⟩
      -- a failure leaves the future as it was, an envelope stays with it
      cases outcome with
      | error failure => exact .unresolved (silent_succ hsilent (silent_of_heard hheard))
      | ok e => exact .known (Nat.lt_succ_self n) ⟨hsilent, hheard⟩

/-- So are all calls, by induction on those that come first. -/
theorem Standing.calls (registry : Registry) (shape : Shape) (before after : List Call) (c : Call)
    (h : Standing connection id s n f t) :
    ∃ report, (Future.calls connection registry shape f t (before ++ c :: after))[before.length]? =
        some report ∧
      Expected connection registry shape id s (n + before.countP Call.needsOutcome) c report := by
  induction before generalizing n f t with
  | nil =>
    obtain ⟨reply, sent, g, u, hcall, hexpected, -⟩ := h.call registry shape c
    refine ⟨⟨reply, sent⟩, ?_, hexpected⟩
    rw [List.nil_append, Future.calls, hcall]
    rfl
  | cons b before ih =>
    obtain ⟨reply, sent, g, u, hcall, -, hnext⟩ := h.call registry shape b
    obtain ⟨report, hreport, hexpected⟩ := ih hnext
    refine ⟨report, ?_, ?_⟩
    · rw [List.cons_append, Future.calls, hcall]
      exact hreport
    · rw [List.countP_cons, Nat.add_comm (before.countP _), ← Nat.add_assoc]
      exact hexpected

/-- Once the outcome is heard, a call returns the same whenever it is made, and sends nothing. -/
theorem Expected.eq_of_firstHeard {k m : Nat} {e : Envelope} {c : Call}
    {report other : Report shape.Carrier} (hfirst : FirstHeard (answers connection id s) k e)
    (hm : k < m) (hn : k < n) (h : Expected connection registry shape id s m c report)
    (hother : Expected connection registry shape id s n c other) :
    report = other ∧ report.sent = [] := by
  cases h with
  | unresolved hsilent | asked _ hsilent => exact absurd hfirst.heard (hsilent k hm e)
  | known _ hk hreply =>
    cases hother with
    | unresolved hsilent | asked _ hsilent => exact absurd hfirst.heard (hsilent k hn e)
    | known _ hl hother =>
      obtain ⟨-, rfl⟩ := hk.unique hl
      exact ⟨congrArg (Report.mk · []) (hreply.unique hother), rfl⟩

/-- Only one report is the expected one. -/
theorem Expected.unique {c : Call} {report other : Report shape.Carrier}
    (h : Expected connection registry shape id s n c report)
    (hother : Expected connection registry shape id s n c other) : report = other := by
  cases h with
  | known hk hfirst hreply =>
    exact (eq_of_firstHeard hfirst hk hk (.known hk hfirst hreply) hother).1
  | unresolved hsilent =>
    cases hother with
    | unresolved => rfl
    | asked hc => cases hc
    | known hk hfirst => exact absurd hfirst.heard (hsilent _ hk _)
  | asked hc hsilent hheard hreply =>
    cases hother with
    | unresolved => cases hc
    | known hk hfirst => exact absurd hfirst.heard (hsilent _ hk _)
    | asked _ _ hagain hother =>
      obtain rfl := hheard.eq_readResponse.trans hagain.eq_readResponse.symm
      exact congrArg (Report.mk · _) (hreply.unique hother)

/-- Calls on a future of which nothing is known yet are reported as expected. -/
structure SettlesOnce (connection : Connection σ) (registry : Registry) (shape : Shape)
    (id : TaskId) (s : σ) : Prop where
  /-- Each call has the one report that is expected of it. -/
  reports : ∀ before c after, ∃ report,
    (calls connection registry shape (ofTask id) s (before ++ c :: after))[before.length]? =
      some report ∧
    ∀ other, Expected connection registry shape id s (before.countP Call.needsOutcome) c other ↔
      other = report
  /-- Once the outcome is heard, a call returns the same whenever it is made, and sends nothing. -/
  steady : ∀ k e, FirstHeard (answers connection id s) k e → ∀ m n, k < m → k < n →
    ∀ c report other, Expected connection registry shape id s m c report →
      Expected connection registry shape id s n c other → report = other ∧ report.sent = []

/-- Whatever the connection answers, each call on a new future is reported as expected. Until an
envelope is heard every call that needs the outcome asks for it and returns what it hears; the call
that hears an envelope returns it, and from then on the same envelope and the same output are
returned and nothing is sent. -/
theorem calls_expected (connection : Connection σ) (registry : Registry) (shape : Shape)
    (id : TaskId) (s : σ) : SettlesOnce connection registry shape id s where
  reports before c after := by
    have hnew : Standing connection id s 0 (ofTask id) s := by
      refine .unresolved ?_
      intro m hm
      exact absurd hm (Nat.not_lt_zero m)
    obtain ⟨report, hreport, hexpected⟩ := hnew.calls registry shape before after c
    rw [Nat.zero_add] at hexpected
    refine ⟨report, hreport, fun other => ⟨fun hother => hother.unique hexpected, ?_⟩⟩
    rintro rfl
    exact hexpected
  steady _ _ hfirst _ _ hm hn _ _ _ h hother := h.eq_of_firstHeard hfirst hm hn hother

end

end TaskRelay.Future
