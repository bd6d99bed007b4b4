import TaskRelay.Dispatcher
import TaskRelay.Proofs.Members

/-!
# Contexts

A context names a task and holds the texts of its arguments. Its fields are checked in a fixed
order, and the first one that is wrong decides what is answered (`FirstWrong`); then no task is run,
whatever running one means (`dispatchIn_of_firstWrong`).

> `answered_iff`: a context with all three fields is executed, any other is answered by its first
> wrong field.

A text may name a field more than once, and may hold other members. Of the text the context keeps
the last value under each name:

> `Members.get?_sort`: the last member of a name is the one that counts.

> `entrances_agree`: what the text of a context, the context and its fields have to do with one
> another.
-/

namespace TaskRelay

open Members (valuesOf)

/-! ## The members of a context -/

theorem Json.valuesOf_canonicalMembers (key : String) (ms : List (String × Json)) :
    valuesOf key (canonicalMembers ms) = (valuesOf key ms).map canonical := by
  induction ms with
  | nil => rfl
  | cons m ms ih =>
    obtain ⟨k, j⟩ := m
    rw [canonicalMembers]
    by_cases hk : k = key
    · subst hk
      rw [Members.valuesOf_cons_self, Members.valuesOf_cons_self, ih, List.map_cons]
    · rw [Members.valuesOf_cons_of_ne hk, Members.valuesOf_cons_of_ne hk, ih]

namespace Value

variable {v : Value} {key : String} {j k : Json}

/-- The value is an object with this member. -/
def Holds (v : Value) (key : String) (j : Json) : Prop :=
  ∃ ms, v.tree = .object ms ∧ (key, j) ∈ ms

/-- What is found under a name is what the context holds there. -/
theorem get?_eq_some_iff : v.get? key = some j ↔ v.Holds key j := by
  obtain ⟨tree, sorted⟩ := v
  unfold get? Holds
  cases tree with
  | object ms =>
    refine (Members.get?_eq_some_iff sorted.1).trans ⟨fun hmem => ⟨ms, rfl, hmem⟩, ?_⟩
    rintro ⟨ns, hns, hmem⟩
    cases hns
    exact hmem
  | null | bool _ | number _ | string _ | array _ =>
    exact ⟨fun h => (nomatch h), fun ⟨_, h, _⟩ => (nomatch h)⟩

theorem get?_eq_none (h : ∀ j, ¬ v.Holds key j) : v.get? key = none := by
  cases hj : v.get? key with
  | none => rfl
  | some j => exact absurd (get?_eq_some_iff.mp hj) (h j)

/-- Of the members of a text the value keeps the last one of each name. -/
theorem get?_ofJson_object (ms : List (String × Json)) :
    (Value.ofJson (.object ms)).get? key = (valuesOf key ms).getLast?.map Json.canonical := by
  show Members.get? key (Members.sort (Json.canonicalMembers ms)) = _
  rw [Members.get?_sort, Json.valuesOf_canonicalMembers, List.getLast?_map]

end Value

namespace Dispatcher

/-! ## Fields -/

/-- What is wrong with a field of a context. -/
inductive Wrong (v : Value) (field : String) : String → Prop
  | absent (h : ∀ j, ¬ v.Holds field j) : Wrong v field ("Missing task " ++ field)
  | null (h : v.Holds field .null) : Wrong v field ("Missing task " ++ field)
  | notText {j : Json} (h : v.Holds field j) (hnull : j ≠ .null) (htext : ∀ s, j ≠ .string s) :
      Wrong v field ("Task " ++ field ++ " must be a string")

/-- What is wrong with the first of some fields that is wrong. -/
inductive FirstWrong (v : Value) : List String → String → Prop
  | here {field message : String} {rest : List String} (h : Wrong v field message) :
      FirstWrong v (field :: rest) message
  | later {field s message : String} {rest : List String} (h : v.Holds field (.string s))
      (hrest : FirstWrong v rest message) : FirstWrong v (field :: rest) message

/-- The fields of a context, in the order in which they are checked. -/
def fields : List String := ["definition", "args", "kwargs"]

variable {v : Value} {field message definition args kwargs : String}

/-- A field that holds a text is read. -/
theorem requiredText_of_holds {s : String} (h : v.Holds field (.string s)) :
    requiredText v field = .ok s := by
  unfold requiredText
  rw [Value.get?_eq_some_iff.mpr h]

/-- A field that is wrong is refused for what is wrong with it. -/
theorem requiredText_of_wrong (h : Wrong v field message) :
    requiredText v field = .error (.validation message) := by
  unfold requiredText
  cases h with
  | absent h => rw [Value.get?_eq_none h]
  | null h => rw [Value.get?_eq_some_iff.mpr h]
  | @notText j h hnull htext =>
    rw [Value.get?_eq_some_iff.mpr h]
    cases j with
    | null => exact absurd rfl hnull
    | string s => exact absurd rfl (htext s)
    | bool _ | number _ | array _ | object _ => rfl

/-- A field is a text, or something is wrong with it. -/
theorem holds_or_wrong (v : Value) (field : String) :
    (∃ s, v.Holds field (.string s)) ∨ ∃ message, Wrong v field message := by
  by_cases h : ∃ j, v.Holds field j
  · obtain ⟨j, hj⟩ := h
    cases j with
    | string s => exact .inl ⟨s, hj⟩
    | null => exact .inr ⟨_, .null hj⟩
    | bool _ | number _ | array _ | object _ => exact .inr ⟨_, .notText hj nofun nofun⟩
  · exact .inr ⟨_, .absent fun j hj => h ⟨j, hj⟩⟩

/-- A context with all three fields is valid. -/
theorem validate_of_holds (hdefinition : v.Holds "definition" (.string definition))
    (hargs : v.Holds "args" (.string args)) (hkwargs : v.Holds "kwargs" (.string kwargs)) :
    validate v = .ok (definition, args, kwargs) := by
  unfold validate
  rw [requiredText_of_holds hdefinition, requiredText_of_holds hargs,
    requiredText_of_holds hkwargs]
  rfl

/-- Any other one is refused for its first wrong field. -/
theorem validate_of_firstWrong (h : FirstWrong v fields message) :
    validate v = .error (.validation message) := by
  unfold validate
  cases h with
  | here hdefinition =>
    rw [requiredText_of_wrong hdefinition]
    rfl
  | later hdefinition h =>
  rw [requiredText_of_holds hdefinition]
  cases h with
  | here hargs =>
    rw [requiredText_of_wrong hargs]
    rfl
  | later hargs h =>
  rw [requiredText_of_holds hargs]
  cases h with
  | here hkwargs =>
    rw [requiredText_of_wrong hkwargs]
    rfl
  | later _ h => cases h

/-! ## What is answered -/

/-- The answer to a context: that of its task, or what is wrong with its first wrong field. -/
inductive Answered (d : Dispatcher) (v : Value) : Envelope → Prop
  | executed {definition args kwargs : String}
      (hdefinition : v.Holds "definition" (.string definition))
      (hargs : v.Holds "args" (.string args)) (hkwargs : v.Holds "kwargs" (.string kwargs)) :
      Answered d v (d.execute definition args kwargs)
  | refused {message : String} (h : FirstWrong v fields message) :
      Answered d v (.failure "tasklane::ValidationError" message [])

/-- Every context is answered. -/
theorem exists_answered (d : Dispatcher) (v : Value) : ∃ e, Answered d v e := by
  obtain ⟨definition, hdefinition⟩ | ⟨message, hwrong⟩ := holds_or_wrong v "definition"
  · obtain ⟨args, hargs⟩ | ⟨message, hwrong⟩ := holds_or_wrong v "args"
    · obtain ⟨kwargs, hkwargs⟩ | ⟨message, hwrong⟩ := holds_or_wrong v "kwargs"
      · exact ⟨_, .executed hdefinition hargs hkwargs⟩
      · exact ⟨_, .refused (.later hdefinition (.later hargs (.here hwrong)))⟩
    · exact ⟨_, .refused (.later hdefinition (.here hwrong))⟩
  · exact ⟨_, .refused (.here hwrong)⟩

section

variable {m : Type → Type} [Monad m] (run : String → String → String → m Envelope)

/-- Nothing is run for a context with a wrong field. -/
theorem dispatchIn_of_firstWrong (h : FirstWrong v fields message) :
    dispatchIn run v = pure (.failure "tasklane::ValidationError" message []) := by
  unfold dispatchIn
  rw [validate_of_firstWrong h]
  rfl

/-- A text that is no value is answered before anything is run. -/
theorem dispatchJsonIn_of_error {t : String} {e : DecodeError} (h : Value.parse t = .error e) :
    dispatchJsonIn run t = pure (Envelope.failure "tasklane::ValidationError"
      ("Malformed task context: " ++ e.message) []).encode := by
  unfold dispatchJsonIn
  rw [h]
  rfl

/-- Any other text is answered as the context that it holds. -/
theorem dispatchJsonIn_of_ok {t : String} (h : Value.parse t = .ok v) :
    dispatchJsonIn run t = do return (← dispatchIn run v).encode := by
  unfold dispatchJsonIn
  rw [h]

end

theorem answered_iff {d : Dispatcher} {e : Envelope} : Answered d v e ↔ e = d.dispatch v := by
  have hanswer : ∀ {e}, Answered d v e → e = d.dispatch v := by
    intro e h
    unfold dispatch
    cases h with
    | executed hdefinition hargs hkwargs =>
      unfold dispatchIn
      rw [validate_of_holds hdefinition hargs hkwargs]
      rfl
    | refused h =>
      rw [dispatchIn_of_firstWrong _ h]
      rfl
  refine ⟨hanswer, ?_⟩
  rintro rfl
  obtain ⟨e, he⟩ := exists_answered d v
  rw [← hanswer he]
  exact he

theorem dispatchJson_of_ok {d : Dispatcher} {t : String} (h : Value.parse t = .ok v) :
    d.dispatchJson t = (d.dispatch v).encode := by
  unfold dispatchJson
  rw [dispatchJsonIn_of_ok _ h]
  rfl

/-- Two contexts with the same fields have the same answer. -/
theorem dispatch_congr {d : Dispatcher} {w : Value}
    (h : ∀ field ∈ fields, v.get? field = w.get? field) : d.dispatch v = d.dispatch w := by
  have hfield : ∀ field ∈ fields, requiredText v field = requiredText w field := by
    intro field hmem
    unfold requiredText
    rw [h field hmem]
  have hvalid : validate v = validate w := by
    unfold validate
    rw [hfield "definition" (by decide), hfield "args" (by decide), hfield "kwargs" (by decide)]
  unfold dispatch dispatchIn
  rw [hvalid]

/-! ## The three entrances -/

/-- What the three entrances of a dispatcher have to do with each other. -/
structure EntrancesAgree (d : Dispatcher) : Prop where
  /-- The text of a context is answered with the text of the answer to the context. -/
  parsed : ∀ t v, Value.parse t = .ok v → d.dispatchJson t = (d.dispatch v).encode
  /-- Any other text is answered with what is wrong with it. -/
  malformed : ∀ t e, Value.parse t = .error e →
    d.dispatchJson t = (Envelope.failure "tasklane::ValidationError"
      ("Malformed task context: " ++ e.message) []).encode
  /-- A context is answered with the execution of its fields, or with what is wrong with the first
  wrong one. -/
  answered_iff : ∀ v e, Answered d v e ↔ e = d.dispatch v
  /-- What is no object has no definition. -/
  no_object : ∀ v : Value, (∀ ms, v.tree ≠ .object ms) →
    d.dispatch v = .failure "tasklane::ValidationError" "Missing task definition" []
  /-- Nothing is run in the failing cases, whatever running a task means. -/
  nothing_run : ∀ {m : Type → Type} [Monad m] [LawfulMonad m]
    (run : String → String → String → m Envelope),
    (∀ t e, Value.parse t = .error e →
      dispatchJsonIn run t = pure (Envelope.failure "tasklane::ValidationError"
        ("Malformed task context: " ++ e.message) []).encode) ∧
    ∀ v message, FirstWrong v fields message →
      dispatchIn run v = pure (.failure "tasklane::ValidationError" message []) ∧
      ∀ t, Value.parse t = .ok v → dispatchJsonIn run t =
        pure (Envelope.failure "tasklane::ValidationError" message []).encode
  /-- Of a text that is an object only the last members under the three names matter. -/
  last_counts : ∀ t u ms ns, Json.parse t = .ok (.object ms) → Json.parse u = .ok (.object ns) →
    (∀ field ∈ fields, (valuesOf field ms).getLast? = (valuesOf field ns).getLast?) →
    d.dispatchJson t = d.dispatchJson u

/-- The text of an object is the text of a context. -/
theorem parse_of_object {t : String} {ms : List (String × Json)}
    (h : Json.parse t = .ok (.object ms)) :
    Value.parse t = .ok (Value.ofJson (.object ms)) := by
  unfold Value.parse
  rw [h]
  rfl

/-- The text of a context is answered with the text of the answer to the context, or with what is
wrong with the text; and a context with the execution of its fields, if none of them is wrong. -/
theorem entrances_agree (d : Dispatcher) : EntrancesAgree d where
  parsed _ _ h := dispatchJson_of_ok h
  malformed t e h := by
    unfold dispatchJson
    rw [dispatchJsonIn_of_error _ h]
    rfl
  answered_iff _ _ := Dispatcher.answered_iff
  no_object v hobject := by
    have habsent : Wrong v "definition" "Missing task definition" :=
      .absent fun j ⟨ms, hms, _⟩ => hobject ms hms
    exact (Dispatcher.answered_iff.mp (.refused (.here habsent))).symm
  nothing_run run := by
    refine ⟨fun t e h => dispatchJsonIn_of_error run h, fun v message hwrong => ?_⟩
    refine ⟨dispatchIn_of_firstWrong run hwrong, fun t h => ?_⟩
    rw [dispatchJsonIn_of_ok run h, dispatchIn_of_firstWrong run hwrong, pure_bind]
  last_counts t u ms ns ht hu hsame := by
    rw [dispatchJson_of_ok (parse_of_object ht), dispatchJson_of_ok (parse_of_object hu)]
    refine congrArg Envelope.encode (dispatch_congr fun field hfield => ?_)
    rw [Value.get?_ofJson_object, Value.get?_ofJson_object, hsame field hfield]

/-- A dispatcher for one task, which returns the text of its arguments. -/
def repeater : Dispatcher :=
  ⟨Registry.empty.register "Repeat" fun args _ => .ok (.success (.ofString args))⟩

def plain : String :=
  "\x7b\"definition\":\"Repeat\",\"args\":\"[]\",\"kwargs\":\"\x7b\x7d\"\x7d"

def plainMembers : List (String × Json) :=
  [("definition", .string "Repeat"), ("args", .string "[]"), ("kwargs", .string "\x7b\x7d")]

/-- The same context the other way round, with a field that is given twice and a note. -/
def crowded : String :=
  "\x7b\"kwargs\":\"\x7b\x7d\",\"args\":null,\"note\":[],\"args\":\"[]\",\"definition\":\"Repeat\"\x7d"

def crowdedMembers : List (String × Json) :=
  [("kwargs", .string "\x7b\x7d"), ("args", .null), ("note", .array []), ("args", .string "[]"),
    ("definition", .string "Repeat")]

/-- A context in which two fields are wrong. -/
def unfinished : Value :=
  ⟨.object [("args", .null), ("definition", .string "Repeat"), ("kwargs", .bool true)], by
    simp only [Json.Sorted, Json.SortedMembers, and_true]
    exact List.Pairwise.imp_of_mem (fun _ _ h => h) (by decide)⟩

theorem entrances_agree_crowded :
    Json.parse plain = .ok (.object plainMembers) ∧
    Json.parse crowded = .ok (.object crowdedMembers) ∧
    repeater.dispatchJson crowded = repeater.dispatchJson plain ∧
    repeater.dispatchJson "[" = (Envelope.failure "tasklane::ValidationError"
      "Malformed task context: EOF while parsing a list at line 1 column 1" []).encode ∧
    repeater.dispatch unfinished =
      .failure "tasklane::ValidationError" "Missing task args" [] := by
  have hplain : Json.parse plain = .ok (.object plainMembers) := rfl
  have hcrowded : Json.parse crowded = .ok (.object crowdedMembers) := rfl
  have hsame : ∀ field ∈ fields, (valuesOf field crowdedMembers).getLast? =
      (valuesOf field plainMembers).getLast? := by
    intro field hfield
    simp only [fields, List.mem_cons, List.not_mem_nil, or_false] at hfield
    rcases hfield with rfl | rfl | rfl <;> rfl
  have hagree := entrances_agree repeater
  refine ⟨hplain, hcrowded, hagree.last_counts _ _ _ _ hcrowded hplain hsame, ?_, ?_⟩
  · exact hagree.malformed "[" ⟨.malformed .endInList, some ⟨1, 1⟩⟩ rfl
  · have hdefinition : unfinished.Holds "definition" (.string "Repeat") := ⟨_, rfl, by simp⟩
    have hargs : Wrong unfinished "args" "Missing task args" := .null ⟨_, rfl, by simp⟩
    exact ((hagree.answered_iff _ _).mp (.refused (.later hdefinition (.here hargs)))).symm

end Dispatcher

end TaskRelay
