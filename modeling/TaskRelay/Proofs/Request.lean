import TaskRelay.Proofs.Json.Grammar
import TaskRelay.Proofs.Shape.Gathered
import TaskRelay.Request

/-!
# The grammar of requests

An object is a request if its members say so, each of them once: the tag, and the fields of that
tag, all of them texts. Nothing else matters.

> `Request.parse_eq_ok_iff`: of a text that is an object the reader makes the request that the
> members say (`Request.Says`).

> `Request.Says.congr`: the order does not matter, nor do members under other names.

> `Request.decode_object`: both, for every text of the grammar; other objects break the protocol.
-/

namespace TaskRelay

open Members (valuesOf without)

namespace Request

/-! ## Objects that are requests -/

/-- What the members of an object say. Members under other names say nothing. -/
inductive Says (ms : List (String × Json)) : Request → Prop
  | newTask {task : Submission} (htag : valuesOf "type" ms = [.string "new_task"])
      (hqueue : valuesOf "queue" ms = [.string task.queue])
      (hdefinition : valuesOf "definition" ms = [.string task.definition])
      (hargs : valuesOf "args" ms = [.string task.args])
      (hkwargs : valuesOf "kwargs" ms = [.string task.kwargs]) : Says ms (.newTask task)
  | awaitTask {id : TaskId} (htag : valuesOf "type" ms = [.string "await_task"])
      (hid : valuesOf "task_id" ms = [.string id.text]) : Says ms (.awaitTask id)
  | getStoreState (htag : valuesOf "type" ms = [.string "get_store_state"]) :
      Says ms .getStoreState

/-- The names of the members that make a request what it is. -/
def names : Request → List String
  | .newTask _ => ["type", "queue", "definition", "args", "kwargs"]
  | .awaitTask _ => ["type", "task_id"]
  | .getStoreState => ["type"]

variable {ms ns extra : List (String × Json)} {r : Request}

/-- A submission has four texts, each of them once. -/
theorem collect_newTask_iff {queue definition args kwargs : String} :
    newTaskFields.collect .buffered ms = some (queue, definition, args, kwargs, ()) ↔
      valuesOf "queue" ms = [.string queue] ∧ valuesOf "definition" ms = [.string definition] ∧
        valuesOf "args" ms = [.string args] ∧ valuesOf "kwargs" ms = [.string kwargs] := by
  refine (Fields.collect_text_cons_iff rfl).trans (and_congr_right' ?_)
  refine (Fields.collect_text_cons_iff rfl).trans (and_congr_right' ?_)
  refine (Fields.collect_text_cons_iff rfl).trans (and_congr_right' ?_)
  exact (Fields.collect_text_cons_iff rfl).trans (and_iff_left rfl)

theorem collect_awaitTask_iff {id : String} :
    awaitTaskFields.collect .buffered ms = some (id, ()) ↔
      valuesOf "task_id" ms = [.string id] :=
  (Fields.collect_text_cons_iff rfl).trans (and_iff_left rfl)

/-- What is buffered with a tag is the request that the fields of the tag collect. -/
theorem ofBuffered_newTask_iff :
    ofBuffered .newTask (.object ms) = .ok r ↔
      ∃ task : Submission, r = .newTask task ∧ newTaskFields.collect .buffered ms =
        some (task.queue, task.definition, task.args, task.kwargs, ()) := by
  refine Shape.map_ofJson_record_eq_ok_iff.trans ?_
  constructor
  · rintro ⟨⟨queue, definition, args, kwargs, ⟨⟩⟩, hcollect, rfl⟩
    exact ⟨⟨queue, definition, args, kwargs⟩, rfl, hcollect⟩
  · rintro ⟨task, rfl, hcollect⟩
    exact ⟨_, hcollect, rfl⟩

/-- A question for an outcome names the task. -/
theorem ofBuffered_awaitTask_iff :
    ofBuffered .awaitTask (.object ms) = .ok r ↔
      ∃ id : TaskId, r = .awaitTask id ∧
        awaitTaskFields.collect .buffered ms = some (id.text, ()) := by
  refine Shape.map_ofJson_record_eq_ok_iff.trans ?_
  constructor
  · rintro ⟨⟨id, ⟨⟩⟩, hcollect, rfl⟩
    exact ⟨⟨id⟩, rfl, hcollect⟩
  · rintro ⟨id, rfl, hcollect⟩
    exact ⟨_, hcollect, rfl⟩

theorem ofBuffered_getStoreState_iff :
    ofBuffered .getStoreState (.object ms) = .ok r ↔ r = .getStoreState := by
  show Except.ok Request.getStoreState = .ok r ↔ _
  rw [Except.ok.injEq, eq_comm]

/-- The names of tags. -/
theorem get?_tags_iff {name : String} {tag : Tag} : Members.get? name tags.choices = some tag ↔
    (name = "new_task" ∧ tag = .newTask) ∨ (name = "await_task" ∧ tag = .awaitTask) ∨
      (name = "get_store_state" ∧ tag = .getStoreState) := by
  simp only [tags, Members.get?]
  by_cases hnew : name = "new_task"
  · simp [hnew, eq_comm]
  · by_cases hawait : name = "await_task"
    · simp [hawait, eq_comm]
    · by_cases hget : name = "get_store_state" <;> simp [hnew, hawait, hget, eq_comm]

/-- The text of an object is read just if the object says a request. -/
theorem parse_eq_ok_iff {s : String} (h : Json.parse s = .ok (.object ms)) :
    parse s = .ok r ↔ Says ms r := by
  refine (Tagged.readThen_eq_ok_iff h).trans ⟨?_, ?_⟩
  -- from what was buffered to what the object says, tag by tag
  · rintro ⟨name, tag, hname, htag, htake⟩
    obtain ⟨rfl, rfl⟩ | ⟨rfl, rfl⟩ | ⟨rfl, rfl⟩ := get?_tags_iff.mp htag
    · obtain ⟨task, rfl, hcollect⟩ := ofBuffered_newTask_iff.mp htake
      obtain ⟨hqueue, hdefinition, hargs, hkwargs⟩ :=
        collect_newTask_iff.mp ((Fields.collect_without rfl).symm.trans hcollect)
      exact .newTask hname hqueue hdefinition hargs hkwargs
    · obtain ⟨id, rfl, hcollect⟩ := ofBuffered_awaitTask_iff.mp htake
      exact .awaitTask hname
        (collect_awaitTask_iff.mp ((Fields.collect_without rfl).symm.trans hcollect))
    · cases ofBuffered_getStoreState_iff.mp htake
      exact .getStoreState hname
  · intro h
    cases h with
    | newTask htag hqueue hdefinition hargs hkwargs =>
      refine ⟨_, .newTask, htag, rfl, ofBuffered_newTask_iff.mpr ⟨_, rfl, ?_⟩⟩
      exact (Fields.collect_without rfl).trans
        (collect_newTask_iff.mpr ⟨hqueue, hdefinition, hargs, hkwargs⟩)
    | awaitTask htag hid =>
      refine ⟨_, .awaitTask, htag, rfl, ofBuffered_awaitTask_iff.mpr ⟨_, rfl, ?_⟩⟩
      exact (Fields.collect_without rfl).trans (collect_awaitTask_iff.mpr hid)
    | getStoreState htag =>
      exact ⟨_, .getStoreState, htag, rfl, ofBuffered_getStoreState_iff.mpr rfl⟩

/-- Decoding only changes how an error is told. -/
theorem decode_eq_ok_iff {s : String} : decode s = .ok r ↔ parse s = .ok r := mapError_eq_ok_iff

/-- A message that is no request breaks the protocol. -/
theorem exists_decode_eq_error {s : String} (h : ∀ r, decode s ≠ .ok r) :
    ∃ text, decode s = .error (.protocol text) :=
  (exists_mapError_eq_error h).elim fun e he => ⟨e.message, he⟩

/-! ## What does not matter -/

/-- An object says the same in any order, and beside members under names that mean nothing to it. -/
theorem Says.congr (h : Says ms r) (hperm : ns.Perm (ms ++ extra))
    (hextra : ∀ m ∈ extra, m.1 ∉ r.names) : Says ns r := by
  have hkept : ∀ {key : String} {j : Json}, key ∈ r.names → valuesOf key ms = [j] →
      valuesOf key ns = [j] := fun hkey hone =>
    Members.valuesOf_of_perm_append hperm (fun m hm he => hextra m hm (he ▸ hkey)) hone (by simp)
  cases h with
  | newTask htag hqueue hdefinition hargs hkwargs =>
    exact .newTask (hkept (by simp [names]) htag) (hkept (by simp [names]) hqueue)
      (hkept (by simp [names]) hdefinition) (hkept (by simp [names]) hargs)
      (hkept (by simp [names]) hkwargs)
  | awaitTask htag hid =>
    exact .awaitTask (hkept (by simp [names]) htag) (hkept (by simp [names]) hid)
  | getStoreState htag => exact .getStoreState (hkept (by simp [names]) htag)

/-- A message that is an object is the request that its members say, and breaks the protocol if they
say none. Whatever the order, and whatever else stands among them, the same members say the same. -/
theorem decode_object {s : String} (h : Json.IsText s (.object ms))
    (hdepth : (Json.object ms).depth ≤ Json.depthLimit) :
    (∀ r, decode s = .ok r ↔ Says ms r) ∧
    ((∀ r, ¬ Says ms r) → ∃ text, decode s = .error (.protocol text)) ∧
    ∀ t ns extra r, Json.IsText t (.object ns) → (Json.object ns).depth ≤ Json.depthLimit →
      ns.Perm (ms ++ extra) → decode s = .ok r → (∀ m ∈ extra, m.1 ∉ r.names) →
      decode t = .ok r := by
  have hiff : ∀ {s ms}, Json.IsText s (.object ms) → (Json.object ms).depth ≤ Json.depthLimit →
      ∀ r, decode s = .ok r ↔ Says ms r := fun h hdepth r =>
    decode_eq_ok_iff.trans (parse_eq_ok_iff (Json.parse_of_isText h hdepth))
  refine ⟨hiff h hdepth, fun hnone => ?_, ?_⟩
  · exact exists_decode_eq_error fun r hr => hnone r ((hiff h hdepth r).mp hr)
  · intro t ns extra r ht htdepth hperm hr hextra
    exact (hiff ht htdepth r).mpr (((hiff h hdepth r).mp hr).congr hperm hextra)

/-- The tag stands last here, and its name is escaped. -/
def escaped : String := "\x7b \"task_id\": \"a\",\n \"\\u0074ype\": \"await_task\"\x7d"

theorem isText_escaped :
    Json.IsText escaped (.object [("task_id", .string "a"), ("type", .string "await_task")]) := by
  have hype : Json.SpellsChars "ype".toList "ype".toList := Json.spellsChars_self (by decide)
  have hchars : Json.SpellsChars "type".toList "\\u0074ype".toList :=
    .cons (.code (n := 0x74) rfl (by decide)) hype
  have htype : Json.SpellsString "type" "\"\\u0074ype\"".toList := .mk hchars
  have hblank : Json.Blank [] ∧ Json.Blank [' '] ∧ Json.Blank ['\n', ' '] := by
    simp [Json.Blank]
  have hmembers : Json.Separated (Json.SpellsMember Json.Spells)
      [("task_id", .string "a"), ("type", .string "await_task")] _ :=
    .more hblank.2.1 (.mk (Json.spellsString_self (by decide)) hblank.1 hblank.2.1
      (.string (Json.spellsString_self (by decide)))) hblank.1 <|
    .one hblank.2.2 (.mk htype hblank.1 hblank.2.1
      (.string (Json.spellsString_self (by decide)))) hblank.1
  exact ⟨[], _, [], hblank.1, .object hmembers, hblank.1, rfl⟩

theorem decode_escaped :
    Json.IsText escaped (.object [("task_id", .string "a"), ("type", .string "await_task")]) ∧
      decode escaped = .ok (.awaitTask ⟨"a"⟩) :=
  ⟨isText_escaped,
    ((decode_object isText_escaped (by decide)).1 (.awaitTask ⟨"a"⟩)).mpr (.awaitTask rfl rfl)⟩

end Request

end TaskRelay
