import TaskRelay.Envelope
import TaskRelay.Proofs.Json.Canonical
import TaskRelay.Proofs.Shape.Tagged
import TaskRelay.StoreState

/-!
# Messages come back as they were sent

Ids, requests and tables carry nothing but texts, so they always come back:

> `TaskId.parse_compact`, `Request.decode_encode`, `StoreState.parse_encode`.

An envelope carries the result of a task, and a result may be nested more deeply than a reader
goes. The envelope itself is a container around it, so the bound for a result is one less than
that for a text:

> `Envelope.parse_encode`: an envelope without doubles comes back if its result is nested less
> deeply than a text may be.

> `Envelope.parse_encode_tooDeep`: otherwise the reader complains about the nesting.
-/

namespace TaskRelay

/-! ## Ids -/

namespace TaskId

/-- An id comes back from its text. -/
theorem parse_compact (id : TaskId) : parse id.toJson.compact = .ok id := by
  have hread : Reads (Shape.text.read Json.depthLimit) id.toJson.compact.toList id.text [] := by
    rw [Json.toList_compact]
    exact Shape.reads_text id.text follows_nil _
  have htext : Shape.text.parse id.toJson.compact = .ok id.text := hread.readAll
  unfold parse
  rw [htext]
  rfl

/-- Different ids have different texts. -/
theorem compact_injective {id other : TaskId} (h : id.toJson.compact = other.toJson.compact) :
    id = other := by
  have hid := parse_compact id
  rw [h, parse_compact other] at hid
  exact (Except.ok.inj hid).symm

end TaskId

/-! ## Requests -/

namespace Request

/-- A request comes back from its text. -/
theorem parse_encode (r : Request) : parse r.encode = .ok r := by
  cases r with
  | newTask task =>
    exact Tagged.readAll_readThen [] _ rfl rfl (by simp [Tagged.key])
      ⟨trivial, trivial, trivial, trivial, trivial⟩
      (by simp [Json.depthMembers, Json.depth, Json.depthLimit]) rfl
  | awaitTask id =>
    exact Tagged.readAll_readThen [] _ rfl rfl (by simp [Tagged.key])
      ⟨trivial, trivial⟩
      (by simp [Json.depthMembers, TaskId.toJson, Json.depth, Json.depthLimit]) rfl
  | getStoreState =>
    exact Tagged.readAll_readThen [] _ rfl rfl (by simp) trivial
      (by simp [Json.depthMembers, Json.depthLimit]) rfl

theorem decode_encode (r : Request) : decode r.encode = .ok r := by
  unfold decode
  rw [parse_encode]
  rfl

end Request

/-! ## Tables -/

namespace Status

theorem reads_name (status : Status) (limit : Nat) :
    ∃ v : cases.Carrier, ofCase v = status ∧ ∀ rest,
      Reads ((Shape.choice cases).read limit) (Json.writeString status.name rest) v rest := by
  cases status with
  | enqueued => exact ⟨.inl (), rfl, Shape.reads_name rfl rfl⟩
  | processing => exact ⟨.inr (.inl ()), rfl, Shape.reads_name rfl rfl⟩
  | completed => exact ⟨.inr (.inr (.inl ())), rfl, Shape.reads_name rfl rfl⟩
  | retrying => exact ⟨.inr (.inr (.inr (.inl ()))), rfl, Shape.reads_name rfl rfl⟩
  | failed => exact ⟨.inr (.inr (.inr (.inr (.inl ())))), rfl, Shape.reads_name rfl rfl⟩

end Status

/-- A task of the table comes back. -/
theorem StoredTask.reads_toJson (t : StoredTask) (limit : Nat) :
    ∃ v : StoredTask.shape.Carrier, StoredTask.ofData v = t ∧
      ∀ rest, Reads (StoredTask.shape.read (limit + 1)) (t.toJson.write rest) v rest := by
  obtain ⟨id, status, definition, args, kwargs⟩ := t
  obtain ⟨v, rfl, hstatus⟩ := Status.reads_name status limit
  refine ⟨(id.text, v, definition, args, kwargs, ()), rfl, fun rest => ?_⟩
  refine Shape.reads_record StoredTask.fields
    (some id.text, some v, some definition, some args, some kwargs, ()) ?_ rfl
  refine .cons (t := (some id.text, none, none, none, none, ())) (fun rest hrest => ?_) <|
    .cons (t := (some id.text, some v, none, none, none, ())) (fun rest hrest => ?_) <|
    .cons (t := (some id.text, some v, some definition, none, none, ())) (fun rest hrest => ?_) <|
    .cons (t := (some id.text, some v, some definition, some args, none, ()))
      (fun rest hrest => ?_) <|
    .cons (fun rest hrest => ?_) .nil
  · exact Cursor.colon_cons.andThen (Shape.reads_text _ hrest _).map
  · exact (Cursor.colon_cons.andThen (hstatus rest).map).map
  · exact ((Cursor.colon_cons.andThen (Shape.reads_text _ hrest _).map).map).map
  · exact (((Cursor.colon_cons.andThen (Shape.reads_text _ hrest _).map).map).map).map
  · exact ((((Cursor.colon_cons.andThen (Shape.reads_text _ hrest _).map).map).map).map).map

/-- So do all tasks of a table. -/
theorem StoredTask.takesItems (ts : List StoredTask) (limit : Nat) :
    ∃ vs : List StoredTask.shape.Carrier, vs.map StoredTask.ofData = ts ∧
      TakesItems (StoredTask.shape.read (limit + 1)) (ts.map StoredTask.toJson) vs := by
  induction ts with
  | nil => exact ⟨[], rfl, .nil⟩
  | cons t ts ih =>
    obtain ⟨v, hv, hread⟩ := StoredTask.reads_toJson t limit
    obtain ⟨vs, hvs, htakes⟩ := ih
    refine ⟨v :: vs, by rw [List.map_cons, hv, hvs], ?_⟩
    exact .cons ⟨trivial, trivial, trivial, trivial, trivial, trivial⟩
      (fun rest _ => hread rest) htakes

/-- A table comes back with all its tasks. -/
theorem StoreState.parse_encode (t : StoreState) : parse t.encode = .ok t := by
  obtain ⟨vs, hvs, htakes⟩ := StoredTask.takesItems t.tasks (Json.depthLimit - 3)
  have hread : Reads (StoreState.shape.read Json.depthLimit) t.encode.toList (vs, ()) [] := by
    unfold StoreState.encode
    rw [Json.toList_compact]
    refine Shape.reads_record (.cons (.required "tasks") (.list StoredTask.shape) .nil)
      (some vs, ()) ?_ rfl
    exact .cons (fun rest _ => Cursor.colon_cons.andThen (Shape.reads_list htakes).map) .nil
  have htext : StoreState.shape.parse t.encode = .ok (vs, ()) := hread.readAll
  unfold parse
  rw [htext]
  show Except.ok (StoreState.mk (vs.map StoredTask.ofData)) = _
  rw [hvs]

/-! ## Records -/

/-- A record is taken from an object through the slots of its fields. -/
theorem Shape.ofJson_object {o : Origin} {label : String} {closed : Bool} {fs : Fields}
    {ms : List (String × Json)} {slots : fs.Slots}
    (h : OfJson.fill (fs.ofMember o) closed fs.names fs.noSlots ms = .ok slots) :
    (Shape.record label closed fs).ofJson o (.object ms) = fs.finish slots := by
  conv => lhs; whnf
  rw [h]

/-- A member that a field takes fills its slot. -/
theorem OfJson.fill_cons {σ : Type} {take : σ → String → Json → Option (Except Cause σ)}
    {closed : Bool} {known : List String} {slots filled : σ} {key : String} {j : Json}
    {ms : List (String × Json)} (h : take slots key j = some (.ok filled)) :
    fill take closed known slots ((key, j) :: ms) = fill take closed known filled ms := by
  rw [fill, h]

/-! ## Envelopes -/

namespace Envelope

/-- No number in the result is a double. -/
def DoubleFree : Envelope → Prop
  | .success result => result.tree.DoubleFree
  | .failure _ _ _ => True

/-- How deeply the result is nested. -/
def depth : Envelope → Nat
  | .success result => result.tree.depth
  | .failure _ _ _ => 0

/-- A success as a value: its members in their order. -/
theorem toValue_success (result : Value) :
    (toValue (.success result)).tree =
      .object [("result", result.tree), ("type", .string "success")] := by
  show Json.canonical (.object [("type", .string "success"), ("result", result.tree)]) = _
  simp only [Json.canonical, Json.canonicalMembers, Json.canonical_of_sorted result.sorted]
  -- the writer puts the tag first, and sorting takes it to the end
  have hkeys : "result" < "type" := by decide
  simp [Members.sort, Members.insert, hkeys]

theorem canonicalItems_strings (ss : List String) :
    Json.canonicalItems (ss.map Json.string) = ss.map Json.string := by
  induction ss with
  | nil => rfl
  | cons s ss ih => rw [List.map_cons, Json.canonicalItems, ih, Json.canonical]

/-- A failure as a value: its members in their order. -/
theorem toValue_failure (kind message : String) (trace : List String) :
    (toValue (.failure kind message trace)).tree =
      .object [("backtrace", .array (trace.map .string)), ("class", .string kind),
        ("message", .string message), ("type", .string "failure")] := by
  show Json.canonical (.object [("type", .string "failure"), ("class", .string kind),
    ("message", .string message), ("backtrace", .array (trace.map .string))]) = _
  simp only [Json.canonical, Json.canonicalMembers, canonicalItems_strings]
  have hclass : "class" < "type" := by decide
  have hmessage : "message" < "type" ∧ ¬ "message" < "class" := by decide
  have htrace : "backtrace" < "class" := by decide
  simp [Members.sort, Members.insert, hclass, hmessage, htrace]

/-- Whether a text is that of a success is to be seen from its first key. -/
theorem getElem?_encode (e : Envelope) :
    e.encode.toList[2]? = some (if e.isSuccess then 'r' else 'b') := by
  unfold encode Value.text
  rw [Json.toList_compact]
  cases e with
  | success result =>
    rw [toValue_success]
    rfl
  | failure kind message trace =>
    rw [toValue_failure]
    rfl

/-- No success has the text of a failure. -/
theorem isSuccess_eq_of_encode_eq {e other : Envelope} (h : e.encode = other.encode) :
    e.isSuccess = other.isSuccess := by
  have hkey := e.getElem?_encode
  rw [h, other.getElem?_encode] at hkey
  cases he : e.isSuccess <;> cases ho : other.isSuccess <;> simp_all

theorem doubleFreeItems_strings (ss : List String) : Json.DoubleFreeItems (ss.map Json.string) := by
  induction ss with
  | nil => trivial
  | cons s ss ih => exact ⟨trivial, ih⟩

theorem depthItems_strings (ss : List String) : Json.depthItems (ss.map Json.string) = 0 := by
  induction ss with
  | nil => rfl
  | cons s ss ih => rw [List.map_cons, Json.depthItems, ih]; rfl

theorem ofJson_strings (ss : List String) :
    OfJson.items (Shape.text.ofJson .buffered) (ss.map Json.string) = .ok ss := by
  induction ss with
  | nil => rfl
  | cons s ss ih =>
    show (OfJson.items (Shape.text.ofJson .buffered) (ss.map Json.string)).map (s :: ·) = _
    rw [ih]
    rfl

/-- A success comes back from what is left when its kind is known. -/
theorem ofBuffered_success (result : Value) :
    ofBuffered .success (.object [("result", result.tree)]) = .ok (.success result) := by
  show Except.ok (Envelope.success (Value.ofJson result.tree)) = _
  rw [Value.ofJson_tree]

theorem ofMember_backtrace (kind message : Option String) (trace : List String) :
    failureFields.ofMember .buffered (kind, message, none, ()) "backtrace"
      (.array (trace.map .string)) = some (.ok (kind, message, some trace, ())) := by
  show some ((((OfJson.items (Shape.text.ofJson .buffered) (trace.map .string)).map
    fun v => (some v, ())).map fun slots => (message, slots)).map fun slots => (kind, slots)) = _
  rw [ofJson_strings]
  rfl

/-- So does a failure. -/
theorem ofBuffered_failure (kind message : String) (trace : List String) :
    ofBuffered .failure (.object [("backtrace", .array (trace.map .string)),
      ("class", .string kind), ("message", .string message)]) =
      .ok (.failure kind message trace) := by
  have hmembers : OfJson.fill (failureFields.ofMember .buffered) false failureFields.names
      failureFields.noSlots [("backtrace", .array (trace.map .string)), ("class", .string kind),
        ("message", .string message)] = .ok (some kind, some message, some trace, ()) := by
    have htrace : failureFields.ofMember .buffered failureFields.noSlots "backtrace"
        (.array (trace.map .string)) = _ := ofMember_backtrace none none trace
    exact (OfJson.fill_cons htrace).trans rfl
  unfold ofBuffered
  dsimp only
  rw [Shape.ofJson_object hmembers]
  rfl

/-- An envelope that is nested no deeper than a text may be comes back. -/
theorem parse_encode {e : Envelope} (hd : e.DoubleFree) (hdepth : e.depth < Json.depthLimit) :
    parse e.encode = .ok e := by
  cases e with
  | success result =>
    refine Tagged.readAll_readThen [("result", result.tree)] []
      (congrArg Json.compact (toValue_success result)) rfl (by simp [Tagged.key]) ⟨hd, trivial⟩ ?_
      (ofBuffered_success result)
    simp only [List.append_nil, Json.depthMembers, Nat.max_zero]
    exact hdepth
  | failure kind message trace =>
    refine Tagged.readAll_readThen
      [("backtrace", .array (trace.map .string)), ("class", .string kind),
        ("message", .string message)] []
      (congrArg Json.compact (toValue_failure kind message trace)) rfl (by simp [Tagged.key])
      ⟨doubleFreeItems_strings trace, trivial, trivial, trivial⟩ ?_
      (ofBuffered_failure kind message trace)
    simp [Json.depthMembers, Json.depth, depthItems_strings, Json.depthLimit]

/-- Any deeper one is refused for it. -/
theorem parse_encode_tooDeep {e : Envelope} (hd : e.DoubleFree)
    (hdepth : Json.depthLimit ≤ e.depth) :
    ∃ p, parse e.encode = .error ⟨.malformed .nestedTooDeeply, some p⟩ := by
  cases e with
  | success result =>
    exact Tagged.readAll_readThen_tooDeep [] [("type", .string "success")]
      (k := "result") (j := result.tree)
      (congrArg Json.compact (toValue_success result)) .nil (by simp [Tagged.key]) hd hdepth
  | failure kind message trace => exact absurd hdepth (by simp [depth, Json.depthLimit])

end Envelope

end TaskRelay
