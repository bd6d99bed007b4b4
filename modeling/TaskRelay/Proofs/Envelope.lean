import TaskRelay.Proofs.Message

/-!
# Two writers of envelopes, and how deep a reader follows them

An envelope is written with its keys sorted, which is what is sent, or as it was declared: the tag
in front of the fields in their order (`Envelope.derived`). The first text is that of the second
tree after sorting, and one reader takes both. It looks for the tag while it buffers the members, so
what stands in front of the result differs between the two: nothing, or the tag. How deep it goes
does not, since the container around the result is there in both texts:

> `parse_encode_eq_ok_iff`, `parse_declared_eq_ok_iff`: either text comes back as the envelope that
> it was written from, exactly if the result is nested less deeply than a text may be.

The failures among the envelopes hold nothing but texts, so they always come back. A result that is
nested too deeply is a complaint about the nesting, with the place where the reader stood:

> `decode_encode_iff`: the two writers, the exact bound, and what is beyond it.
-/

namespace TaskRelay

/-! ## Trees of data -/

/-- A field is written in front of those that follow it. -/
theorem Fields.toMembers_cons {f : Field} {s : Shape} {fs : Fields} {v : s.Carrier}
    {vs : fs.Carrier} {j : Json} {ms : List (String × Json)} (hv : s.toJson v = .ok j)
    (hvs : fs.toMembers vs = .ok ms) :
    (Fields.cons f s fs).toMembers (v, vs) = .ok ((f.name, j) :: ms) := by
  rw [Fields.toMembers]
  simp only [hv, hvs]
  rfl

/-- Texts as data are a list of strings. -/
theorem ToJson.items_text (ss : List String) :
    ToJson.items Shape.text.toJson ss = .ok (ss.map .string) := by
  induction ss with
  | nil => rfl
  | cons s ss ih =>
    show (ToJson.items Shape.text.toJson ss).map (Json.string s :: ·) = _
    rw [ih]
    rfl

theorem Shape.toJson_texts (ss : List String) :
    (Shape.list .text).toJson ss = .ok (.array (ss.map .string)) := by
  show (ToJson.items Shape.text.toJson ss).map Json.array = _
  rw [ToJson.items_text]
  rfl

namespace Envelope

/-! ## As it was declared -/

/-- The tree of an envelope as its declaration has it: the tag, and the fields of that tag as their
shapes write them. -/
def derived : Envelope → Except EncodeError Json
  | .success result =>
    (successFields.toMembers (result, ())).map fun fields =>
      .object ((Tagged.key, .string "success") :: fields)
  | .failure kind message trace =>
    (failureFields.toMembers (kind, message, trace, ())).map fun fields =>
      .object ((Tagged.key, .string "failure") :: fields)

/-- Every envelope can be written. -/
theorem derived_eq (e : Envelope) : e.derived = .ok e.toJson := by
  cases e with
  | success result => rfl
  | failure kind message trace =>
    have hfields : failureFields.toMembers (kind, message, trace, ()) = .ok _ :=
      Fields.toMembers_cons rfl <| Fields.toMembers_cons rfl <|
        Fields.toMembers_cons (Shape.toJson_texts trace) rfl
    unfold derived
    dsimp only
    rw [hfields]
    rfl

/-! ## Reading what was declared -/

/-- The members of a failure may come in the order in which they are declared. -/
theorem ofBuffered_failure_declared (kind message : String) (trace : List String) :
    ofBuffered .failure (.object [("class", .string kind), ("message", .string message),
      ("backtrace", .array (trace.map .string))]) = .ok (.failure kind message trace) := by
  have hmembers : OfJson.fill (failureFields.ofMember .buffered) false failureFields.names
      failureFields.noSlots [("class", .string kind), ("message", .string message),
        ("backtrace", .array (trace.map .string))] =
      .ok (some kind, some message, some trace, ()) := by
    have hkind : failureFields.ofMember .buffered failureFields.noSlots "class" (.string kind) =
        some (.ok (some kind, none, none, ())) := rfl
    have hmessage : failureFields.ofMember .buffered (some kind, none, none, ()) "message"
        (.string message) = some (.ok (some kind, some message, none, ())) := rfl
    have htrace := ofMember_backtrace (some kind) (some message) trace
    exact (OfJson.fill_cons hkind).trans <|
      (OfJson.fill_cons hmessage).trans <| (OfJson.fill_cons htrace).trans rfl
  unfold ofBuffered
  dsimp only
  rw [Shape.ofJson_object hmembers]
  rfl

variable {e : Envelope}

/-- The other writing comes back as well. -/
theorem parse_declared (hd : e.DoubleFree) (hdepth : e.depth < Json.depthLimit) :
    parse e.declared = .ok e := by
  cases e with
  | success result =>
    refine Tagged.readAll_readThen [] [("result", result.tree)] rfl rfl (by simp [Tagged.key])
      ⟨hd, trivial⟩ ?_ (ofBuffered_success result)
    simp only [List.nil_append, Json.depthMembers, Nat.max_zero]
    exact hdepth
  | failure kind message trace =>
    refine Tagged.readAll_readThen []
      [("class", .string kind), ("message", .string message),
        ("backtrace", .array (trace.map .string))] rfl rfl (by simp [Tagged.key])
      ⟨trivial, trivial, doubleFreeItems_strings trace, trivial⟩ ?_
      (ofBuffered_failure_declared kind message trace)
    simp [Json.depthMembers, Json.depth, depthItems_strings, Json.depthLimit]

/-- It is refused from the same depth on. -/
theorem parse_declared_tooDeep (hd : e.DoubleFree) (hdepth : Json.depthLimit ≤ e.depth) :
    ∃ p, parse e.declared = .error ⟨.malformed .nestedTooDeeply, some p⟩ := by
  cases e with
  | success result =>
    -- here the tag is read before the result
    exact Tagged.readAll_readThen_tooDeep [("type", .string "success")] []
      (k := "result") (j := result.tree) rfl (Tagged.takes_tag rfl) (by simp [Tagged.key]) hd hdepth
  | failure kind message trace => exact absurd hdepth (by simp [depth, Json.depthLimit])

/-! ## The exact bound -/

/-- With one case on each side of the limit, what comes back is decided by the depth. -/
theorem eq_ok_iff {r : Except DecodeError Envelope}
    (hfits : e.depth < Json.depthLimit → r = .ok e)
    (hdeep : Json.depthLimit ≤ e.depth →
      ∃ p, r = .error ⟨.malformed .nestedTooDeeply, some p⟩) :
    r = .ok e ↔ e.depth < Json.depthLimit := by
  constructor
  · intro h
    by_cases hdepth : e.depth < Json.depthLimit
    · exact hdepth
    · obtain ⟨p, hp⟩ := hdeep (Nat.le_of_not_lt hdepth)
      rw [hp] at h
      cases h
  · exact hfits

theorem parse_encode_eq_ok_iff (hd : e.DoubleFree) :
    parse e.encode = .ok e ↔ e.depth < Json.depthLimit :=
  eq_ok_iff (parse_encode hd) (parse_encode_tooDeep hd)

theorem parse_declared_eq_ok_iff (hd : e.DoubleFree) :
    parse e.declared = .ok e ↔ e.depth < Json.depthLimit :=
  eq_ok_iff (parse_declared hd) (parse_declared_tooDeep hd)

/-- Decoding only changes how an error is told. -/
theorem decode_eq_ok_iff {m : String} : decode m = .ok e ↔ parse m = .ok e := by
  unfold decode
  cases parse m with
  | ok other =>
    show Except.ok other = Except.ok e ↔ Except.ok other = Except.ok e
    rw [Except.ok.injEq, Except.ok.injEq]
  | error cause =>
    constructor
    · intro h
      cases h
    · intro h
      cases h

/-- Failures are never nested too deeply, and outputs from 127 levels on. -/
theorem depth_lt_iff : e.depth < Json.depthLimit ↔
    (∃ kind message trace, e = .failure kind message trace) ∨
      ∃ result, e = .success result ∧ result.tree.depth ≤ 126 := by
  cases e with
  | success result => simp [depth, Json.depthLimit, Nat.lt_succ_iff]
  | failure kind message trace => simp [depth, Json.depthLimit]

/-- An envelope without doubles has one value, whichever of its two writers made it, and each of its
texts comes back as that envelope unless its result nests more than 126 containers. Then the reader
complains about the nesting. -/
theorem decode_encode_iff (hd : e.DoubleFree) :
    (∃ tree, e.derived = .ok tree ∧ tree.compact = e.declared ∧ Value.ofJson tree = e.toValue ∧
      (decode e.declared = .ok e ↔ decode e.encode = .ok e)) ∧
    (decode e.encode = .ok e ↔ (∃ kind message trace, e = .failure kind message trace) ∨
      ∃ result, e = .success result ∧ result.tree.depth ≤ 126) ∧
    ∀ result, e = .success result → 126 < result.tree.depth → ∃ p : Position,
      decode e.encode = .error (.protocol ("recursion limit exceeded at line " ++
        toString p.line ++ " column " ++ toString p.column)) := by
  refine ⟨⟨e.toJson, e.derived_eq, rfl, rfl, ?_⟩, ?_, ?_⟩
  · rw [decode_eq_ok_iff, decode_eq_ok_iff, parse_encode_eq_ok_iff hd]
    exact parse_declared_eq_ok_iff hd
  · rw [decode_eq_ok_iff, parse_encode_eq_ok_iff hd, depth_lt_iff]
  · intro result he hdeep
    subst he
    obtain ⟨p, hp⟩ := parse_encode_tooDeep hd hdeep
    refine ⟨p, ?_⟩
    unfold decode
    rw [hp]
    show Except.error (Failure.protocol ("recursion limit exceeded" ++ (_ ++ _ ++ _ ++ _))) = _
    simp only [← String.append_assoc]
    rfl

/-- The least whole number under a quote as its key, and a text that is JSON. -/
def awkwardTree : Json :=
  .object [("\"", .number (.whole ⟨-9223372036854775808, by decide, by decide⟩)),
    ("back\\slash", .array [.string "\x7b\"type\": \"failure\"\x7d", .null])]

theorem awkwardTree_sorted : awkwardTree.Sorted := by
  simp only [awkwardTree, Json.Sorted, Json.SortedMembers, Json.SortedItems, and_true]
  exact List.pairwise_pair.mpr (by decide)

def awkward : Envelope := .success ⟨awkwardTree, awkwardTree_sorted⟩

theorem decode_encode_awkward :
    awkward.DoubleFree ∧ decode awkward.encode = .ok awkward ∧
      ∃ tree, awkward.derived = .ok tree ∧ tree.compact = awkward.declared ∧
        decode awkward.declared = .ok awkward := by
  have hd : awkward.DoubleFree := ⟨trivial, ⟨trivial, trivial, trivial⟩, trivial⟩
  obtain ⟨⟨tree, htree, htext, -, hwriters⟩, hback, -⟩ := decode_encode_iff hd
  have hencode : decode awkward.encode = .ok awkward := hback.2 (.inr ⟨_, rfl, by decide⟩)
  exact ⟨hd, hencode, tree, htree, htext, hwriters.2 hencode⟩

end Envelope

end TaskRelay
