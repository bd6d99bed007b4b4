import TaskRelay.Proofs.Envelope
import TaskRelay.Proofs.Json.Grammar
import TaskRelay.Proofs.Shape.Gathered

/-!
# What an envelope is read from, and what it is written as

An object is an envelope if its members say so, each of them once: a tag, the result of a success,
or the kind and the message of a failure. Nothing else matters. A failure has two tags, and may
leave out what caused it.

> `Envelope.parse_eq_ok_iff`: of a text that is an object the reader makes the envelope that the
> members say (`Envelope.Says`).

> `Envelope.Says.congr`: the order does not matter, nor do members under other names.

Whatever an envelope was read from, an object or a list, what it holds is nested less deeply than a
text may be. So the text that it is written as is always read again:

> `Envelope.decode_encode_of_decode`.

> `Envelope.decode_normal`: both, for every text.
-/

namespace TaskRelay

open Members (valuesOf without)

/-- A list that is taken is no longer than what is wanted of it. -/
theorem OfJson.close_eq_ok {α : Type} {o : Origin} {taken total : Nat} {r : Except Cause α} {a : α}
    (h : close o taken total r = .ok a) : r = .ok a ∧ total ≤ taken := by
  unfold close at h
  split at h
  · cases h
  · split at h
    · cases h
    · next hle =>
      cases h
      exact ⟨rfl, Nat.le_of_not_lt hle⟩

namespace Envelope

/-! ## Objects that are envelopes -/

/-- What the members of an object say. Members under other names say nothing. -/
inductive Says (ms : List (String × Json)) : Envelope → Prop
  | success {j : Json} (htag : valuesOf "type" ms = [.string "success"])
      (hresult : valuesOf "result" ms = [j]) : Says ms (.success (Value.ofJson j))
  | failure {tag kind message : String} {trace : List String}
      (htag : valuesOf "type" ms = [.string tag]) (hname : tag = "failure" ∨ tag = "error")
      (hkind : valuesOf "class" ms = [.string kind])
      (hmessage : valuesOf "message" ms = [.string message])
      (htrace : valuesOf "backtrace" ms = [] ∧ trace = [] ∨
        valuesOf "backtrace" ms = [.array (trace.map .string)]) :
      Says ms (.failure kind message trace)

/-- The names of the members that make an envelope what it is. -/
def names : Envelope → List String
  | .success _ => ["type", "result"]
  | .failure _ _ _ => ["type", "class", "message", "backtrace"]

variable {ms ns extra : List (String × Json)} {e : Envelope} {s : String}

/-- A list of texts is a list of strings and of nothing else. -/
theorem items_text_eq_ok_iff {o : Origin} {js : List Json} {ss : List String} :
    OfJson.items (Shape.text.ofJson o) js = .ok ss ↔ js = ss.map .string := by
  induction js generalizing ss with
  | nil =>
    cases ss with
    | nil => exact ⟨fun _ => rfl, fun _ => rfl⟩
    | cons t ss => exact ⟨fun h => (nomatch h), fun h => (nomatch h)⟩
  | cons j js ih =>
    cases j with
    | string t =>
      refine (map_eq_ok_iff (f := (t :: ·)) rfl).trans ⟨?_, ?_⟩
      · rintro ⟨rest, hrest, rfl⟩
        rw [ih.mp (toOption_eq_some_iff.mp hrest), List.map_cons]
      · intro h
        cases ss with
        | nil => cases h
        | cons u rest =>
          obtain ⟨hhead, htail⟩ := List.cons.inj h
          cases hhead
          exact ⟨rest, toOption_eq_some_iff.mpr (ih.mpr htail), rfl⟩
    | null | bool _ | number _ | array _ | object _ =>
      cases ss <;> exact ⟨fun h => (nomatch h), fun h => (nomatch h)⟩

/-- A list of texts that may be left out is empty then. -/
theorem pick_texts_eq_some_iff {name : String} {o : Origin} {js : List Json} {trace : List String} :
    (Field.blankable name).pick o (.list .text) js = some trace ↔
      js = [] ∧ trace = [] ∨ js = [.array (trace.map .string)] := by
  match js with
  | [] =>
    show some [] = some trace ↔ _
    simp [eq_comm]
  | [.array items] =>
    refine (toOption_eq_some_iff.trans items_text_eq_ok_iff).trans ?_
    simp
  | [.null] | [.bool _] | [.number _] | [.string _] | [.object _] =>
    exact ⟨fun h => (nomatch h), fun h => by simp at h⟩
  | _ :: _ :: _ => exact ⟨fun h => (nomatch h), fun h => by simp at h⟩

/-- A value that has to be there is there once. -/
theorem pick_value_eq_some_iff {name : String} {o : Origin} {js : List Json} {v : Value} :
    (Field.required name).pick o .value js = some v ↔ ∃ j, js = [j] ∧ Value.ofJson j = v := by
  match js with
  | [] => exact ⟨fun h => (nomatch h), fun ⟨_, h, _⟩ => (nomatch h)⟩
  | [j] =>
    show some (Value.ofJson j) = some v ↔ _
    simp
  | _ :: _ :: _ => exact ⟨fun h => (nomatch h), fun ⟨_, h, _⟩ => (nomatch h)⟩

/-- A success has one result, and whatever other members. -/
theorem ofBuffered_success_iff :
    ofBuffered .success (.object ms) = .ok e ↔
      ∃ j, valuesOf "result" ms = [j] ∧ e = .success (Value.ofJson j) := by
  refine Shape.map_ofJson_record_eq_ok_iff.trans ⟨?_, ?_⟩
  · rintro ⟨⟨result, ⟨⟩⟩, hcollect, rfl⟩
    obtain ⟨j, hj, rfl⟩ := pick_value_eq_some_iff.mp
      ((Fields.collect_cons_eq_some_iff rfl rfl).mp hcollect).1
    exact ⟨j, hj, rfl⟩
  · rintro ⟨j, hj, rfl⟩
    exact ⟨(Value.ofJson j, ()), (Fields.collect_cons_eq_some_iff rfl rfl).mpr
      ⟨pick_value_eq_some_iff.mpr ⟨j, hj, rfl⟩, rfl⟩, rfl⟩

/-- A failure has a class and a message, and may have a backtrace. -/
theorem collect_failure_iff {kind message : String} {trace : List String} :
    failureFields.collect .buffered ms = some (kind, message, trace, ()) ↔
      valuesOf "class" ms = [.string kind] ∧ valuesOf "message" ms = [.string message] ∧
        (valuesOf "backtrace" ms = [] ∧ trace = [] ∨
          valuesOf "backtrace" ms = [.array (trace.map .string)]) := by
  refine (Fields.collect_text_cons_iff rfl).trans (and_congr_right' ?_)
  refine (Fields.collect_text_cons_iff rfl).trans (and_congr_right' ?_)
  refine (Fields.collect_cons_eq_some_iff rfl rfl).trans ((and_iff_left rfl).trans ?_)
  exact pick_texts_eq_some_iff

theorem ofBuffered_failure_iff :
    ofBuffered .failure (.object ms) = .ok e ↔
      ∃ kind message trace, failureFields.collect .buffered ms = some (kind, message, trace, ()) ∧
        e = .failure kind message trace := by
  refine Shape.map_ofJson_record_eq_ok_iff.trans ⟨?_, ?_⟩
  · rintro ⟨⟨kind, message, trace, ⟨⟩⟩, hcollect, rfl⟩
    exact ⟨kind, message, trace, hcollect, rfl⟩
  · rintro ⟨kind, message, trace, hcollect, rfl⟩
    exact ⟨_, hcollect, rfl⟩

/-- The names of tags: a failure has two. -/
theorem get?_tags_iff {name : String} {tag : Tag} : Members.get? name tags.choices = some tag ↔
    (name = "success" ∧ tag = .success) ∨
      ((name = "failure" ∨ name = "error") ∧ tag = .failure) := by
  simp only [tags, Members.get?]
  by_cases hsuccess : name = "success"
  · simp [hsuccess, eq_comm]
  · by_cases herror : name = "error"
    · simp [herror, eq_comm]
    · by_cases hfailure : name = "failure" <;> simp [hsuccess, herror, hfailure, eq_comm]

/-- The text of an object is read just if the object says an envelope. -/
theorem parse_eq_ok_iff (h : Json.parse s = .ok (.object ms)) : parse s = .ok e ↔ Says ms e := by
  refine (Tagged.readThen_eq_ok_iff h).trans ⟨?_, ?_⟩
  · rintro ⟨name, tag, hname, htag, htake⟩
    obtain ⟨rfl, rfl⟩ | ⟨hfailure, rfl⟩ := get?_tags_iff.mp htag
    · obtain ⟨j, hj, rfl⟩ := ofBuffered_success_iff.mp htake
      rw [Members.valuesOf_without (by decide)] at hj
      exact .success hname hj
    · obtain ⟨kind, message, trace, hcollect, rfl⟩ := ofBuffered_failure_iff.mp htake
      obtain ⟨hkind, hmessage, htrace⟩ :=
        collect_failure_iff.mp ((Fields.collect_without rfl).symm.trans hcollect)
      exact .failure hname hfailure hkind hmessage htrace
  · intro h
    cases h with
    | success htag hresult =>
      refine ⟨_, .success, htag, rfl, ofBuffered_success_iff.mpr ⟨_, ?_, rfl⟩⟩
      rw [Members.valuesOf_without (by decide)]
      exact hresult
    | failure htag hname hkind hmessage htrace =>
      refine ⟨_, .failure, htag, get?_tags_iff.mpr (.inr ⟨hname, rfl⟩), ?_⟩
      refine ofBuffered_failure_iff.mpr ⟨_, _, _, ?_, rfl⟩
      exact (Fields.collect_without rfl).trans
        (collect_failure_iff.mpr ⟨hkind, hmessage, htrace⟩)

/-- A message that is no envelope breaks the protocol. -/
theorem exists_decode_eq_error (h : ∀ e, decode s ≠ .ok e) :
    ∃ text, decode s = .error (.protocol text) :=
  (exists_mapError_eq_error h).elim fun cause hcause => ⟨cause.message, hcause⟩

/-- An object says the same in any order, and beside members under names that mean nothing to it. -/
theorem Says.congr (h : Says ms e) (hperm : ns.Perm (ms ++ extra))
    (hextra : ∀ m ∈ extra, m.1 ∉ e.names) : Says ns e := by
  have hkept : ∀ {key : String} {js : List Json}, key ∈ e.names → valuesOf key ms = js →
      js.length ≤ 1 → valuesOf key ns = js := fun hkey =>
    Members.valuesOf_of_perm_append hperm fun m hm he => hextra m hm (he ▸ hkey)
  cases h with
  | success htag hresult =>
    exact .success (hkept (by simp [names]) htag (by simp))
      (hkept (by simp [names]) hresult (by simp))
  | failure htag hname hkind hmessage htrace =>
    refine .failure (hkept (by simp [names]) htag (by simp)) hname
      (hkept (by simp [names]) hkind (by simp)) (hkept (by simp [names]) hmessage (by simp)) ?_
    exact htrace.imp (fun h => ⟨hkept (by simp [names]) h.1 (by simp), h.2⟩)
      fun h => hkept (by simp [names]) h (by simp)

/-! ## Written again -/

/-- The result of an envelope is a tree inside the one that it was buffered in. -/
theorem exists_of_ofBuffered {tag : Tag} {j : Json} {result : Value}
    (h : ofBuffered tag j = .ok (.success result)) :
    ∃ k, result = Value.ofJson k ∧ k.depth < j.depth := by
  cases tag with
  | failure =>
    obtain ⟨_, -, h⟩ := (map_eq_ok_iff rfl).mp h
    cases h
  | success =>
    cases j with
    | object ms =>
      obtain ⟨k, hk, heq⟩ := ofBuffered_success_iff.mp h
      cases heq
      have hmem : ("result", k) ∈ ms := Members.mem_of_mem_valuesOf (by rw [hk]; simp)
      exact ⟨k, rfl, Nat.lt_succ_of_le (Json.depth_le_depthMembers hmem)⟩
    | array js =>
      match js with
      | [] => cases h
      | [k] =>
        cases h
        exact ⟨k, rfl, Nat.lt_succ_of_le (Nat.le_max_left ..)⟩
      -- more than one element is one too many
      | k :: k' :: js =>
        rw [ofBuffered] at h
        obtain ⟨_, hclose, -⟩ := (map_eq_ok_iff rfl).mp h
        have hlong := (OfJson.close_eq_ok (toOption_eq_some_iff.mp hclose)).2
        exact absurd hlong (Nat.not_le_of_lt (Nat.succ_lt_succ (Nat.succ_pos js.length)))
    | null | bool _ | number _ | string _ => cases h

/-- The result of an envelope is nested less deeply than the text it was read from may be. -/
theorem depth_lt_of_parse (h : parse s = .ok e) : e.depth < Json.depthLimit := by
  cases e with
  | failure kind message trace => simp [depth, Json.depthLimit]
  | success result =>
    obtain ⟨c, hread, -⟩ := readAll_eq_ok h
    obtain ⟨⟨tag, j⟩, c₁, htagged, htake⟩ := Reading.andThen_eq_ok hread
    have hdepth : j.depth ≤ Json.depthLimit := Tagged.depth_le_of_read htagged
    have htake : ofBuffered tag j = .ok (.success result) := by
      unfold Reading.looseIn at htake
      split at htake
      · next e he =>
        cases htake
        exact he
      · cases htake
    obtain ⟨k, rfl, hk⟩ := exists_of_ofBuffered htake
    have hcanonical := Json.depth_canonical_le k
    show k.canonical.depth < Json.depthLimit
    omega

/-- An envelope that was read is written in a text that is read as the same envelope. -/
theorem decode_encode_of_decode (h : decode s = .ok e) (hd : e.DoubleFree) :
    decode e.encode = .ok e :=
  decode_eq_ok_iff.mpr (parse_encode hd (depth_lt_of_parse (decode_eq_ok_iff.mp h)))

/-- Envelopes that were read have one text each. -/
theorem encode_eq_iff {t : String} {other : Envelope} (h : decode s = .ok e) (hd : e.DoubleFree)
    (ht : decode t = .ok other) (hdt : other.DoubleFree) :
    e.encode = other.encode ↔ e = other := by
  constructor
  · intro heq
    have hback := decode_encode_of_decode h hd
    rw [heq, decode_encode_of_decode ht hdt] at hback
    exact (Except.ok.inj hback).symm
  · rintro rfl
    rfl

/-- A text that is an object is the envelope that its members say, in any order and whatever else
stands among them, and breaks the protocol if they say none. An envelope that was read from any
text at all comes back from the text that it is sent in, and different ones are sent in different
texts. -/
theorem decode_normal (s : String) :
    (∀ ms, Json.IsText s (.object ms) → (Json.object ms).depth ≤ Json.depthLimit →
      (∀ e, decode s = .ok e ↔ Says ms e) ∧
      ((∀ e, ¬ Says ms e) → ∃ text, decode s = .error (.protocol text)) ∧
      ∀ t ns extra e, Json.IsText t (.object ns) → (Json.object ns).depth ≤ Json.depthLimit →
        ns.Perm (ms ++ extra) → decode s = .ok e → (∀ m ∈ extra, m.1 ∉ e.names) →
        decode t = .ok e) ∧
    ∀ e, decode s = .ok e → e.DoubleFree → decode e.encode = .ok e ∧
      ∀ t other, decode t = .ok other → other.DoubleFree →
        (e.encode = other.encode ↔ e = other) := by
  have hiff : ∀ {s ms}, Json.IsText s (.object ms) → (Json.object ms).depth ≤ Json.depthLimit →
      ∀ e, decode s = .ok e ↔ Says ms e := fun h hdepth e =>
    decode_eq_ok_iff.trans (parse_eq_ok_iff (Json.parse_of_isText h hdepth))
  refine ⟨fun ms h hdepth => ⟨hiff h hdepth, fun hnone => ?_, ?_⟩, fun e he hd => ⟨?_, ?_⟩⟩
  · exact exists_decode_eq_error fun e he => hnone e ((hiff h hdepth e).mp he)
  · intro t ns extra e ht htdepth hperm he hextra
    exact (hiff ht htdepth e).mpr (((hiff h hdepth e).mp he).congr hperm hextra)
  · exact decode_encode_of_decode he hd
  · exact fun t other ht hdt => encode_eq_iff he hd ht hdt

/-- A failure that calls itself an error, tells no causes, and says something else as well. -/
def loose : String :=
  "\x7b\"message\": \"m\", \"note\": [ ], \"class\": \"c\", \"type\": \"error\"\x7d"

def looseMembers : List (String × Json) :=
  [("message", .string "m"), ("note", .array []), ("class", .string "c"), ("type", .string "error")]

theorem isText_loose : Json.IsText loose (.object looseMembers) := by
  have hblank : Json.Blank [] ∧ Json.Blank [' '] := by simp [Json.Blank]
  have hmembers : Json.Separated (Json.SpellsMember Json.Spells) looseMembers _ :=
    .more hblank.1 (.mk (Json.spellsString_self (by decide)) hblank.1 hblank.2
      (.string (Json.spellsString_self (by decide)))) hblank.1 <|
    .more hblank.2 (.mk (Json.spellsString_self (by decide)) hblank.1 hblank.2
      (.emptyArray hblank.2)) hblank.1 <|
    .more hblank.2 (.mk (Json.spellsString_self (by decide)) hblank.1 hblank.2
      (.string (Json.spellsString_self (by decide)))) hblank.1 <|
    .one hblank.2 (.mk (Json.spellsString_self (by decide)) hblank.1 hblank.2
      (.string (Json.spellsString_self (by decide)))) hblank.1
  exact ⟨[], _, [], hblank.1, .object hmembers, hblank.1, rfl⟩

theorem decode_loose :
    Json.IsText loose (.object looseMembers) ∧ decode loose = .ok (.failure "c" "m" []) ∧
      decode (encode (.failure "c" "m" [])) = .ok (.failure "c" "m" []) := by
  have hobject := (decode_normal loose).1 looseMembers isText_loose (by decide)
  have hdecode : decode loose = .ok (.failure "c" "m" []) :=
    (hobject.1 _).mpr (.failure rfl (.inr rfl) rfl rfl (.inl ⟨rfl, rfl⟩))
  exact ⟨isText_loose, hdecode, ((decode_normal loose).2 _ hdecode trivial).1⟩

end Envelope

end TaskRelay
