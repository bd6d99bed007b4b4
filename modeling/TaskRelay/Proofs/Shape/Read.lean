import TaskRelay.Proofs.Json.RoundTrip
import TaskRelay.Shape.Read

/-!
# Data of a shape is read as it was written

Reading data of a shape follows the kind of what stands in the text (`Reading.byKind`). For each
kind that messages are made of there is one lemma: texts, names of cases, lists and records. The
data of a record is collected in slots, member by member (`Fields.takeMember`), and taken out of
them at the end.
-/

namespace TaskRelay

/-! ## By kind -/

namespace Reading

variable {α : Type} {list object : Cursor → Reading α} {scalar : Json → Except Cause α}
  {text rest : List Char} {a : α} {j : Json} {m : Malformed}

theorem reads_byKind_object (h : Reads object ('{' :: text) a rest) :
    Reads (byKind list object scalar) ('{' :: text) a rest := fun p => h p

theorem refuses_byKind_object (h : Refuses object ('{' :: text) m) :
    Refuses (byKind list object scalar) ('{' :: text) m := fun p => h p

theorem reads_byKind_scalar (hj : Scalar.IsScalar j) (hd : j.DoubleFree) (hrest : Follows rest)
    (ha : scalar j = .ok a) : Reads (byKind list object scalar) (j.write rest) a rest := by
  obtain ⟨x, more, htext, hblank, -, hx⟩ := exists_write_eq_cons hd rest
  have hread := Scalar.read_write hj hd hrest
  rw [htext] at hread ⊢
  intro p
  obtain ⟨q, hq⟩ := hread p
  refine ⟨q, ?_⟩
  unfold byKind
  rw [Cursor.skipBlank_cons hblank]
  dsimp only
  split
  · next h => exact absurd (List.cons.inj h).1 (hx hj).1
  · next h => exact absurd (List.cons.inj h).1 (hx hj).2
  · simp only [hq, andThen, ha]

end Reading

/-- Text is read as it was written. -/
theorem Shape.reads_text (s : String) {rest : List Char} (hrest : Follows rest) (limit : Nat) :
    Reads (Shape.text.read limit) (Json.writeString s rest) s rest :=
  Reading.reads_byKind_scalar (j := .string s) trivial trivial hrest rfl

/-! ## Shapes -/

namespace Shape

variable {limit : Nat} {rest : List Char}

/-- The name of a case is read as that case. -/
theorem reads_name {cs : Cases} {name : String} {v : cs.Carrier}
    (hname : cs.names.contains name = true) (hcase : cs.ofName name = some (.ok v))
    (rest : List Char) :
    Reads ((Shape.choice cs).read limit) (Json.writeString name rest) v rest := by
  intro p
  obtain ⟨q, hq⟩ := Scalar.string_writeString name rest p
  refine ⟨q, ?_⟩
  show ((cs.readName ⟨Json.writeString name rest, p⟩).andThen fun name c =>
    Reading.looseIn ((cs.ofName name).getD (.error (.unknownVariant name cs.names))) c) = _
  unfold Cases.readName
  simp only [hq, Reading.andThen, hname, if_true, hcase, Option.getD_some, Reading.looseIn]
  rfl

/-- A list is read if its items are. -/
theorem reads_list {s : Shape} {js : List Json} {vs : List s.Carrier}
    (h : TakesItems (s.read limit) js vs) :
    Reads ((Shape.list s).read (limit + 1)) ((Json.array js).write rest) vs rest := by
  obtain ⟨text, htext, hread⟩ := h.exists_text rest
  rw [htext]
  exact fun p => hread.inList p

end Shape

/-- Reads one member of an object into the slots of a record. -/
def Fields.takeMember (fs : Fields) (closed : Bool) (limit : Nat) (slots : fs.Slots) (key : String)
    (c : Cursor) : Reading fs.Slots :=
  match fs.readMember limit slots key c with
  | some r => r
  | none =>
    if closed then .error (.loose (.unknownField key fs.names) c)
    else c.colon.andThen fun _ c => (Json.skip c).map fun _ => slots

/-- A record is read from an object whose members fill its slots. -/
theorem Shape.reads_record (fs : Fields) (slots : fs.Slots) {label : String} {closed : Bool}
    {limit : Nat} {ms : List (String × Json)} {v : fs.Carrier} {rest : List Char}
    (htakes : Takes (fs.takeMember closed limit) fs.noSlots ms slots)
    (hfinish : fs.finish slots = .ok v) :
    Reads ((Shape.record label closed fs).read (limit + 1)) ((Json.object ms).write rest) v
      rest := by
  obtain ⟨text, htext, hread⟩ := htakes.exists_text rest
  have hbody : Reads
      (fun c => (Reading.entries .keep (fs.takeMember closed limit) fs.noSlots c).andThen
        fun slots c => Reading.looseIn (fs.finish slots) c) text v ('}' :: rest) :=
    hread.andThen fun p => ⟨p, by simp only [Reading.looseIn, hfinish]⟩
  rw [htext]
  exact fun p => hbody.inObject p

/-! ## Small data -/

/-- A tuple of one is read from a list of one item. -/
theorem Shape.reads_single {s : Shape} {j : Json} {v : s.Carrier} {limit : Nat}
    (hd : j.DoubleFree) (h : ∀ rest, Follows rest → Reads (s.read limit) (j.write rest) v rest)
    (rest : List Char) :
    Reads ((Shape.tuple (.cons s .nil)).read (limit + 1)) ((Json.array [j]).write rest) (v, ())
      rest := by
  have hitems : Reads ((Elements.cons s .nil).readItems 1 limit 0) (j.write (']' :: rest)) (v, ())
      (']' :: rest) := by
    have hread := h (']' :: rest) follows_bracket
    exact (Cursor.nextItem_write hd).andThen (hread.andThen (b := (v, ())) fun p => ⟨p, rfl⟩)
  exact fun p => hitems.inList p

/-- The empty object has no members. -/
theorem Shape.reads_noMembers (limit : Nat) (rest : List Char) :
    Reads (Shape.noMembers.read (limit + 1)) ((Json.object []).write rest) () rest :=
  fun _ => ⟨_, rfl⟩

/-- A number is taken as an integer of a range that it is in. -/
theorem Shape.ofJson_int {o : Origin} {k : IntKind} {n : Whole} {r : Ranged k}
    (h : Ranged.ofInt? k n.val = some r) :
    (Shape.int k).ofJson o (.number (.whole n)) = .ok r := by
  conv => lhs; whnf
  rw [h]

end TaskRelay
