import TaskRelay.Shape.OfJson

/-!
# Data from a text

`Shape.read` reads data of a shape straight from a text, so that the first thing that is wrong, in
the order of the text, is what it reports, with its place. What follows is not looked at.

A scalar is read first and then taken as data of the shape (`Shape.ofJson`); a wrong one is
reported behind it. A list or an object where none is expected is reported in front of it.
-/

namespace TaskRelay

namespace Reading

variable {α : Type}

/-- Reads on according to whether a list, an object or a scalar follows. -/
def byKind (list object : Cursor → Reading α) (scalar : Json → Except Cause α) (c : Cursor) :
    Reading α :=
  let c := c.skipBlank
  match c.rest with
  | '[' :: _ => list c
  | '{' :: _ => object c
  | _ =>
    (Scalar.read c).andThen fun j c =>
      match scalar j with
      | .ok a => .ok (a, c)
      | .error cause => .error (.placed cause c.position)

/-- What stands at the cursor is not what was expected. -/
def refuse (found : Found) (expected : String) (c : Cursor) : Reading α :=
  .error (.placed (.invalidType found expected) c.position)

/-- Opens one more container, if `depth` allows. -/
def opening (depth : Nat) (go : Nat → Cursor → Reading α) (c : Cursor) : Reading α :=
  match depth with
  | 0 => tooDeep c
  | depth + 1 => go depth c

/-- A cause whose place is the end of the enclosing container. -/
def looseIn (r : Except Cause α) (c : Cursor) : Reading α :=
  match r with
  | .ok a => .ok (a, c)
  | .error cause => .error (.loose cause c)

/-- Reads data of a shape that is neither a list nor an object. -/
def scalar (s : Shape) : Cursor → Reading s.Carrier :=
  byKind (refuse .sequence s.expected) (refuse .map s.expected) (s.ofJson .value)

end Reading

/-- The name of a case, from its opening quote on. -/
def Cases.readName (cs : Cases) (c : Cursor) : Reading String :=
  (Scalar.string .keep c).andThen fun name c =>
    if cs.names.contains name then .ok (name, c)
    else .error (.placed (.unknownVariant name cs.names) c.position)

/-- Goes over the brace behind the data of a case. -/
def Cases.endCase (c : Cursor) : Reading Unit :=
  let c := c.skipBlank
  match c.rest with
  | '}' :: _ => .ok ((), c.next)
  | [] => .error (.malformed .endInObject c.position)
  | _ :: _ => .error (.malformed .expectedValue c.position)

mutual

/-- Reads data of the shape, in which `depth` containers may be open at once. -/
def Shape.read : (s : Shape) → (depth : Nat) → Cursor → Reading s.Carrier
  | .value, depth, c => (Json.read depth c).map Value.ofJson
  | .option s, depth, c =>
    let c := c.skipBlank
    if c.rest.head? = some 'n' then (Scalar.read c).map fun _ => none
    else (s.read depth c).map some
  | .list s, depth, c =>
    Reading.byKind
      (Reading.opening depth fun depth => Reading.inList (Reading.items .keep (s.read depth)))
      (Reading.refuse .map (Shape.list s).expected) (fun j => j.mismatch (Shape.list s).expected) c
  | .dict s, depth, c =>
    Reading.byKind (Reading.refuse .sequence (Shape.dict s).expected)
      (Reading.opening depth fun depth => Reading.inObject (Reading.entries .keep
        (fun done key c => c.colon.andThen fun _ c =>
          (s.read depth c).map fun v => Members.insert key v done) []))
      (fun j => j.mismatch (Shape.dict s).expected) c
  | .keyed s, depth, c =>
    Reading.byKind (Reading.refuse .sequence (Shape.keyed s).expected)
      (Reading.opening depth fun depth => Reading.inObject (Reading.entries .keep
        (fun done key c => c.colon.andThen fun _ c =>
          (s.read depth c).map fun v => Members.insert key v done) []))
      (fun j => j.mismatch (Shape.keyed s).expected) c
  | .noItems, depth, c =>
    (Reading.byKind
      (Reading.opening depth fun _ => Reading.inList (Reading.items .keep Json.skip))
      (Reading.refuse .map Shape.noItems.expected) (fun j => j.mismatch Shape.noItems.expected)
      c).andThen fun passed c =>
        if passed.isEmpty then .ok ((), c)
        else .error (.loose (.invalidLength passed.length "no positional arguments") c)
  | .noMembers, depth, c =>
    (Reading.byKind (Reading.refuse .sequence Shape.noMembers.expected)
      (Reading.opening depth fun _ => Reading.inObject (Reading.entries .keep
        (fun done key c => c.colon.andThen fun _ c =>
          (Json.skip c).map fun _ => Members.insert key () done) []))
      (fun j => j.mismatch Shape.noMembers.expected) c).andThen fun passed c =>
        if passed.isEmpty then .ok ((), c)
        else .error (.loose (.invalidLength passed.length "no keyword arguments") c)
  | .tuple es, depth, c =>
    Reading.byKind
      (Reading.opening depth fun depth => Reading.inList (es.readItems es.size depth 0))
      (Reading.refuse .map (Shape.tuple es).expected)
      (fun j => j.mismatch (Shape.tuple es).expected) c
  | .record label closed fs, depth, c =>
    Reading.byKind
      (Reading.opening depth fun depth =>
        Reading.inList (fs.readItems (Expected.recordOf label fs.size) depth 0))
      (Reading.opening depth fun depth => Reading.inObject fun c =>
        (Reading.entries .keep (fun slots key c =>
          match fs.readMember depth slots key c with
          | some r => r
          | none =>
            if closed then .error (.loose (.unknownField key fs.names) c)
            else c.colon.andThen fun _ c => (Json.skip c).map fun _ => slots)
          fs.noSlots c).andThen fun slots c => Reading.looseIn (fs.finish slots) c)
      (fun j => j.mismatch label) c
  | .choice cs, depth, c =>
    let c := c.skipBlank
    match c.rest with
    | [] => .error (.malformed .endInValue c.position)
    | '"' :: _ =>
      (cs.readName c).andThen fun name c =>
        Reading.looseIn ((cs.ofName name).getD (.error (.unknownVariant name cs.names))) c
    | '{' :: _ =>
      Reading.opening depth (fun depth c =>
        (c.next.nextKey .keep true).andThen fun more c =>
          if more then
            (cs.readName c).andThen fun name c =>
            c.colon.andThen fun _ c =>
            (cs.readData depth name c).andThen fun v c =>
            (Cases.endCase c).map fun _ => v
          else .error (.malformed .expectedValue c.peek)) c
    | _ :: _ => .error (.malformed .expectedValue c.peek)
  | .unit, _, c => Reading.scalar .unit c
  | .bool, _, c => Reading.scalar .bool c
  | .int k, _, c => Reading.scalar (.int k) c
  | .double, _, c => Reading.scalar .double c
  | .text, _, c => Reading.scalar .text c
  | .char, _, c => Reading.scalar .char c
termination_by structural s => s

/-- Reads the places of a tuple; `index` of them are read already. -/
def Elements.readItems (size : Nat) :
    (es : Elements) → (depth index : Nat) → Cursor → Reading es.Carrier
  | .nil, _, _, c => .ok ((), c)
  | .cons s rest, depth, index, c =>
    (c.nextItem .keep (index = 0)).andThen fun more c =>
      if more then
        (s.read depth c).andThen fun v c =>
        (rest.readItems size depth (index + 1) c).map (v, ·)
      else .error (.loose (.invalidLength index (Expected.tuple size)) c)
termination_by structural es => es

/-- Reads the fields of a record from a list. -/
def Fields.readItems (label : String) :
    (fs : Fields) → (depth index : Nat) → Cursor → Reading fs.Carrier
  | .nil, _, _, c => .ok ((), c)
  | .cons f s rest, depth, index, c =>
    (c.nextItem .keep (index = 0)).andThen fun more c =>
      if more then
        (s.read depth c).andThen fun v c =>
        (rest.readItems label depth (index + 1) c).map (v, ·)
      else
        match f.beyond? s with
        | none => .error (.loose (.invalidLength index label) c)
        | some v => (rest.readItems label depth (index + 1) c).map (v, ·)
termination_by structural fs => fs

/-- Reads one member into the slot of its field, from behind its key; nothing if no field has that
name. -/
def Fields.readMember :
    (fs : Fields) → (depth : Nat) → fs.Slots → String → Cursor → Option (Reading fs.Slots)
  | .nil, _, _, _, _ => none
  | .cons f s rest, depth, (slot, slots), key, c =>
    if f.answersTo key then
      match slot with
      | some _ => some (.error (.loose (.duplicateField f.name) c))
      | none =>
        some (c.colon.andThen fun _ c => (s.read depth c).map fun v => (some v, slots))
    else
      (rest.readMember depth slots key c).map fun r =>
        Reading.map (fun slots => (slot, slots)) r
termination_by structural fs => fs

/-- Reads the data of a case behind its name. -/
def Cases.readData :
    (cs : Cases) → (depth : Nat) → String → Cursor → Reading cs.Carrier
  | .nil, _, name, c => .error (.placed (.unknownVariant name []) c.position)
  | .bare n rest, depth, name, c =>
    if n = name then Reading.map .inl (Reading.scalar .unit c)
    else Reading.map .inr (rest.readData depth name c)
  | .carrying n _ s rest, depth, name, c =>
    if n = name then Reading.map .inl (s.read depth c)
    else Reading.map .inr (rest.readData depth name c)
termination_by structural cs => cs

end

/-- Data of a shape from a whole text. -/
def Shape.parse (s : Shape) (t : String) : Except DecodeError s.Carrier :=
  readAll (s.read Json.depthLimit) t

end TaskRelay
