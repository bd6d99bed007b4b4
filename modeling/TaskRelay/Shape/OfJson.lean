import TaskRelay.Shape.Basic

/-!
# Data from a tree

`Shape.ofJson` takes data of a shape from a tree that has been read already, so that its causes
have no place. The tree may be a value, or what was buffered of a text; the only difference is the
wording about a list that is too long.
-/

namespace TaskRelay

/-- Where a tree comes from. -/
inductive Origin where
  | value
  | buffered
deriving DecidableEq, Repr

/-- The complaint about a list of `total` items of which only `taken` are wanted. -/
def Origin.surplus (o : Origin) (total taken : Nat) : Cause :=
  match o with
  | .value => .invalidLength total "fewer elements in array"
  | .buffered => .invalidLength total (Expected.elements taken ++ " in sequence")

/-- The tree is not what was expected. -/
def Json.mismatch {α : Type} (j : Json) (expected : String) : Except Cause α :=
  .error (.invalidType (.ofJson j) expected)

namespace OfJson

variable {α : Type}

/-- Every item, in order. -/
def items (item : Json → Except Cause α) : List Json → Except Cause (List α)
  | [] => .ok []
  | j :: rest =>
    match item j with
    | .error cause => .error cause
    | .ok a => (items item rest).map (a :: ·)

/-- Every member by increasing key; of equal keys the last one counts. -/
def members (value : Json → Except Cause α) :
    List (String × α) → List (String × Json) → Except Cause (List (String × α))
  | done, [] => .ok done
  | done, (key, j) :: rest =>
    match value j with
    | .error cause => .error cause
    | .ok a => members value (Members.insert key a done) rest

/-- Takes members one by one, in order; a member that `take` does not know is refused if the
record is `closed` and passed over otherwise. -/
def fill {σ : Type} (take : σ → String → Json → Option (Except Cause σ)) (closed : Bool)
    (known : List String) : σ → List (String × Json) → Except Cause σ
  | slots, [] => .ok slots
  | slots, (key, j) :: ms =>
    match take slots key j with
    | none =>
      if closed then .error (.unknownField key known) else fill take closed known slots ms
    | some (.error cause) => .error cause
    | some (.ok slots) => fill take closed known slots ms

/-- Ends a list of which `taken` items were wanted. -/
def close (o : Origin) (taken total : Nat) (r : Except Cause α) : Except Cause α :=
  match r with
  | .error cause => .error cause
  | .ok a => if taken < total then .error (o.surplus total taken) else .ok a

end OfJson

/-- The case of a name alone; nothing if there is no case of that name. -/
def Cases.ofName : (cs : Cases) → String → Option (Except Cause cs.Carrier)
  | .nil, _ => none
  | .bare n rest, name =>
    if n = name then some (.ok (.inl ())) else (rest.ofName name).map fun r => r.map .inr
  | .carrying n kind _ rest, name =>
    if n = name then some (.error (.invalidType .unitVariant kind))
    else (rest.ofName name).map fun r => r.map .inr

mutual

/-- Takes data of the shape from a tree. -/
def Shape.ofJson (o : Origin) : (s : Shape) → Json → Except Cause s.Carrier
  | .value, j => .ok (Value.ofJson j)
  | .unit, .null => .ok ()
  | .bool, .bool b => .ok b
  | .int k, .number (.whole n) =>
    match Ranged.ofInt? k n.val with
    | some r => .ok r
    | none => .error (.invalidValue (.number (.whole n)) k.name)
  | .double, .number (.whole n) => .ok (Double.ofInt n.val)
  | .double, .number (.double x) => .ok x
  | .text, .string s => .ok s
  | .char, .string s =>
    match s.toList with
    | [c] => .ok c
    | _ => .error (.invalidValue (.string s) "a character")
  | .option _, .null => .ok none
  | .option s, j => (s.ofJson o j).map some
  | .list s, .array js => OfJson.items (s.ofJson o) js
  | .dict s, .object ms => OfJson.members (s.ofJson o) [] ms
  | .keyed s, .object ms => OfJson.members (s.ofJson o) [] ms
  | .noItems, .array [] => .ok ()
  | .noItems, .array (j :: js) =>
    .error (.invalidLength (j :: js).length "no positional arguments")
  | .noMembers, .object [] => .ok ()
  | .noMembers, .object (m :: ms) =>
    .error (.invalidLength (Members.sort (m :: ms)).length "no keyword arguments")
  | .tuple es, .array js =>
    OfJson.close o es.size js.length (es.ofItems o es.size 0 js)
  | .record label _ fs, .array js =>
    OfJson.close o fs.size js.length (fs.ofItems o (Expected.recordOf label fs.size) 0 js)
  | .record _ closed fs, .object ms =>
    match OfJson.fill (fs.ofMember o) closed fs.names fs.noSlots ms with
    | .error cause => .error cause
    | .ok slots => fs.finish slots
  | .choice cs, .string name =>
    match cs.ofName name with
    | none => .error (.unknownVariant name cs.names)
    | some r => r
  | .choice cs, .object [(name, j)] =>
    match cs.ofMember o name j with
    | none => .error (.unknownVariant name cs.names)
    | some r => r
  | .choice _, .object _ => .error (.invalidValue .map "map with a single key")
  | s, j => j.mismatch s.expected
termination_by structural s => s

/-- Takes the places of a tuple from the front of a list; `index` items are taken already. -/
def Elements.ofItems (o : Origin) (size : Nat) :
    (es : Elements) → (index : Nat) → List Json → Except Cause es.Carrier
  | .nil, _, _ => .ok ()
  | .cons _ _, index, [] => .error (.invalidLength index (Expected.tuple size))
  | .cons s rest, index, j :: js =>
    match s.ofJson o j with
    | .error cause => .error cause
    | .ok v => (rest.ofItems o size (index + 1) js).map (v, ·)
termination_by structural es => es

/-- Takes the fields of a record from the front of a list. -/
def Fields.ofItems (o : Origin) (label : String) :
    (fs : Fields) → (index : Nat) → List Json → Except Cause fs.Carrier
  | .nil, _, _ => .ok ()
  | .cons f s rest, index, [] =>
    match f.beyond? s with
    | none => .error (.invalidLength index label)
    | some v => (rest.ofItems o label (index + 1) []).map (v, ·)
  | .cons _ s rest, index, j :: js =>
    match s.ofJson o j with
    | .error cause => .error cause
    | .ok v => (rest.ofItems o label (index + 1) js).map (v, ·)
termination_by structural fs => fs

/-- Takes one member into the slot of its field; nothing if no field has that name. -/
def Fields.ofMember (o : Origin) :
    (fs : Fields) → fs.Slots → String → Json → Option (Except Cause fs.Slots)
  | .nil, _, _, _ => none
  | .cons f s rest, (slot, slots), key, j =>
    if f.answersTo key then
      match slot with
      | some _ => some (.error (.duplicateField f.name))
      | none => some ((s.ofJson o j).map fun v => (some v, slots))
    else (rest.ofMember o slots key j).map fun r => r.map fun slots => (slot, slots)
termination_by structural fs => fs

/-- The case of a name with data. -/
def Cases.ofMember (o : Origin) :
    (cs : Cases) → String → Json → Option (Except Cause cs.Carrier)
  | .nil, _, _ => none
  | .bare n rest, name, j =>
    if n = name then
      some (match j with
        | .null => .ok (.inl ())
        | j => j.mismatch Shape.unit.expected)
    else (rest.ofMember o name j).map fun r => r.map .inr
  | .carrying n _ s rest, name, j =>
    if n = name then some ((s.ofJson o j).map .inl)
    else (rest.ofMember o name j).map fun r => r.map .inr
termination_by structural cs => cs

end

end TaskRelay
