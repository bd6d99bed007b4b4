import TaskRelay.Shape.Basic

/-!
# Data to a tree

`Shape.toJson` writes data of a shape as a tree: fields in the order of the record, all of them.
Only one thing cannot be written: entries whose keys are no texts. A record may also be written
sparsely (`Fields.toSetMembers`).
-/

namespace TaskRelay

/-- Why data cannot be written. -/
inductive EncodeError where
  | keyNotString
deriving DecidableEq, Repr

def EncodeError.message : EncodeError → String
  | .keyNotString => Malformed.keyNotString.message

namespace ToJson

variable {α : Type}

/-- Every item, in order. -/
def items (item : α → Except EncodeError Json) : List α → Except EncodeError (List Json)
  | [] => .ok []
  | a :: rest =>
    match item a with
    | .error e => .error e
    | .ok j => (items item rest).map (j :: ·)

/-- Every entry, in order. -/
def members (value : α → Except EncodeError Json) :
    List (String × α) → Except EncodeError (List (String × Json))
  | [] => .ok []
  | (key, a) :: rest =>
    match value a with
    | .error e => .error e
    | .ok j => (members value rest).map ((key, j) :: ·)

end ToJson

/-- A double as a tree; one that is no finite number is written as `null`. -/
def Double.toJson (x : Double) : Json := if x.isFinite then .number (.double x) else .null

mutual

/-- Writes data of the shape as a tree. -/
def Shape.toJson : (s : Shape) → s.Carrier → Except EncodeError Json
  | .value, v => .ok v.tree
  | .unit, () => .ok .null
  | .bool, b => .ok (.bool b)
  | .int _, r => .ok r.toJson
  | .double, x => .ok x.toJson
  | .text, s => .ok (.string s)
  | .char, c => .ok (.string (String.singleton c))
  | .option _, none => .ok .null
  | .option s, some v => s.toJson v
  | .list s, vs => (ToJson.items s.toJson vs).map .array
  | .dict s, ms => (ToJson.members s.toJson ms).map .object
  | .keyed _, [] => .ok (.object [])
  | .keyed _, _ :: _ => .error .keyNotString
  | .noItems, () => .ok (.array [])
  | .noMembers, () => .ok (.object [])
  | .tuple es, v => (es.toItems v).map .array
  | .record _ _ fs, v => (fs.toMembers v).map .object
  | .choice cs, v => cs.toJson v
termination_by structural s => s

def Elements.toItems : (es : Elements) → es.Carrier → Except EncodeError (List Json)
  | .nil, () => .ok []
  | .cons s rest, (v, vs) =>
    match s.toJson v with
    | .error e => .error e
    | .ok j => (rest.toItems vs).map (j :: ·)
termination_by structural es => es

def Fields.toMembers : (fs : Fields) → fs.Carrier → Except EncodeError (List (String × Json))
  | .nil, () => .ok []
  | .cons f s rest, (v, vs) =>
    match s.toJson v with
    | .error e => .error e
    | .ok j => (rest.toMembers vs).map ((f.name, j) :: ·)
termination_by structural fs => fs

def Cases.toJson : (cs : Cases) → cs.Carrier → Except EncodeError Json
  | .nil, v => nomatch v
  | .bare name _, .inl () => .ok (.string name)
  | .bare _ rest, .inr v => rest.toJson v
  | .carrying name _ s _, .inl v => (s.toJson v).map fun j => .object [(name, j)]
  | .carrying _ _ _ rest, .inr v => rest.toJson v
termination_by structural cs => cs

end

/-- The members of a record that is written sparsely: optional data that is absent is left out. -/
def Fields.toSetMembers : (fs : Fields) → fs.Carrier → Except EncodeError (List (String × Json))
  | .nil, () => .ok []
  | .cons _ (.option _) rest, (none, vs) => rest.toSetMembers vs
  | .cons f s rest, (v, vs) =>
    match s.toJson v with
    | .error e => .error e
    | .ok j => (rest.toSetMembers vs).map ((f.name, j) :: ·)

/-- The value of data, with sorted keys. -/
def Shape.toValue (s : Shape) (v : s.Carrier) : Except EncodeError Value :=
  (s.toJson v).map Value.ofJson

end TaskRelay
