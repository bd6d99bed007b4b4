import TaskRelay.Json.Reader

/-!
# Shapes of data

A `Shape` describes what arguments and results look like as JSON; `Shape.Carrier` is the type of
the data that it describes. Reading from a text (`Shape.read`), taking from a value
(`Shape.ofJson`) and writing (`Shape.toJson`) are each defined once, by recursion on the shape, so
that no type of data needs a reader and a writer of its own.
-/

namespace TaskRelay

/-! ### Integers of a range -/

/-- A range of integers, with the name that messages give it. -/
structure IntKind where
  name : String
  least : Int
  greatest : Int
  ge_min : -(1 <<< 63) ≤ least
  lt_max : greatest < 1 <<< 64
  least_le_zero : least ≤ 0
  zero_le_greatest : 0 ≤ greatest

namespace IntKind

def int8 : IntKind := ⟨"i8", -128, 127, by decide, by decide, by decide, by decide⟩
def int32 : IntKind :=
  ⟨"i32", -(1 <<< 31), (1 <<< 31) - 1, by decide, by decide, by decide, by decide⟩
def int64 : IntKind :=
  ⟨"i64", -(1 <<< 63), (1 <<< 63) - 1, by decide, by decide, Whole.min_le_zero, by decide⟩
def uint8 : IntKind := ⟨"u8", 0, 255, Whole.min_le_zero, by decide, by decide, by decide⟩
def uint16 : IntKind := ⟨"u16", 0, 65535, Whole.min_le_zero, by decide, by decide, by decide⟩

/-- Counts: as many as a machine word of 64 bits holds. -/
def size : IntKind :=
  ⟨"usize", 0, (1 <<< 64) - 1, Whole.min_le_zero, by decide, by decide, by decide⟩

end IntKind

/-- An integer of a range. -/
@[ext] structure Ranged (k : IntKind) where
  val : Int
  ge_least : k.least ≤ val
  le_greatest : val ≤ k.greatest
deriving DecidableEq

namespace Ranged

variable {k : IntKind}

def ofInt? (k : IntKind) (i : Int) : Option (Ranged k) :=
  if h : k.least ≤ i ∧ i ≤ k.greatest then some ⟨i, h.1, h.2⟩ else none

def zero : Ranged k := ⟨0, k.least_le_zero, k.zero_le_greatest⟩

instance : Inhabited (Ranged k) := ⟨zero⟩

/-- Every range fits the exact numbers of JSON. -/
def whole (r : Ranged k) : Whole :=
  ⟨r.val, Int.le_trans k.ge_min r.ge_least, Int.lt_of_le_of_lt r.le_greatest k.lt_max⟩

def toJson (r : Ranged k) : Json := .number (.whole r.whole)

theorem ofInt?_val (r : Ranged k) : ofInt? k r.val = some r := by
  simp [ofInt?, r.ge_least, r.le_greatest]

end Ranged

/-! ### Shapes -/

/-- A field of a record. -/
structure Field where
  name : String
  /-- Further names under which the field is read. -/
  aliases : List String
  /-- Whether the field may be left out, and is then blank. -/
  defaulted : Bool
deriving DecidableEq, Repr

namespace Field

/-- A field under one name that has to be there. -/
def required (name : String) : Field := ⟨name, [], false⟩

/-- A field under one name that is blank when it is left out. -/
def blankable (name : String) : Field := ⟨name, [], true⟩

def answersTo (f : Field) (key : String) : Bool := f.name = key || f.aliases.contains key

end Field

mutual

/-- What data looks like as JSON. -/
inductive Shape where
  /-- Any value at all. -/
  | value
  /-- Nothing but `null`. -/
  | unit
  | bool
  | int (k : IntKind)
  | double
  | text
  /-- A text of one character. -/
  | char
  /-- `null`, or data of a shape that is not `null`. -/
  | option (s : Shape)
  | list (s : Shape)
  /-- An object with any keys. -/
  | dict (s : Shape)
  /-- Entries that are read from an object but have no texts for keys: they cannot be written,
  unless there are none. -/
  | keyed (s : Shape)
  /-- The empty list. -/
  | noItems
  /-- The empty object. -/
  | noMembers
  /-- A list with one shape for each place. -/
  | tuple (es : Elements)
  /-- An object with known fields, or their values in a list. `label` is what messages call it. A
  closed record has no other fields. -/
  | record (label : String) (closed : Bool) (fs : Fields)
  /-- One of some named cases: a name alone, or an object from the name to the data. -/
  | choice (cs : Cases)

/-- The places of a tuple. -/
inductive Elements where
  | nil
  | cons (s : Shape) (rest : Elements)

/-- The fields of a record. -/
inductive Fields where
  | nil
  | cons (f : Field) (s : Shape) (rest : Fields)

/-- The cases of a choice. -/
inductive Cases where
  | nil
  /-- A case without data. -/
  | bare (name : String) (rest : Cases)
  /-- A case with data; `kind` is what messages call a case with such data. -/
  | carrying (name kind : String) (s : Shape) (rest : Cases)

end

/-! ### The data of a shape -/

mutual

/-- The type of the data that a shape describes. -/
def Shape.Carrier : Shape → Type
  | .value => Value
  | .unit => Unit
  | .bool => Bool
  | .int k => Ranged k
  | .double => Double
  | .text => String
  | .char => Char
  | .option s => Option s.Carrier
  | .list s => List s.Carrier
  | .dict s => List (String × s.Carrier)
  | .keyed s => List (String × s.Carrier)
  | .noItems => Unit
  | .noMembers => Unit
  | .tuple es => es.Carrier
  | .record _ _ fs => fs.Carrier
  | .choice cs => cs.Carrier

def Elements.Carrier : Elements → Type
  | .nil => Unit
  | .cons s rest => s.Carrier × rest.Carrier

def Fields.Carrier : Fields → Type
  | .nil => Unit
  | .cons _ s rest => s.Carrier × rest.Carrier

def Cases.Carrier : Cases → Type
  | .nil => Empty
  | .bare _ rest => Unit ⊕ rest.Carrier
  | .carrying _ _ s rest => s.Carrier ⊕ rest.Carrier

end

/-- What has been read of each field. -/
def Fields.Slots : Fields → Type
  | .nil => Unit
  | .cons _ s rest => Option s.Carrier × rest.Slots

/-- Nothing has been read. -/
def Fields.noSlots : (fs : Fields) → fs.Slots
  | .nil => ()
  | .cons _ _ rest => (none, rest.noSlots)

def Fields.names : Fields → List String
  | .nil => []
  | .cons f _ rest => f.name :: rest.names

def Elements.size : Elements → Nat
  | .nil => 0
  | .cons _ rest => rest.size + 1

def Fields.size : Fields → Nat
  | .nil => 0
  | .cons _ _ rest => rest.size + 1

def Cases.names : Cases → List String
  | .nil => []
  | .bare name rest => name :: rest.names
  | .carrying name _ _ rest => name :: rest.names

mutual

/-- The blank data of a shape: zero, empty or absent. A choice has none. -/
def Shape.blank? : (s : Shape) → Option s.Carrier
  | .value => some Value.null
  | .unit => some ()
  | .bool => some false
  | .int _ => some Ranged.zero
  | .double => some (Double.ofNat 0)
  | .text => some ""
  | .char => some '\x00'
  | .option _ => some none
  | .list _ => some []
  | .dict _ => some []
  | .keyed _ => some []
  | .noItems => some ()
  | .noMembers => some ()
  | .tuple es => es.blank?
  | .record _ _ fs => fs.blank?
  | .choice _ => none

def Elements.blank? : (es : Elements) → Option es.Carrier
  | .nil => some ()
  | .cons s rest => do return (← s.blank?, ← rest.blank?)

def Fields.blank? : (fs : Fields) → Option fs.Carrier
  | .nil => some ()
  | .cons _ s rest => do return (← s.blank?, ← rest.blank?)

end

/-- The data of a field that an object leaves out, if it may: optional data is then absent. -/
def Field.absent? (f : Field) : (s : Shape) → Option s.Carrier
  | .option _ => some none
  | s => if f.defaulted then s.blank? else none

/-- The data of a field that a list is too short for, if the field may be left out. -/
def Field.beyond? (f : Field) (s : Shape) : Option s.Carrier :=
  if f.defaulted then s.blank? else none

/-- The data of a record of which the slots have been read. -/
def Fields.finish : (fs : Fields) → fs.Slots → Except Cause fs.Carrier
  | .nil, () => .ok ()
  | .cons f s rest, (slot, slots) =>
    match slot.or (f.absent? s) with
    | none => .error (.missingField f.name)
    | some v => (rest.finish slots).map (v, ·)

/-! ### What messages say is expected -/

namespace Expected

/-- A count with its noun, in the singular where that is due. -/
def elements (n : Nat) : String := toString n ++ (if n = 1 then " element" else " elements")

def tuple (n : Nat) : String := "a tuple of size " ++ toString n

/-- A record with its number of fields, for a list that does not have as many. -/
def recordOf (label : String) (n : Nat) : String := label ++ " with " ++ elements n

end Expected

/-- What messages say when data of the shape was expected. -/
def Shape.expected : Shape → String
  | .value => "any valid JSON value"
  | .unit => "unit"
  | .bool => "a boolean"
  | .int k => k.name
  | .double => "f64"
  | .text => "a string"
  | .char => "a character"
  | .option _ => "option"
  | .list _ => "a sequence"
  | .dict _ => "a map"
  | .keyed _ => "a map"
  | .noItems => "a sequence"
  | .noMembers => "a map"
  | .tuple es => Expected.tuple es.size
  | .record label _ _ => label
  | .choice _ => "string or map"

end TaskRelay
