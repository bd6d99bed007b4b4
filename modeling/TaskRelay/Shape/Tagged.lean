import TaskRelay.Shape.Read

/-!
# Objects that name their kind

Messages are objects with a member `type` that says which kind of message they are. The member may
stand anywhere, so such an object is buffered as a whole while its tag is looked for
(`Tagged.read`), and only then taken apart according to the tag. What is wrong with the object as
such has a place in the text; what is wrong with the members of its kind has none any more.

A list is read too: the tag first, then the fields in order.
-/

namespace TaskRelay

/-- The tags of a kind of message, each with what it stands for. -/
structure Tags (τ : Type) where
  /-- What messages call such an object. -/
  label : String
  choices : List (String × τ)

namespace Tagged

variable {τ : Type}

/-- The member that holds the tag. -/
def key : String := "type"

/-- Reads a tag. -/
def readTag (tags : Tags τ) : Cursor → Reading τ :=
  Reading.byKind (Reading.refuse .sequence "variant identifier")
    (Reading.refuse .map "variant identifier")
    fun
    | .string name =>
      match Members.get? name tags.choices with
      | some tag => .ok tag
      | none => .error (.unknownVariant name (tags.choices.map Prod.fst))
    | j => j.mismatch "variant identifier"

/-- Reads the items of a list, the tag first. -/
def readList (tags : Tags τ) (depth : Nat) (c : Cursor) : Reading (τ × Json) :=
  (c.nextItem .keep true).andThen fun more c =>
    if more then
      (readTag tags c).andThen fun tag c =>
      (Reading.itemsFrom .keep (Json.read depth) c.bound false [] c).map
        fun rest => (tag, .array rest)
    else .error (.loose (.missingField key) c)

/-- Reads one member of an object: its tag, or a member to keep. -/
def readMember (tags : Tags τ) (depth : Nat) (found : Option τ × List (String × Json))
    (name : String) (c : Cursor) : Reading (Option τ × List (String × Json)) :=
  if name = key then
    match found.1 with
    | some _ => .error (.loose (.duplicateField key) c)
    | none => c.colon.andThen fun _ c => (readTag tags c).map fun tag => (some tag, found.2)
  else (Json.keepMember (Json.read depth) found.2 name c).map fun done => (found.1, done)

/-- Reads the members of an object with a tag among them. -/
def readObject (tags : Tags τ) (depth : Nat) (c : Cursor) : Reading (τ × Json) :=
  (Reading.entries .keep (readMember tags depth) (none, []) c).andThen fun found c =>
    match found.1 with
    | some tag => .ok ((tag, .object found.2.reverse), c)
    | none => .error (.loose (.missingField key) c)

/-- Reads a tag and the tree of what belongs to it. -/
def read (tags : Tags τ) (depth : Nat) : Cursor → Reading (τ × Json) :=
  Reading.byKind (Reading.opening depth fun depth => Reading.inList (readList tags depth))
    (Reading.opening depth fun depth => Reading.inObject (readObject tags depth))
    fun j => j.mismatch tags.label

/-- Takes what belongs to a kind without fields: any object, or the empty list. -/
def ofEmpty : Json → Except Cause Unit
  | .array js => OfJson.close .buffered 0 js.length (.ok ())
  | _ => .ok ()

/-- Reads a tagged object and takes its fields. Causes in the fields have no place. -/
def readThen {α : Type} (tags : Tags τ) (take : τ → Json → Except Cause α) (c : Cursor) :
    Reading α :=
  (read tags Json.depthLimit c).andThen fun found c => Reading.looseIn (take found.1 found.2) c

end Tagged

end TaskRelay
