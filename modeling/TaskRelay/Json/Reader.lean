import TaskRelay.Json.Scalar

/-!
# Reading lists, objects and whole values

A container is read entry by entry: `nextItem` and `nextKey` find out whether there is another
entry, `items` and `entries` repeat that, and `inList` and `inObject` take care of the brackets.
They do not know what an entry is, so that untyped values (`Json.read`), skipped values
(`Json.skip`) and values of a known shape are all read with them.

A text may nest `Json.depthLimit` containers; a skipped value may nest any number.
-/

namespace TaskRelay

/-! ### Between entries -/

namespace Cursor

/-- Goes to the next item of a list, or stops in front of the closing bracket. A skipped list
reports a comma in front of the bracket as the missing value that it is. -/
def nextItem (mode : Mode) (first : Bool) (c : Cursor) : Reading Bool :=
  let c := c.skipBlank
  match c.rest with
  | [] => .error (.malformed .endInList c.position)
  | ']' :: _ => .ok (false, c)
  | x :: _ =>
    if first then .ok (true, c)
    else if x = ',' then
      let c := c.next.skipBlank
      match c.rest, mode with
      | [], _ => .error (.malformed .endInValue c.position)
      | ']' :: _, .keep => .error (.malformed .trailingComma c.peek)
      | ']' :: _, .skip => .error (.malformed .expectedValue c.peek)
      | _ :: _, _ => .ok (true, c)
    else .error (.malformed .expectedListCommaOrEnd c.peek)

/-- Goes to the opening quote of the next key of an object, or stops in front of the closing
brace. -/
def nextKey (mode : Mode) (first : Bool) (c : Cursor) : Reading Bool :=
  let c := c.skipBlank
  match c.rest with
  | [] => .error (.malformed .endInObject c.position)
  | '}' :: _ => .ok (false, c)
  | x :: _ =>
    if first then
      if x = '"' then .ok (true, c) else .error (.malformed .keyNotString c.peek)
    else if x = ',' then
      let c := c.next.skipBlank
      match c.rest, mode with
      | '"' :: _, _ => .ok (true, c)
      | [], .keep => .error (.malformed .endInValue c.position)
      | [], .skip => .error (.malformed .endInObject c.position)
      | '}' :: _, .keep => .error (.malformed .trailingComma c.peek)
      | _ :: _, _ => .error (.malformed .keyNotString c.peek)
    else .error (.malformed .expectedObjectCommaOrEnd c.peek)

/-- Goes over the colon between a key and its value. -/
def colon (c : Cursor) : Reading Unit :=
  let c := c.skipBlank
  match c.rest with
  | [] => .error (.malformed .endInObject c.position)
  | ':' :: _ => .ok ((), c.next)
  | _ :: _ => .error (.malformed .expectedColon c.peek)

/-- One character more than is left to read. Every entry and every container takes at least one,
so this bounds how many there can be. -/
def bound (c : Cursor) : List Char := ' ' :: c.rest

/-! ### Closing -/

/-- Goes over the closing bracket of a list; anything else there is one entry too many. -/
def endList (c : Cursor) : Reading Unit :=
  let c := c.skipBlank
  match c.rest with
  | [] => .error (.malformed .endInList c.position)
  | ']' :: _ => .ok ((), c.next)
  | ',' :: _ =>
    let c := c.next.skipBlank
    match c.rest with
    | ']' :: _ => .error (.malformed .trailingComma c.peek)
    | _ => .error (.malformed .trailingCharacters c.peek)
  | _ :: _ => .error (.malformed .trailingCharacters c.peek)

/-- Goes over the closing brace of an object. -/
def endObject (c : Cursor) : Reading Unit :=
  let c := c.skipBlank
  match c.rest with
  | [] => .error (.malformed .endInObject c.position)
  | '}' :: _ => .ok ((), c.next)
  | ',' :: _ => .error (.malformed .trailingComma c.peek)
  | _ :: _ => .error (.malformed .trailingCharacters c.peek)

/-- How far the closing of a list gets, whether it succeeds or not. -/
def afterList (c : Cursor) : Cursor :=
  let c := c.skipBlank
  match c.rest with
  | ']' :: _ => c.next
  | ',' :: _ => c.next.skipBlank
  | _ => c

/-- How far the closing of an object gets. -/
def afterObject (c : Cursor) : Cursor :=
  let c := c.skipBlank
  match c.rest with
  | '}' :: _ => c.next
  | _ => c

end Cursor

/-! ### Containers -/

namespace Reading

variable {α σ : Type}

/-- Reads a list at its opening bracket; `body` stops in front of the closing one. Causes that
`body` left loose are placed behind the list. -/
def inList (body : Cursor → Reading α) (c : Cursor) : Reading α :=
  match body c.next with
  | .error halt => .error (halt.settle Cursor.afterList)
  | .ok (a, c) => (Cursor.endList c).map fun _ => a

/-- Reads an object at its opening brace. -/
def inObject (body : Cursor → Reading α) (c : Cursor) : Reading α :=
  match body c.next with
  | .error halt => .error (halt.settle Cursor.afterObject)
  | .ok (a, c) => (Cursor.endObject c).map fun _ => a

/-- Items of a list up to its closing bracket, at most as many as `fuel` has characters; `done`
holds those read so far, last one first. -/
def itemsFrom (mode : Mode) (item : Cursor → Reading α) :
    (fuel : List Char) → (first : Bool) → (done : List α) → Cursor → Reading (List α)
  | [], _, _, c => .error (.malformed .endInList c.position)
  | _ :: fuel, first, done, c =>
    (c.nextItem mode first).andThen fun more c =>
      if more then (item c).andThen fun a c => itemsFrom mode item fuel false (a :: done) c
      else .ok (done.reverse, c)

/-- All items of a list. Every item takes a character, so the text bounds their number. -/
def items (mode : Mode) (item : Cursor → Reading α) (c : Cursor) : Reading (List α) :=
  itemsFrom mode item c.bound true [] c

/-- Entries of an object up to its closing brace, at most as many as `fuel` has characters.
`entry` stands behind the key and reads the colon and the value. -/
def entriesFrom (mode : Mode) (entry : σ → String → Cursor → Reading σ) :
    (fuel : List Char) → (first : Bool) → σ → Cursor → Reading σ
  | [], _, _, c => .error (.malformed .endInObject c.position)
  | _ :: fuel, first, s, c =>
    (c.nextKey mode first).andThen fun more c =>
      if more then
        (Scalar.string mode c).andThen fun key c =>
        (entry s key c).andThen fun s c => entriesFrom mode entry fuel false s c
      else .ok (s, c)

/-- All entries of an object. -/
def entries (mode : Mode) (entry : σ → String → Cursor → Reading σ) (s : σ) (c : Cursor) :
    Reading σ :=
  entriesFrom mode entry c.bound true s c

/-- The complaint about an opening bracket when no more containers may be opened. -/
def tooDeep (c : Cursor) : Reading α := .error (.malformed .nestedTooDeeply c.peek)

end Reading

/-! ### Values -/

namespace Json

/-- How many containers may be open at once. -/
def depthLimit : Nat := 127

/-- Keeps a member; the members come last one first. -/
def keepMember (value : Cursor → Reading Json) (done : List (String × Json)) (key : String)
    (c : Cursor) : Reading (List (String × Json)) :=
  c.colon.andThen fun _ c => (value c).map fun v => (key, v) :: done

/-- Reads a value in which `depth` containers may be open at once. -/
def read : (depth : Nat) → Cursor → Reading Json
  | 0, c =>
    let c := c.skipBlank
    match c.rest with
    | '[' :: _ => Reading.tooDeep c
    | '{' :: _ => Reading.tooDeep c
    | _ => Scalar.read c
  | depth + 1, c =>
    let c := c.skipBlank
    match c.rest with
    | '[' :: _ => (Reading.inList (Reading.items .keep (read depth)) c).map .array
    | '{' :: _ =>
      (Reading.inObject (Reading.entries .keep (keepMember (read depth)) []) c).map
        fun done => .object done.reverse
    | _ => Scalar.read c

/-- Passes over a value in which fewer containers are open at once than `fuel` has characters. -/
def skipWithin : (fuel : List Char) → Cursor → Reading Unit
  | [], c => Reading.tooDeep c
  | _ :: fuel, c =>
    let c := c.skipBlank
    match c.rest with
    | '[' :: _ => (Reading.inList (Reading.items .skip (skipWithin fuel)) c).map fun _ => ()
    | '{' :: _ =>
      Reading.inObject (Reading.entries .skip
        (fun _ _ c => c.colon.andThen fun _ c => skipWithin fuel c) ()) c
    | _ => Scalar.pass c

/-- Passes over a value. Every container takes a character, so the text bounds the nesting. -/
def skip (c : Cursor) : Reading Unit := skipWithin c.bound c

/-- The tree of a text. -/
def parse (s : String) : Except DecodeError Json := readAll (read depthLimit) s

end Json

/-- The value of a text. -/
def Value.parse (s : String) : Except DecodeError Value := (Json.parse s).map Value.ofJson

end TaskRelay
