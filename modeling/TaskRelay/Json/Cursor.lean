import TaskRelay.Json.Fault

/-!
# A place in a text

A `Cursor` holds what is still to be read and the position reached. A reader is a function from a
cursor to a `Reading`: a result with the cursor behind it, or a `Halt`. Nothing is ever put back,
so the rest of a later cursor is a tail of the rest of an earlier one.

A `Halt` mostly has its place already. What only the enclosing list or object can place (an entry
that is missing shows at its end) is `loose` until that container has closed.
-/

namespace TaskRelay

namespace Position

/-- The position behind a character: a line end starts a new line, any other character takes as
many columns as it has bytes. -/
def after (p : Position) (c : Char) : Position :=
  if c = '\n' then ⟨p.line + 1, 0⟩ else ⟨p.line, p.column + c.utf8Size⟩

/-- The position behind the first byte of a character. -/
def afterByte (p : Position) (c : Char) : Position :=
  if c = '\n' then ⟨p.line + 1, 0⟩ else ⟨p.line, p.column + 1⟩

/-- The position behind that many characters of one byte each, none a line end. -/
def plus (p : Position) (n : Nat) : Position := ⟨p.line, p.column + n⟩

/-- The position behind a text. -/
def afterAll (p : Position) (cs : List Char) : Position := cs.foldl after p

/-- The position behind the first `n` bytes of a text that has as many. -/
def afterBytes (p : Position) : Nat → List Char → Position
  | 0, _ => p
  | _, [] => p
  | n, c :: cs => if c.utf8Size ≤ n then afterBytes (p.after c) (n - c.utf8Size) cs else p.plus n

end Position

/-- What is still to be read, and the position in front of it. -/
structure Cursor where
  rest : List Char
  position : Position
deriving DecidableEq, Repr

namespace Cursor

/-- In front of the first character. -/
def ofText (s : String) : Cursor := ⟨s.toList, ⟨1, 0⟩⟩

/-- Behind the next character; nowhere to go at the end. -/
def next (c : Cursor) : Cursor :=
  match c.rest with
  | [] => c
  | x :: rest => ⟨rest, c.position.after x⟩

/-- The position of a complaint about the next character, which counts its first byte. At the end
of the text it is the end itself. -/
def peek (c : Cursor) : Position :=
  match c.rest with
  | [] => c.position
  | x :: _ => c.position.afterByte x

/-- Blanks are the space, the tab and the two line ends. -/
def isBlank (c : Char) : Bool := c = ' ' || c = '\n' || c = '\t' || c = '\r'

/-- Goes over blanks. -/
def skipBlankFrom : List Char → Position → Cursor
  | [], p => ⟨[], p⟩
  | c :: rest, p => if isBlank c then skipBlankFrom rest (p.after c) else ⟨c :: rest, p⟩

/-- In front of the next character that is no blank. -/
def skipBlank (c : Cursor) : Cursor := skipBlankFrom c.rest c.position

end Cursor

/-- Why a reader stopped. -/
inductive Halt where
  /-- A cause with its place. -/
  | placed (cause : Cause) (position : Position)
  /-- A cause whose place is the end of the enclosing list or object; the cursor is where it was
  noticed. -/
  | loose (cause : Cause) (cursor : Cursor)
deriving DecidableEq, Repr

/-- The outcome of a reader. -/
abbrev Reading (α : Type) := Except Halt (α × Cursor)

namespace Reading

variable {α β : Type}

/-- Reads on from where a reading ended. -/
def andThen (r : Reading α) (more : α → Cursor → Reading β) : Reading β :=
  match r with
  | .ok (a, c) => more a c
  | .error halt => .error halt

/-- Changes the result, not the cursor. -/
def map (f : α → β) (r : Reading α) : Reading β := r.andThen fun a c => .ok (f a, c)

end Reading

namespace Halt

/-- A break of the grammar at a place. -/
def malformed (m : Malformed) (p : Position) : Halt := .placed (.malformed m) p

/-- Places a loose cause; `close` goes from where it was noticed to where it is reported. -/
def settle (close : Cursor → Cursor) : Halt → Halt
  | .placed cause p => .placed cause p
  | .loose cause c => .placed cause (close c).position

/-- The error of a whole text; a cause that nothing has placed stays without a place. -/
def toError : Halt → DecodeError
  | .placed cause p => ⟨cause, some p⟩
  | .loose cause _ => ⟨cause, none⟩

end Halt

/-- Reads a whole text: behind what `read` takes there may only be blanks. -/
def readAll {α : Type} (read : Cursor → Reading α) (s : String) : Except DecodeError α :=
  match read (Cursor.ofText s) with
  | .error halt => .error halt.toError
  | .ok (a, c) =>
    let c := c.skipBlank
    match c.rest with
    | [] => .ok a
    | _ :: _ => .error ⟨.malformed .trailingCharacters, some c.peek⟩

end TaskRelay
