import TaskRelay.Json.Basic

/-!
# Writing JSON

`Json.write` puts the compact text of a tree in front of what follows it, so that the text of a
container is built without copying. No blanks are written, members stand in the order of the tree,
and of the characters of a string only the quote, the backslash and those below the space are
escaped.
-/

namespace TaskRelay

namespace Json

/-! ### Strings -/

/-- The lower-case hexadecimal digit of a number below sixteen. -/
def hexDigit (n : Nat) : Char := Nat.digitChar n

/-- How one character stands inside a string. -/
def escapeChar (c : Char) : List Char :=
  match c with
  | '"' => ['\\', '"']
  | '\\' => ['\\', '\\']
  | '\n' => ['\\', 'n']
  | '\r' => ['\\', 'r']
  | '\t' => ['\\', 't']
  | '\x08' => ['\\', 'b']
  | '\x0c' => ['\\', 'f']
  | c =>
    if c.toNat < 0x20 then
      ['\\', 'u', '0', '0', hexDigit (c.toNat / 16), hexDigit (c.toNat % 16)]
    else [c]

/-- The characters of a string between its quotes, in front of `rest`. -/
def writeChars (cs rest : List Char) : List Char :=
  cs.foldr (fun c out => escapeChar c ++ out) rest

/-- A quoted string in front of `rest`. -/
def writeString (s : String) (rest : List Char) : List Char :=
  '"' :: writeChars s.toList ('"' :: rest)

/-! ### Numbers -/

/-- The text of a number; a double that is no finite number has none and is written as `null`. -/
def numberText : Number → String
  | .whole n => toString n.val
  | .double x => if x.isFinite then x.text else "null"

/-! ### Trees -/

mutual

/-- The compact text of a tree in front of `rest`. -/
def write : Json → List Char → List Char
  | .null, rest => 'n' :: 'u' :: 'l' :: 'l' :: rest
  | .bool true, rest => 't' :: 'r' :: 'u' :: 'e' :: rest
  | .bool false, rest => 'f' :: 'a' :: 'l' :: 's' :: 'e' :: rest
  | .number n, rest => (numberText n).toList ++ rest
  | .string s, rest => writeString s rest
  | .array [], rest => '[' :: ']' :: rest
  | .array (item :: items), rest => '[' :: write item (writeItems items (']' :: rest))
  | .object [], rest => '{' :: '}' :: rest
  | .object ((key, value) :: members), rest =>
    '{' :: writeString key (':' :: write value (writeMembers members ('}' :: rest)))

/-- Items behind a first one: each with a comma in front. -/
def writeItems : List Json → List Char → List Char
  | [], rest => rest
  | item :: items, rest => ',' :: write item (writeItems items rest)

/-- Members behind a first one: each with a comma in front. -/
def writeMembers : List (String × Json) → List Char → List Char
  | [], rest => rest
  | (key, value) :: members, rest =>
    ',' :: writeString key (':' :: write value (writeMembers members rest))

end

/-- The compact text of a tree. -/
def compact (j : Json) : String := String.ofList (write j [])

/-- The quoted text of a string. -/
def quote (s : String) : String := String.ofList (writeString s [])

end Json

/-- The compact text of a value. -/
def Value.text (v : Value) : String := v.tree.compact

end TaskRelay
