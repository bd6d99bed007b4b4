import TaskRelay.Json.Basic
import TaskRelay.Text.Quoted

/-!
# What can be wrong with a JSON text

A text can break the grammar (`Malformed`), or be good JSON of a kind that the reader did not
expect. Each way to go wrong is a `Cause`; its wording is in `Cause.message`. A cause may have a
`Position`: the line, counted from one, and the number of bytes of that line that were consumed.
-/

namespace TaskRelay

/-- Where a reader stands: the line from one, and the bytes consumed in it. -/
structure Position where
  line : Nat
  column : Nat
deriving DecidableEq, Repr, Inhabited

/-- Ways to break the grammar. -/
inductive Malformed where
  | endInValue
  | endInList
  | endInObject
  | endInString
  | expectedColon
  | expectedListCommaOrEnd
  | expectedObjectCommaOrEnd
  | expectedWord
  | expectedValue
  | invalidEscape
  | invalidNumber
  | numberOutOfRange
  | controlCharacter
  | keyNotString
  | loneSurrogate
  | unfinishedSurrogate
  | trailingComma
  | trailingCharacters
  | nestedTooDeeply
deriving DecidableEq, Repr

namespace Malformed

def message : Malformed → String
  | .endInValue => "EOF while parsing a value"
  | .endInList => "EOF while parsing a list"
  | .endInObject => "EOF while parsing an object"
  | .endInString => "EOF while parsing a string"
  | .expectedColon => "expected `:`"
  | .expectedListCommaOrEnd => "expected `,` or `]`"
  | .expectedObjectCommaOrEnd => "expected `,` or `\x7d`"
  | .expectedWord => "expected ident"
  | .expectedValue => "expected value"
  | .invalidEscape => "invalid escape"
  | .invalidNumber => "invalid number"
  | .numberOutOfRange => "number out of range"
  | .controlCharacter => "control character (\\u0000-\\u001F) found while parsing a string"
  | .keyNotString => "key must be a string"
  | .loneSurrogate => "lone leading surrogate in hex escape"
  | .unfinishedSurrogate => "unexpected end of hex escape"
  | .trailingComma => "trailing comma"
  | .trailingCharacters => "trailing characters"
  | .nestedTooDeeply => "recursion limit exceeded"

end Malformed

/-- What stood where something else was expected. -/
inductive Found where
  | bool (b : Bool)
  | number (n : Number)
  | string (s : String)
  | null
  | sequence
  | map
  | unitVariant
deriving DecidableEq, Repr

namespace Found

def message : Found → String
  | .bool true => "boolean `true`"
  | .bool false => "boolean `false`"
  | .number (.whole n) => "integer `" ++ toString n.val ++ "`"
  | .number (.double x) => "floating point `" ++ x.text ++ "`"
  | .string s => "string " ++ Quoted.text s
  | .null => "null"
  | .sequence => "sequence"
  | .map => "map"
  | .unitVariant => "unit variant"

/-- What a tree is when something else was expected. -/
def ofJson : Json → Found
  | .null => .null
  | .bool b => .bool b
  | .number n => .number n
  | .string s => .string s
  | .array _ => .sequence
  | .object _ => .map

end Found

/-- Why a text or a value is not of the expected kind. -/
inductive Cause where
  | malformed (m : Malformed)
  | invalidType (found : Found) (expected : String)
  | invalidValue (found : Found) (expected : String)
  | invalidLength (length : Nat) (expected : String)
  | missingField (name : String)
  | duplicateField (name : String)
  | unknownField (name : String) (known : List String)
  | unknownVariant (name : String) (known : List String)
deriving DecidableEq, Repr

namespace Cause

/-- Names to choose from, in backquotes. -/
def alternatives (none : String) : List String → String
  | [] => none
  | [a] => "expected `" ++ a ++ "`"
  | [a, b] => "expected `" ++ a ++ "` or `" ++ b ++ "`"
  | names => "expected one of " ++ ", ".intercalate (names.map fun n => "`" ++ n ++ "`")

def message : Cause → String
  | .malformed m => m.message
  | .invalidType found expected => "invalid type: " ++ found.message ++ ", expected " ++ expected
  | .invalidValue found expected => "invalid value: " ++ found.message ++ ", expected " ++ expected
  | .invalidLength n expected => "invalid length " ++ toString n ++ ", expected " ++ expected
  | .missingField name => "missing field `" ++ name ++ "`"
  | .duplicateField name => "duplicate field `" ++ name ++ "`"
  | .unknownField name known =>
    "unknown field `" ++ name ++ "`, " ++ alternatives "there are no fields" known
  | .unknownVariant name known =>
    "unknown variant `" ++ name ++ "`, " ++ alternatives "there are no variants" known

end Cause

/-- A cause with its place, if it has one. -/
structure DecodeError where
  cause : Cause
  position : Option Position
deriving DecidableEq, Repr

def DecodeError.message (e : DecodeError) : String :=
  e.cause.message ++
    match e.position with
    | none => ""
    | some p => " at line " ++ toString p.line ++ " column " ++ toString p.column

end TaskRelay
