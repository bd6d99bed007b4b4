import TaskRelay.Text.Printable

/-!
# Quoted texts in messages and descriptions

The quoted form of a text shows every character: quotes and backslashes behind a backslash, the
usual short forms for line ends, tab and the null character, and the code point in braces for
everything that has no picture of its own.
-/

namespace TaskRelay

namespace Quoted

/-- How one character stands in a quoted text. -/
def char (c : Char) : String :=
  match c with
  | '"' => "\\\""
  | '\\' => "\\\\"
  | '\n' => "\\n"
  | '\r' => "\\r"
  | '\t' => "\\t"
  | '\x00' => "\\0"
  | c =>
    if Printable.isHidden c then
      "\\u\x7b" ++ String.ofList (Nat.toDigits 16 c.toNat) ++ "\x7d"
    else String.singleton c

/-- The quoted form of a text. -/
def text (s : String) : String := "\"" ++ String.join (s.toList.map char) ++ "\""

/-- Quoted texts in a list. -/
def list (items : List String) : String := "[" ++ ", ".intercalate (items.map text) ++ "]"

end Quoted

end TaskRelay
