import TaskRelay.Json.Cursor

/-!
# Reading words, strings and numbers

Each reader stands at the first character of its scalar and ends behind the last one. A value is
read to be kept or to be skipped (`Mode`); a skipped value has to be good grammar, but nobody asks
whether a number fits or whether escapes pair up.
-/

namespace TaskRelay

/-- Whether a value is wanted or only passed over. -/
inductive Mode where
  | keep
  | skip
deriving DecidableEq, Repr

namespace Scalar

/-! ### Words -/

/-- Reads the characters `expected`, one by one. -/
def word (expected : List Char) (c : Cursor) : Reading Unit :=
  match expected with
  | [] => .ok ((), c)
  | e :: more =>
    match c.rest with
    | [] => .error (.malformed .endInValue c.position)
    | x :: _ => if x = e then word more c.next else .error (.malformed .expectedWord c.peek)

/-! ### Strings -/

/-- The value of a hexadecimal digit of either case. -/
def hexValue (c : Char) : Option Nat :=
  if '0' ≤ c ∧ c ≤ '9' then some (c.toNat - 48)
  else if 'a' ≤ c ∧ c ≤ 'f' then some (c.toNat - 87)
  else if 'A' ≤ c ∧ c ≤ 'F' then some (c.toNat - 55)
  else none

/-- The number that four hexadecimal digits write. -/
def hexFour (a b c d : Char) : Option Nat := do
  let a ← hexValue a
  let b ← hexValue b
  let c ← hexValue c
  let d ← hexValue d
  return ((a * 16 + b) * 16 + c) * 16 + d

/-- First half of a pair for a character beyond the sixteen-bit ones. -/
def isLeading (n : Nat) : Bool := 0xD800 ≤ n && n ≤ 0xDBFF

/-- Second half of such a pair. -/
def isTrailing (n : Nat) : Bool := 0xDC00 ≤ n && n ≤ 0xDFFF

/-- The character of a pair. -/
def pairChar (leading trailing : Nat) : Char :=
  Char.ofNat ((leading - 0xD800) * 0x400 + (trailing - 0xDC00) + 0x10000)

/-- The character of a one-letter escape. -/
def shortEscape : Char → Option Char
  | '"' => some '"'
  | '\\' => some '\\'
  | '/' => some '/'
  | 'b' => some '\x08'
  | 'f' => some '\x0c'
  | 'n' => some '\n'
  | 'r' => some '\r'
  | 't' => some '\t'
  | _ => none

/-- The complaint where four hexadecimal digits should stand: about the four bytes there are, or
about the end of the text. -/
def hexHalt (cs : List Char) (p : Position) : Halt :=
  if 4 ≤ (String.ofList cs).utf8ByteSize then .malformed .invalidEscape (p.afterBytes 4 cs)
  else .malformed .endInString (p.afterAll cs)

/-- The complaint about what follows the first half of a pair, when it is not the escape of a
second half. -/
def pairHalt (cs : List Char) (p : Position) : Halt :=
  match cs with
  | [] => .malformed .endInString p
  | '\\' :: [] => .malformed .endInString (p.plus 1)
  | '\\' :: 'u' :: digits => hexHalt digits (p.plus 2)
  | '\\' :: x :: _ => .malformed .unfinishedSurrogate ((p.plus 1).afterByte x)
  | x :: _ => .malformed .unfinishedSurrogate (p.afterByte x)

/-- The characters up to the closing quote; `done` holds those read so far, last one first. -/
def chars (mode : Mode) : List Char → Position → (done : List Char) → Reading (List Char)
  | [], p, _ => .error (.malformed .endInString p)
  | '"' :: rest, p, done => .ok (done.reverse, ⟨rest, p.plus 1⟩)
  | '\\' :: 'u' :: a :: b :: c :: d :: rest, p, done =>
    match hexFour a b c d with
    | none => .error (hexHalt (a :: b :: c :: d :: rest) (p.plus 2))
    | some n =>
      if mode = .skip then chars mode rest (p.plus 6) done
      else if isTrailing n then .error (.malformed .loneSurrogate (p.plus 6))
      else if isLeading n then
        match rest with
        | '\\' :: 'u' :: a :: b :: c :: d :: more =>
          match hexFour a b c d with
          | none => .error (hexHalt (a :: b :: c :: d :: more) (p.plus 8))
          | some m =>
            if isTrailing m then chars mode more (p.plus 12) (pairChar n m :: done)
            else .error (.malformed .loneSurrogate (p.plus 12))
        | rest => .error (pairHalt rest (p.plus 6))
      else chars mode rest (p.plus 6) (Char.ofNat n :: done)
  | '\\' :: 'u' :: rest, p, _ => .error (hexHalt rest (p.plus 2))
  | '\\' :: [], p, _ => .error (.malformed .endInString (p.plus 1))
  | '\\' :: x :: rest, p, done =>
    match shortEscape x with
    | some c => chars mode rest (p.plus 2) (c :: done)
    | none => .error (.malformed .invalidEscape ((p.plus 1).afterByte x))
  | c :: rest, p, done =>
    if c.toNat < 0x20 then
      .error (.malformed .controlCharacter (if mode = .keep then p.after c else p))
    else chars mode rest (p.after c) (c :: done)

/-- A string, from its opening quote on. -/
def string (mode : Mode) (c : Cursor) : Reading String :=
  (chars mode c.next.rest c.next.position []).map String.ofList

/-! ### Numbers -/

def isDigit (c : Char) : Bool := '0' ≤ c && c ≤ '9'

/-- The digits at the front of a text, and what follows them. -/
def spanDigits : List Char → List Nat × List Char
  | [] => ([], [])
  | c :: rest =>
    if isDigit c then
      let (ds, more) := spanDigits rest
      ((c.toNat - 48) :: ds, more)
    else ([], c :: rest)

/-- The digits at the cursor. -/
def digits (c : Cursor) : List Nat × Cursor :=
  let (ds, rest) := spanDigits c.rest
  (ds, ⟨rest, c.position.plus ds.length⟩)

/-- A number as it is written. -/
structure Numeral where
  negative : Bool
  whole : List Nat
  fraction : Option (List Nat)
  /-- Whether the exponent is negative, its digits, and the position in front of them. -/
  exponent : Option (Bool × List Nat × Position)
deriving Repr

/-- At least one digit; what is missing at the end of the text is a missing value, unless the
number is skipped. -/
def someDigits (mode : Mode) (c : Cursor) : Reading (List Nat) :=
  match digits c with
  | ([], _) =>
    match c.rest, mode with
    | [], .keep => .error (.malformed .endInValue c.position)
    | _, _ => .error (.malformed .invalidNumber c.peek)
  | (ds, c) => .ok (ds, c)

/-- The digits in front of the point; a zero stands alone there. -/
def wholePart (mode : Mode) (c : Cursor) : Reading (List Nat) :=
  match someDigits mode c with
  | .ok (0 :: _ :: _, _) => .error (.malformed .invalidNumber (c.position.plus 2))
  | r => r

/-- A point and the digits behind it, if there is a point. -/
def fractionPart (mode : Mode) (c : Cursor) : Reading (Option (List Nat)) :=
  match c.rest with
  | '.' :: _ => (someDigits mode c.next).map some
  | _ => .ok (none, c)

/-- The mark of an exponent, its sign and its digits, if there is a mark. -/
def exponentPart (mode : Mode) (c : Cursor) : Reading (Option (Bool × List Nat × Position)) :=
  if c.rest.head? = some 'e' ∨ c.rest.head? = some 'E' then
    let c := c.next
    let negative := c.rest.head? = some '-'
    let c := if negative ∨ c.rest.head? = some '+' then c.next else c
    (someDigits mode c).map fun ds => some (negative, ds, c.position)
  else .ok (none, c)

/-- A number as it is written, from its sign or first digit on. -/
def numeral (mode : Mode) (c : Cursor) : Reading Numeral :=
  let negative := c.rest.head? = some '-'
  (wholePart mode (if negative then c.next else c)).andThen fun whole c =>
  (fractionPart mode c).andThen fun fraction c =>
  (exponentPart mode c).map fun exponent => ⟨negative, whole, fraction, exponent⟩

/-- Appends digits to a number as long as the result stays below `2 ^ 64`; gives back the digits
that did not fit. -/
def absorb (n : Nat) : List Nat → Nat × List Nat
  | [] => (n, [])
  | d :: ds => if n * 10 + d < 1 <<< 64 then absorb (n * 10 + d) ds else (n, d :: ds)

/-- How many digits of an exponent are read until it exceeds 31 bits, if it does. -/
def exponentOverflow (n count : Nat) : List Nat → Option Nat
  | [] => none
  | d :: ds =>
    if n * 10 + d < 1 <<< 31 then exponentOverflow (n * 10 + d) (count + 1) ds else some (count + 1)

/-- `x / 10 ^ e`, in steps of at most `10 ^ 308`, each rounded. -/
def scaleDown (x : Double) (e : Nat) : Double :=
  if e ≤ 308 then x.div (Double.powerOfTen e)
  else if x.isZero then x
  else scaleDown (x.div (Double.powerOfTen 308)) (e - 308)
termination_by e

/-- `n · 10 ^ e` as a double: `n` rounded, then one multiplication or division; nothing if it is
too large. -/
def scaled (n : Nat) (e : Int) : Option Double :=
  let x := Double.ofNat n
  if e < 0 then some (scaleDown x e.natAbs)
  else if e ≤ 308 then
    let y := x.mul (Double.powerOfTen e.toNat)
    if y.isFinite then some y else none
  else if x.isZero then some x
  else none

namespace Numeral

/-- The value of digits. -/
def ofDigits (ds : List Nat) : Nat := ds.foldl (fun n d => n * 10 + d) 0

/-- The exponent, zero if none is written. -/
def exponentValue (n : Numeral) : Int :=
  match n.exponent with
  | none => 0
  | some (negative, ds, _) => if negative then -(ofDigits ds) else ofDigits ds

/-- The digits that fit 64 bits, and the power of ten by which they have to be multiplied. Whole
digits that do not fit count as powers of ten; digits of the fraction that do not fit are
dropped. -/
def scientific (n : Numeral) : Nat × Int :=
  let (m, left) := absorb 0 n.whole
  let fraction := n.fraction.getD []
  let (m, dropped) := absorb m fraction
  (m, left.length - (fraction.length - dropped.length : Nat) + n.exponentValue)

/-- The exact value of a numeral without point and exponent, where it fits. A minus sign in front
of zero makes a double. -/
def integer? (n : Numeral) : Option Whole :=
  match n.fraction, n.exponent, absorb 0 n.whole with
  | none, none, (m, []) =>
    if n.negative then
      if h : 0 < m ∧ m ≤ 1 <<< 63 then some ⟨-m, by omega, by omega⟩ else none
    else if h : m < 1 <<< 64 then some ⟨m, by omega, by omega⟩ else none
  | _, _, _ => none

/-- The double of a numeral, unless it is too large. -/
def double? (n : Numeral) : Option Double :=
  let (m, e) := n.scientific
  (scaled m e).map fun x => if n.negative then x.neg else x

/-- The position at which the exponent alone is found too large, if it is. -/
def overflowPosition (n : Numeral) : Option Position :=
  match n.exponent with
  | some (false, ds, p) =>
    if n.scientific.1 = 0 then none else (exponentOverflow 0 0 ds).map p.plus
  | _ => none

/-- The value of a numeral that ends at `c`. -/
def value (n : Numeral) (c : Cursor) : Reading Number :=
  match n.integer? with
  | some whole => .ok (.whole whole, c)
  | none =>
    match n.overflowPosition with
    | some p => .error (.malformed .numberOutOfRange p)
    | none =>
      match n.double? with
      | some x => .ok (.double x, c)
      | none => .error (.malformed .numberOutOfRange c.position)

end Numeral

/-- A number, from its sign or first digit on. -/
def number (c : Cursor) : Reading Number := (numeral .keep c).andThen Numeral.value

/-! ### Any scalar -/

/-- A scalar that starts at the cursor; anything else there is no value. -/
def read (c : Cursor) : Reading Json :=
  match c.rest with
  | [] => .error (.malformed .endInValue c.position)
  | 'n' :: _ => (word ['u', 'l', 'l'] c.next).map fun _ => .null
  | 't' :: _ => (word ['r', 'u', 'e'] c.next).map fun _ => .bool true
  | 'f' :: _ => (word ['a', 'l', 's', 'e'] c.next).map fun _ => .bool false
  | '"' :: _ => (string .keep c).map .string
  | x :: _ =>
    if x = '-' ∨ isDigit x then (number c).map .number
    else .error (.malformed .expectedValue c.peek)

/-- Passes over a scalar that starts at the cursor. -/
def pass (c : Cursor) : Reading Unit :=
  match c.rest with
  | [] => .error (.malformed .endInValue c.position)
  | 'n' :: _ => word ['u', 'l', 'l'] c.next
  | 't' :: _ => word ['r', 'u', 'e'] c.next
  | 'f' :: _ => word ['a', 'l', 's', 'e'] c.next
  | '"' :: _ => (string .skip c).map fun _ => ()
  | x :: _ =>
    if x = '-' ∨ isDigit x then (numeral .skip c).map fun _ => ()
    else .error (.malformed .expectedValue c.peek)

end Scalar

end TaskRelay
