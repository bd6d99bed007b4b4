import TaskRelay.Decimal.Shortest

/-!
# How the digits of a double are laid out

`Double.shortest` finds digits and an exponent; a `Layout` says how they are written. The one
layout of this library is `Layout.wire`, which every text with a double in it uses.
-/

namespace TaskRelay

/-- The decisions of a decimal text. -/
structure Layout where
  /-- The least exponent of the first digit that is written positionally. -/
  leastPositional : Int
  /-- The greatest one. -/
  greatestPositional : Int
  /-- What follows the digits of a whole number. -/
  wholeTail : String
  /-- What stands before the digits of a positive exponent. -/
  exponentPlus : String
deriving Repr

/-- Doubles are positional from `0.00001` to below `1e+16`, whole ones end in `.0`, and a
positive exponent carries its sign. -/
def Layout.wire : Layout := ⟨-5, 15, ".0", "+"⟩

namespace Layout

/-- `count` zeros. -/
def zeros (count : Nat) : String := String.ofList (List.replicate count '0')

/-- The digits `ds` with the point after the digit of exponent zero; `e` is the exponent of the
first digit. -/
def positional (l : Layout) (ds : List Char) (e : Int) : String :=
  if e < 0 then "0." ++ zeros (-e - 1).toNat ++ String.ofList ds
  else
    let whole := e.toNat + 1
    if ds.length ≤ whole then
      String.ofList ds ++ zeros (whole - ds.length) ++ l.wholeTail
    else String.ofList (ds.take whole) ++ "." ++ String.ofList (ds.drop whole)

/-- One digit, the others behind a point, and the exponent. -/
def scientific (l : Layout) (ds : List Char) (e : Int) : String :=
  let tail := ds.drop 1
  String.ofList (ds.take 1) ++ (if tail.isEmpty then "" else "." ++ String.ofList tail) ++ "e" ++
    (if e < 0 then "-" else l.exponentPlus) ++ toString e.natAbs

/-- The magnitude of a decimal. -/
def magnitude (l : Layout) (d : Decimal) : String :=
  let ds := Nat.toDigits 10 d.digits
  let e := d.exponent + (ds.length - 1 : Int)
  if l.leastPositional ≤ e ∧ e ≤ l.greatestPositional then l.positional ds e
  else l.scientific ds e

end Layout

/-- The text of a finite double. -/
def Double.text (x : Double) : String :=
  (if x.isNegative then "-" else "") ++ Layout.wire.magnitude x.shortest

end TaskRelay
