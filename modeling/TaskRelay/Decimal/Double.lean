/-!
# Double-precision numbers by their bits

A double is kept as its 64 bits, so that equality is decidable and says "the same number, with
the same sign of zero". The arithmetic goes through `Float`; what a proof needs to know about the
value of a finite double is in `significand` and `scale`:

> a finite double is `± significand · 2 ^ scale`.
-/

namespace TaskRelay

/-- A double-precision number, kept as its 64 bits. -/
structure Double where
  bits : UInt64
deriving DecidableEq, Repr, Inhabited

namespace Double

def ofFloat (x : Float) : Double := ⟨x.toBits⟩

def toFloat (x : Double) : Float := Float.ofBits x.bits

/-! ### The parts of a double -/

/-- The stored exponent, from 0 to 2047. -/
def biasedExponent (x : Double) : Nat := (x.bits.toNat >>> 52) % 2048

/-- The 52 stored digits of the significand. -/
def fraction (x : Double) : Nat := x.bits.toNat % (1 <<< 52)

/-- Whether the sign bit is set; it is for `-0.0` too. -/
def isNegative (x : Double) : Bool := 1 <<< 63 ≤ x.bits.toNat

/-- Neither an infinity nor "not a number". -/
def isFinite (x : Double) : Bool := x.biasedExponent != 2047

/-- The magnitude as a whole number of units `2 ^ scale`. Numbers with the least stored exponent
have no hidden leading digit. -/
def significand (x : Double) : Nat :=
  if x.biasedExponent = 0 then x.fraction else x.fraction + (1 <<< 52)

/-- The exponent of the unit in the last place. -/
def scale (x : Double) : Int :=
  if x.biasedExponent = 0 then -1074 else (x.biasedExponent : Int) - 1075

/-- At a power of two the next smaller double is only half as far away as the next larger one. -/
def hasNearLowerNeighbour (x : Double) : Bool :=
  x.fraction = 0 && 1 < x.biasedExponent

/-! ### Building doubles -/

/-- The double nearest to a natural number below `2 ^ 64`. -/
def ofNat (n : Nat) : Double := ofFloat n.toUInt64.toFloat

def neg (x : Double) : Double := ofFloat (-x.toFloat)

/-- The double nearest to an integer between `-2 ^ 63` and `2 ^ 64`. -/
def ofInt : Int → Double
  | .ofNat n => ofNat n
  | .negSucc n => (ofNat (n + 1)).neg

/-- The double nearest to `10 ^ e`. -/
def powerOfTen (e : Nat) : Double := ofFloat (Float.ofScientific 1 false e)

def add (x y : Double) : Double := ofFloat (x.toFloat + y.toFloat)
def sub (x y : Double) : Double := ofFloat (x.toFloat - y.toFloat)
def mul (x y : Double) : Double := ofFloat (x.toFloat * y.toFloat)
def div (x y : Double) : Double := ofFloat (x.toFloat / y.toFloat)

/-- Whether the number is a zero, of either sign. -/
def isZero (x : Double) : Bool := x.significand = 0

end Double

end TaskRelay
