/-!
# Binary floating-point numbers

A double is its 64 bits. Its magnitude is read as `significand * 2 ^ exponent`, an exact number,
and `ofRatio` goes back: it takes an exact ratio to the nearest double, ties to the even
significand. The arithmetic and the order below are defined through these two, so nothing here
uses machine floats.
-/

namespace Views

/-- An IEEE 754 double, as its bits: sign, eleven bits of exponent, fifty-two of fraction. -/
structure Binary64 where
  bits : Nat
  deriving DecidableEq, Repr, Inhabited

namespace Binary64

/-- The weight of the sign bit. -/
def signBit : Nat := 0x8000000000000000

/-- One more than the largest fraction. -/
def hidden : Nat := 0x10000000000000

/-- The bits of positive infinity: every finite magnitude is below. -/
def infinityBits : Nat := 0x7FF * hidden

/-- The bits without the sign; they order magnitudes as numbers do. -/
def magnitude (x : Binary64) : Nat := x.bits % signBit

/-- Whether the sign bit is set. -/
def isNegative (x : Binary64) : Bool := signBit ≤ x.bits

/-- Whether the bits stand for no number. -/
def isNaN (x : Binary64) : Bool := infinityBits < x.magnitude

/-- Neither infinite nor NaN. -/
def isFinite (x : Binary64) : Bool := x.magnitude < infinityBits

/-- Either of the two zeros. -/
def isZero (x : Binary64) : Bool := x.magnitude == 0

/-- Neither zero, nor subnormal, nor infinite, nor NaN. -/
def isNormal (x : Binary64) : Bool := hidden ≤ x.magnitude && x.isFinite

/-- The integer significand of a finite double. -/
def significand (x : Binary64) : Nat :=
  if x.magnitude < hidden then x.magnitude else hidden + x.magnitude % hidden

/-- The exponent of two that the significand of a finite double is scaled by. -/
def exponent (x : Binary64) : Int :=
  if x.magnitude < hidden then -1074 else (x.magnitude / hidden : Nat) - 1075

/-- The magnitude of a finite double as a numerator and a positive denominator. -/
def ratio (x : Binary64) : Nat × Nat :=
  let e := x.exponent
  if 0 ≤ e then (x.significand <<< e.toNat, 1) else (x.significand, 1 <<< (-e).toNat)

/-- The quotient rounded to the nearest integer, a half to the even neighbour. -/
def roundDiv (num den : Nat) : Nat :=
  let q := num / den
  let r := num % den
  if 2 * r < den then q else if den < 2 * r then q + 1 else q + q % 2

/-- Sets the sign bit of a magnitude. -/
def withSign (negative : Bool) (magnitude : Nat) : Binary64 :=
  ⟨if negative then signBit + magnitude else magnitude⟩

/-- The double nearest to `num / den`, with the given sign; a ratio too large for a finite double
gives infinity. The significand is taken at the exponent where it has fifty-three bits, or at the
least exponent if it has fewer there; a carry out of the rounding moves on to the next exponent by
the arithmetic of the encoding alone. -/
def ofRatio (negative : Bool) (num den : Nat) : Binary64 :=
  if num = 0 ∨ den = 0 then withSign negative 0
  else
    let guess : Int := (num.log2 : Int) - den.log2 - 53
    let scaled (e : Int) : Nat × Nat :=
      if 0 ≤ e then (num, den <<< e.toNat) else (num <<< (-e).toNat, den)
    let fits := (scaled guess).1 / (scaled guess).2 < 2 * hidden
    let e := max (if fits then guess else guess + 1) (-1074)
    let m := roundDiv (scaled e).1 (scaled e).2
    withSign negative (min ((e + 1074).toNat * hidden + m) infinityBits)

/-- The double nearest to an integer. -/
def ofInt (n : Int) : Binary64 := ofRatio (n < 0) n.natAbs 1

/-- The positive zero. -/
def zero : Binary64 := ⟨0⟩

/-- The product of two finite doubles, rounded once. -/
def mul (x y : Binary64) : Binary64 :=
  ofRatio (x.isNegative != y.isNegative) (x.ratio.1 * y.ratio.1) (x.ratio.2 * y.ratio.2)

/-- The quotient of two finite doubles, the second not zero, rounded once. -/
def div (x y : Binary64) : Binary64 :=
  ofRatio (x.isNegative != y.isNegative) (x.ratio.1 * y.ratio.2) (x.ratio.2 * y.ratio.1)

/-- The double with the other sign. -/
def neg (x : Binary64) : Binary64 := withSign (!x.isNegative) x.magnitude

/-- The value of a finite double as an integer over a positive denominator. -/
def toFraction (x : Binary64) : Int × Nat :=
  (if x.isNegative then -(x.ratio.1 : Int) else x.ratio.1, x.ratio.2)

/-- The order of numbers: the two zeros are equal, infinities are the ends, and NaN compares with
nothing. -/
def compare? (x y : Binary64) : Option Ordering :=
  if x.isNaN || y.isNaN then none
  else
    let key (z : Binary64) : Int := if z.isNegative then -(z.magnitude : Int) else z.magnitude
    some (compare (key x) (key y))

end Binary64
end Views
