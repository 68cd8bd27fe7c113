import Views.Number.Shortest
/-!
# Numbers and their text

A number is an integer or a double and keeps which of the two it is. `Number.text` writes a double
in its shortest decimal, in positional notation while the point falls within the sixteen places
before the digits' end or the four zeros before their start, and with an exponent outside that
range; a double is always marked as such by a point or an exponent.
-/

namespace Views

/-- An integer or a double. -/
inductive Number where
  | integer (value : Int)
  | double (value : Binary64)
  deriving DecidableEq, Repr, Inhabited

/-- How doubles are spelled: the range of positional notation, by the position of the decimal point
counted from the first digit, and the marks of the exponent. -/
structure DoubleFormat where
  leastPoint : Int
  greatestPoint : Int
  exponentMark : String
  positiveSign : String

/-- From `0.00001` to sixteen places before the point; beyond that `1e+16` and `1e-6`. -/
def Number.format : DoubleFormat := ⟨-4, 16, "e", "+"⟩

/-- The text of a positive decimal. -/
def DoubleFormat.decimal (f : DoubleFormat) (d : Shortest.Decimal) : String :=
  let digits := Nat.toDigits 10 d.digits
  let point : Int := digits.length + d.scale
  if f.leastPoint ≤ point ∧ point ≤ f.greatestPoint then
    if 0 ≤ d.scale then String.ofList (digits ++ List.replicate d.scale.toNat '0') ++ ".0"
    else if 0 < point then
      String.ofList (digits.take point.toNat) ++ "." ++ String.ofList (digits.drop point.toNat)
    else "0." ++ String.ofList (List.replicate (-point).toNat '0' ++ digits)
  else
    let fraction := digits.drop 1
    let exponent := point - 1
    String.ofList (digits.take 1) ++
      (if fraction.isEmpty then "" else "." ++ String.ofList fraction) ++
      f.exponentMark ++ (if 0 ≤ exponent then f.positiveSign else "-") ++ toString exponent.natAbs

/-- The text of a finite double. -/
def DoubleFormat.text (f : DoubleFormat) (x : Binary64) : String :=
  (if x.isNegative then "-" else "") ++
    (if x.isZero then "0.0" else f.decimal (Shortest.digits x))

namespace Number

/-- The text of a number in a data document and on a page. -/
def text : Number → String
  | integer n => toString n
  | double x => format.text x

/-- The nearest double. -/
def toBinary64 : Number → Binary64
  | integer n => Binary64.ofInt n
  | double x => x

/-- The integer that a number is, if it is one and fits in 64 bits with a sign. -/
def toInt64? : Number → Option Int
  | integer n =>
    if -0x8000000000000000 ≤ n ∧ n < 0x8000000000000000 then some n else none
  | double _ => none

/-- The natural number that a number is, if it is an integer and not negative. -/
def toNat? : Number → Option Nat
  | integer n => if 0 ≤ n then some n.toNat else none
  | double _ => none

/-- Numbers of one kind are the same when they are equal as numbers; an integer is never the same as
a double. -/
def same : Number → Number → Bool
  | integer m, integer n => m == n
  | double x, double y => x.compare? y == some .eq
  | _, _ => false

/-- The exact value as an integer over a positive denominator. -/
def toFraction : Number → Int × Nat
  | integer n => (n, 1)
  | double x => x.toFraction

/-- The order of finite numbers, exact whatever their kinds. -/
def compare (a b : Number) : Ordering :=
  let (p, q) := a.toFraction
  let (r, s) := b.toFraction
  Ord.compare (p * s) (r * q)

end Number
end Views
