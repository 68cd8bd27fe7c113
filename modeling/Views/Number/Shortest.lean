import Views.Number.Binary64
/-!
# The shortest decimal of a double

Among the decimals that read back as a given double, `Shortest.digits` gives one with the fewest
digits and, of those, the nearest. It works on the exact interval of reals that round to the double.
-/

namespace Views.Shortest

/-- The significand and exponent of a positive decimal: `digits * 10 ^ scale`. -/
structure Decimal where
  digits : Nat
  scale : Int
  deriving DecidableEq, Repr

/-- An exact positive number, or one end of an interval. -/
structure Ratio where
  num : Nat
  den : Nat

namespace Ratio

/-- `m * 2 ^ e` as a ratio. -/
def ofScaled (m : Nat) (e : Int) : Ratio :=
  if 0 ≤ e then ⟨m <<< e.toNat, 1⟩ else ⟨m, 1 <<< (-e).toNat⟩

/-- The ratio measured in units of `10 ^ k`. -/
def inUnits (r : Ratio) (k : Int) : Ratio :=
  if 0 ≤ k then ⟨r.num, r.den * Nat.pow 10 k.toNat⟩ else ⟨r.num * Nat.pow 10 (-k).toNat, r.den⟩

end Ratio

/-- The reals that round to `m * 2 ^ e`: the middles between it and its two neighbours, in
quarters of its last place. The neighbour below is only half a place away when `m` is the least
significand of its exponent. The ends belong to the interval exactly when `m` is even. -/
structure Interval where
  low : Ratio
  high : Ratio
  closed : Bool

/-- The reals that round to a finite double that is not zero. -/
def interval (x : Binary64) : Interval :=
  let m := x.significand
  let e := x.exponent
  let below := if m = Binary64.hidden ∧ -1074 < e then 1 else 2
  { low := Ratio.ofScaled (4 * m - below) (e - 2)
    high := Ratio.ofScaled (4 * m + 2) (e - 2)
    closed := m % 2 = 0 }

/-- Whether `d * 10 ^ k` lies in the interval. -/
def Interval.holds (i : Interval) (k : Int) (d : Nat) : Bool :=
  let low := i.low.inUnits k
  let high := i.high.inUnits k
  if i.closed then low.num ≤ d * low.den && d * high.den ≤ high.num
  else low.num < d * low.den && d * high.den < high.num

/-- The point of the grid `10 ^ k` in the interval that is nearest to the value, if there is one:
only the two neighbours of the value need a look. A tie goes to the even digit. -/
def nearest? (i : Interval) (value : Ratio) (k : Int) : Option Nat :=
  let v := value.inUnits k
  let down := v.num / v.den
  let rest := v.num % v.den
  let up := if rest = 0 then down else down + 1
  let upFirst := v.den < 2 * rest || (2 * rest == v.den && down % 2 == 1)
  let (first, second) := if upFirst then (up, down) else (down, up)
  if first ≠ 0 && i.holds k first then some first
  else if second ≠ 0 && i.holds k second then some second
  else none

/-- Goes from coarse grids to fine ones until one has a point in the interval. -/
def search (i : Interval) (value : Ratio) : Nat → Int → Decimal
  | 0, k => ⟨(nearest? i value k).getD 0, k⟩
  | n + 1, k =>
    match nearest? i value k with
    | some d => ⟨d, k⟩
    | none => search i value n (k - 1)

/-- The digits without trailing zeros. -/
def strip : Nat → Decimal → Decimal
  | 0, d => d
  | n + 1, d => if d.digits ≠ 0 ∧ d.digits % 10 = 0 then strip n ⟨d.digits / 10, d.scale + 1⟩ else d

/-- The shortest decimal of a finite double that is not zero. -/
def digits (x : Binary64) : Decimal :=
  let value := Ratio.ofScaled x.significand x.exponent
  let width : Int := (Nat.toDigits 10 value.num).length - (Nat.toDigits 10 value.den).length
  strip 20 (search (interval x) value 20 (width + 1))

end Views.Shortest
