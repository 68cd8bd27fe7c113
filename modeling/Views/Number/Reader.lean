import Views.Number.Text
/-!
# Reading numbers

`Number.read?` reads the number that a text starts with: an optional minus, digits without a
leading zero, then a fraction and an exponent. Without the last two it is an integer as long as it
fits in sixty-four bits, with the sign in it if there is one. A double is the double nearest to
the digits read as one integer, which takes no digit that would not fit in sixty-four bits, scaled
by one power of ten. `Binary64.read?` reads a whole text as the nearest double.
-/

namespace Views

/-- The value of a decimal digit. -/
def digitValue (c : Char) : Nat := c.toNat - '0'.toNat

/-- The digits at the start of a text, and the rest. -/
def spanDigits (cs : List Char) : List Nat × List Char :=
  ((cs.takeWhile Char.isDigit).map digitValue, cs.dropWhile Char.isDigit)

namespace Number

/-- Appends digits to an integer while it fits in sixty-four bits; counts the digits appended. -/
def absorb (acc : Nat) : List Nat → Nat × Nat
  | [] => (acc, 0)
  | d :: rest =>
    if acc * 10 + d < 0x10000000000000000 then
      let (total, count) := absorb (acc * 10 + d) rest
      (total, count + 1)
    else (acc, 0)

/-- Scales a double by a power of ten. Powers below the range of doubles are applied in steps, which
`steps` bounds: after three of them nothing is left. A result beyond the range is refused. -/
def scale (steps : Nat) (x : Binary64) (e : Int) : Option Binary64 :=
  if e.natAbs ≤ 308 then
    let power := Binary64.ofRatio false (Nat.pow 10 e.natAbs) 1
    if 0 ≤ e then
      let y := x.mul power
      if y.isFinite then some y else none
    else some (x.div power)
  else if x.isZero then some x
  else if 0 ≤ e then none
  else match steps with
    | 0 => some Binary64.zero
    | n + 1 => scale n (x.div (Binary64.ofRatio false (Nat.pow 10 308) 1)) (e + 308)

/-- The exponent part at the start of a text; `some none` says that there is none. -/
def readExponent (cs : List Char) : Option (Option Int × List Char) :=
  match cs with
  | c :: rest =>
    if c = 'e' ∨ c = 'E' then
      let (negative, rest) := match rest with
        | '-' :: rest => (true, rest)
        | '+' :: rest => (false, rest)
        | rest => (false, rest)
      match spanDigits rest with
      | ([], _) => none
      | (digits, rest) =>
        let n : Nat := digits.foldl (fun acc d => acc * 10 + d) 0
        some (some (if negative then -n else n), rest)
    else some (none, cs)
  | [] => some (none, cs)

/-- The fraction at the start of a text; `some none` says that there is none. -/
def readFraction (cs : List Char) : Option (Option (List Nat) × List Char) :=
  match cs with
  | '.' :: rest =>
    match spanDigits rest with
    | ([], _) => none
    | (digits, rest) => some (some digits, rest)
  | _ => some (none, cs)

/-- An exponent beyond this is as good as infinite. -/
def exponentLimit : Nat := 0x7FFFFFFF

/-- The double of a significand and a power of ten. -/
def ofParts (negative : Bool) (significand : Nat) (e : Int) : Option Number :=
  (scale 4 (Binary64.ofRatio false significand 1) e).map fun x =>
    double (if negative then x.neg else x)

/-- The number that a text starts with, and the rest. -/
def read? (cs : List Char) : Option (Number × List Char) := do
  let (negative, cs) := match cs with
    | '-' :: rest => (true, rest)
    | rest => (false, rest)
  let (whole, cs) := spanDigits cs
  match whole with
  | [] => failure
  | 0 :: _ :: _ => failure
  | _ => pure ()
  let (significand, taken) := absorb 0 whole
  let (fraction, cs) ← readFraction cs
  let (exponent, cs) ← readExponent cs
  match fraction, exponent with
  | none, none =>
    if taken < whole.length then
      let x ← ofParts negative significand (whole.length - taken : Nat)
      pure (x, cs)
    else if negative then
      if significand = 0 ∨ 0x8000000000000000 < significand then
        pure (double (Binary64.ofRatio true significand 1), cs)
      else pure (integer (-significand), cs)
    else pure (integer significand, cs)
  | _, _ =>
    let (significand, more) := absorb significand (fraction.getD [])
    let base : Int := (whole.length - taken : Nat) - (more : Int)
    let e := exponent.getD 0
    if exponentLimit < e.natAbs then
      if significand ≠ 0 ∧ 0 < e then failure
      else pure (double (Binary64.withSign negative 0), cs)
    else
      let x ← ofParts negative significand (base + e)
      pure (x, cs)

end Number

/-- A whole text as the nearest double: an optional sign, then `inf`, `infinity` or `nan` in any
case, or digits with a point and an exponent, where only one of the parts around the point may be
missing. -/
def Binary64.read? (s : String) : Option Binary64 := do
  let (negative, cs) := match s.toList with
    | '-' :: rest => (true, rest)
    | '+' :: rest => (false, rest)
    | rest => (false, rest)
  let word := String.ofList (cs.map Char.toLower)
  if word = "inf" ∨ word = "infinity" then return withSign negative infinityBits
  if word = "nan" then return withSign negative (infinityBits + 1)
  let (whole, cs) := spanDigits cs
  let (fraction, cs) := match cs with
    | '.' :: rest => spanDigits rest
    | rest => ([], rest)
  if whole.isEmpty ∧ fraction.isEmpty then failure
  let (exponent, cs) ← Number.readExponent cs
  if cs ≠ [] then failure
  let m : Nat := (whole ++ fraction).foldl (fun acc d => acc * 10 + d) 0
  let e := exponent.getD 0 - fraction.length
  if m = 0 then return withSign negative 0
  let size : Int := (Nat.toDigits 10 m).length + e
  if 400 < size then return withSign negative infinityBits
  if size < -400 then return withSign negative 0
  if 0 ≤ e then return ofRatio negative (m * Nat.pow 10 e.toNat) 1
  return ofRatio negative m (Nat.pow 10 (-e).toNat)

end Views
