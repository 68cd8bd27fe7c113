import Views.Number.Reader
import Views.Toml.Basic
import Views.Toml.Text
/-!
# Plain values of configuration documents

Numbers, booleans, dates and times, read from the run of characters that a value is. Underscores
may stand between digits; a whole number has no needless zero in front; a date has to be in the
calendar.
-/

namespace Views.TomlReader

/-- The characters of plain values. -/
def isScalarChar (c : Char) : Bool :=
  c.isAlphanum || c == '+' || c == '-' || c == '_' || c == '.' || c == ':'

/-- Digits of some kind with single underscores between them, without the underscores. -/
def digitsOf? (isDigit : Char → Bool) : List Char → Option (List Char)
  | [] => none
  | [c] => if isDigit c then some [c] else none
  | c :: '_' :: rest => if isDigit c then (digitsOf? isDigit rest).map (c :: ·) else none
  | c :: d :: rest => if isDigit c then (digitsOf? isDigit (d :: rest)).map (c :: ·) else none

/-- Decimal digits that are those of a whole number. -/
def wholeDigits? (cs : List Char) : Option (List Char) :=
  match digitsOf? Char.isDigit cs with
  | some ('0' :: _ :: _) => none
  | other => other

/-- The number of digits in a base. -/
def numberOf (base : Nat) (digits : List Char) : Nat :=
  digits.foldl (fun acc c => acc * base + (Value.hexValue? c).getD 0) 0

/-- Whether a number fits into 128 bits, with a sign if it is negative. -/
def fits (n : Int) : Bool :=
  -0x80000000000000000000000000000000 ≤ n && n < 0x100000000000000000000000000000000

/-- An integer that is not too large. -/
def integer? (n : Int) : Option Toml := if fits n then some (.integer n) else none

/-- A sign and what follows it. -/
def splitSign : List Char → Option Char × List Char
  | '+' :: rest => (some '+', rest)
  | '-' :: rest => (some '-', rest)
  | cs => (none, cs)

/-- A number with a point or an exponent. -/
def readFloat? (cs : List Char) : Option Toml := do
  let (sign, body) := splitSign cs
  let isMark (c : Char) : Bool := c == 'e' || c == 'E'
  let mantissa := body.takeWhile (! isMark ·)
  let whole := mantissa.takeWhile (· != '.')
  let digits ← wholeDigits? whole
  let fraction ← match mantissa.drop whole.length with
    | [] => some []
    | _ :: fraction => (digitsOf? Char.isDigit fraction).map ('.' :: ·)
  let exponent ← match body.drop mantissa.length with
    | [] => some []
    | mark :: power =>
      let (sign, power) := splitSign power
      (digitsOf? Char.isDigit power).map fun digits => mark :: (sign.toList ++ digits)
  let x ← Binary64.read? (String.ofList (sign.toList ++ digits ++ fraction ++ exponent))
  if x.isFinite then some (.float x) else none

/-- A number. -/
def readNumber? (cs : List Char) : Option Toml :=
  match cs with
  | '0' :: 'x' :: digits =>
    (digitsOf? (fun c => (Value.hexValue? c).isSome) digits).bind fun ds =>
      integer? (numberOf 16 ds)
  | '0' :: 'o' :: digits =>
    (digitsOf? (fun c => '0' ≤ c && c ≤ '7') digits).bind fun ds => integer? (numberOf 8 ds)
  | '0' :: 'b' :: digits =>
    (digitsOf? (fun c => c == '0' || c == '1') digits).bind fun ds => integer? (numberOf 2 ds)
  | _ =>
    let (sign, body) := splitSign cs
    if body = "inf".toList then some (.float (.withSign (sign == some '-') Binary64.infinityBits))
    else if body = "nan".toList then
      some (.float (.withSign (sign == some '-') (Binary64.infinityBits + 1)))
    else match wholeDigits? body with
      | some digits =>
        let n : Int := numberOf 10 digits
        integer? (if sign = some '-' then -n else n)
      | none => readFloat? cs

/-! ## Dates and times -/

/-- A number of so many decimal digits. -/
def readDigits? (count : Nat) (cs : List Char) : Option (Nat × List Char) :=
  let digits := cs.take count
  if digits.length = count ∧ digits.all Char.isDigit then
    some (numberOf 10 digits, cs.drop count)
  else none

/-- What follows a character. -/
def after? (c : Char) : List Char → Option (List Char)
  | d :: rest => if c = d then some rest else none
  | [] => none

/-- The number of days of a month. -/
def daysIn (year month : Nat) : Nat :=
  if month = 2 then
    if year % 4 = 0 ∧ (year % 100 ≠ 0 ∨ year % 400 = 0) then 29 else 28
  else if month = 4 ∨ month = 6 ∨ month = 9 ∨ month = 11 then 30
  else 31

/-- What follows a date. -/
def date? (cs : List Char) : Option (List Char) := do
  let (year, cs) ← readDigits? 4 cs
  let (month, cs) ← readDigits? 2 (← after? '-' cs)
  let (day, cs) ← readDigits? 2 (← after? '-' cs)
  if 1 ≤ month ∧ month ≤ 12 ∧ 1 ≤ day ∧ day ≤ daysIn year month then some cs else none

/-- What follows hours and minutes. -/
def hours? (cs : List Char) : Option (List Char) := do
  let (hour, cs) ← readDigits? 2 cs
  let (minute, cs) ← readDigits? 2 (← after? ':' cs)
  if hour ≤ 23 ∧ minute ≤ 59 then some cs else none

/-- What follows a time, which may lack its seconds. -/
def time? (cs : List Char) : Option (List Char) := do
  let cs ← hours? cs
  match after? ':' cs with
  | none => some cs
  | some cs =>
    let (second, cs) ← readDigits? 2 cs
    if 60 < second then none
    else match after? '.' cs with
      | none => some cs
      | some cs =>
        if (cs.head?.map Char.isDigit).getD false then some (cs.dropWhile Char.isDigit) else none

/-- Whether the rest of a date with a time is an offset, or nothing. -/
def isOffset : List Char → Bool
  | [] => true
  | ['Z'] => true
  | ['z'] => true
  | '+' :: cs => hours? cs == some []
  | '-' :: cs => hours? cs == some []
  | _ => false

/-- Whether a run of characters is a date, a time, or both. -/
def isMoment (cs : List Char) : Bool :=
  match date? cs with
  | some [] => true
  | some (mark :: rest) =>
    (mark == 'T' || mark == 't') && ((time? rest).map isOffset).getD false
  | none => time? cs == some []

/-- A plain value at the start of the document. A blank between a date and a time counts as a
mark. -/
def readScalar? (cs : List Char) : Option (Toml × List Char) :=
  let run := cs.takeWhile isScalarChar
  let rest := cs.drop run.length
  let (run, rest) := match date? run, rest with
    | some [], ' ' :: d :: more =>
      if d.isDigit then
        let time := (d :: more).takeWhile isScalarChar
        (run ++ 'T' :: time, (d :: more).drop time.length)
      else (run, rest)
    | _, _ => (run, rest)
  let value :=
    if run = "true".toList then some (.boolean true)
    else if run = "false".toList then some (.boolean false)
    else if isMoment run then some (.moment (String.ofList run))
    else readNumber? run
  value.map fun v => (v, rest)

end Views.TomlReader
