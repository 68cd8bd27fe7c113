import Views.Value.Basic
import Views.Number.Reader
/-!
# Data documents: reading

`Value.read?` reads a whole text as one value. Strings hold no bare control characters, their
escapes name whole characters, and lists and objects nest at most `depthLimit` deep. A field that
is given twice has its last value.
-/

namespace Views.Value

/-- Lists and objects may nest this deep. -/
def depthLimit : Nat := 127

/-- The white space of data documents. -/
def isSpace (c : Char) : Bool := c == ' ' || c == '\t' || c == '\n' || c == '\r'

/-- The text without the white space that it starts with. -/
def skipSpace (cs : List Char) : List Char := cs.dropWhile isSpace

/-- The value of a hexadecimal digit. -/
def hexValue? (c : Char) : Option Nat :=
  if c.isDigit then some (c.toNat - '0'.toNat)
  else if 'a' ≤ c ∧ c ≤ 'f' then some (c.toNat - 'a'.toNat + 10)
  else if 'A' ≤ c ∧ c ≤ 'F' then some (c.toNat - 'A'.toNat + 10)
  else none

/-- Four hexadecimal digits. -/
def readHex4? : List Char → Option (Nat × List Char)
  | a :: b :: c :: d :: rest => do
    let a ← hexValue? a
    let b ← hexValue? b
    let c ← hexValue? c
    let d ← hexValue? d
    pure (((a * 16 + b) * 16 + c) * 16 + d, rest)
  | _ => none

/-- The character that a hexadecimal escape names, after its `\u`; a character outside the basic
plane takes two escapes, and half of such a pair names nothing. -/
def readUnicode? (cs : List Char) : Option (Char × List Char) := do
  let (hi, rest) ← readHex4? cs
  if 0xDC00 ≤ hi ∧ hi < 0xE000 then failure
  if 0xD800 ≤ hi ∧ hi < 0xDC00 then
    match rest with
    | '\\' :: 'u' :: rest =>
      let (lo, rest) ← readHex4? rest
      if 0xDC00 ≤ lo ∧ lo < 0xE000 then
        pure (Char.ofNat (0x10000 + (hi - 0xD800) * 0x400 + (lo - 0xDC00)), rest)
      else failure
    | _ => failure
  else pure (Char.ofNat hi, rest)

/-- The character that a one-letter escape stands for. -/
def unescape? : Char → Option Char
  | '"' => some '"'
  | '\\' => some '\\'
  | '/' => some '/'
  | 'b' => some '\x08'
  | 'f' => some '\x0c'
  | 'n' => some '\n'
  | 'r' => some '\r'
  | 't' => some '\t'
  | _ => none

/-- The characters of a string after its opening quote, up to the closing one. -/
def readString? : Nat → List Char → Option (List Char × List Char)
  | 0, _ => none
  | n + 1, cs => match cs with
    | [] => none
    | '"' :: rest => some ([], rest)
    | '\\' :: 'u' :: rest => do
      let (c, rest) ← readUnicode? rest
      let (s, rest) ← readString? n rest
      pure (c :: s, rest)
    | '\\' :: e :: rest => do
      let c ← unescape? e
      let (s, rest) ← readString? n rest
      pure (c :: s, rest)
    | c :: rest => do
      if c.toNat < 0x20 ∨ c = '\\' then failure
      let (s, rest) ← readString? n rest
      pure (c :: s, rest)

mutual

/-- Reads one value; `depth` is how deep lists and objects may still nest, and `n` bounds the
work. -/
def readValue? (depth : Nat) : Nat → List Char → Option (Value × List Char)
  | 0, _ => none
  | n + 1, cs => match cs with
    | 'n' :: 'u' :: 'l' :: 'l' :: rest => some (null, rest)
    | 't' :: 'r' :: 'u' :: 'e' :: rest => some (bool true, rest)
    | 'f' :: 'a' :: 'l' :: 's' :: 'e' :: rest => some (bool false, rest)
    | '"' :: rest => (readString? (rest.length + 1) rest).map fun (s, rest) =>
        (string (String.ofList s), rest)
    | '[' :: rest =>
      if depth = 0 then none
      else match skipSpace rest with
        | ']' :: rest => some (list [], rest)
        | rest => (readItems? (depth - 1) n rest).map fun (xs, rest) => (list xs, rest)
    | '\x7b' :: rest =>
      if depth = 0 then none
      else match skipSpace rest with
        | '\x7d' :: rest => some (object [], rest)
        | rest => (readFields? (depth - 1) n rest).map fun (fs, rest) =>
            (object (Fields.ofList fs), rest)
    | cs => (Number.read? cs).map fun (x, rest) => (number x, rest)

/-- Reads the items of a list up to the closing bracket; at least one stands before it. -/
def readItems? (depth : Nat) : Nat → List Char → Option (List Value × List Char)
  | 0, _ => none
  | n + 1, cs =>
    match readValue? depth n (skipSpace cs) with
    | none => none
    | some (x, rest) => match skipSpace rest with
      | ']' :: rest => some ([x], rest)
      | ',' :: rest => (readItems? depth n rest).map fun (xs, rest) => (x :: xs, rest)
      | _ => none

/-- Reads the fields of an object up to the closing brace; at least one stands before it. -/
def readFields? (depth : Nat) : Nat → List Char → Option (List (String × Value) × List Char)
  | 0, _ => none
  | n + 1, cs =>
    match skipSpace cs with
    | '"' :: rest =>
      match readString? (rest.length + 1) rest with
      | none => none
      | some (key, rest) =>
        match skipSpace rest with
        | ':' :: rest =>
          match readValue? depth n (skipSpace rest) with
          | none => none
          | some (x, rest) => match skipSpace rest with
            | '\x7d' :: rest => some ([(String.ofList key, x)], rest)
            | ',' :: rest =>
              (readFields? depth n rest).map fun (fs, rest) => ((String.ofList key, x) :: fs, rest)
            | _ => none
        | _ => none
    | _ => none

end

/-- A whole text as one value. -/
def read? (s : String) : Option Value := do
  let cs := s.toList
  let (v, rest) ← readValue? depthLimit (2 * cs.length + 1) (skipSpace cs)
  if skipSpace rest = [] then pure v else failure

end Views.Value
