import Views.Value.Basic
/-!
# Data documents: writing

`Value.text` writes a value as a compact document: no blanks, fields in their order, and in
strings an escape for each character that may not stand there.
-/

namespace Views

/-- The two letters that escape a character in a string, for those that have them. -/
def Value.shortEscape? (c : Char) : Option Char :=
  match c with
  | '"' => some '"'
  | '\\' => some '\\'
  | '\n' => some 'n'
  | '\r' => some 'r'
  | '\t' => some 't'
  | '\x08' => some 'b'
  | '\x0c' => some 'f'
  | _ => none

/-- A hexadecimal digit in lower case. -/
def hexDigit (n : Nat) : Char := (Nat.digitChar (n % 16))

/-- The last `width` hexadecimal digits of a number. -/
def hexDigits : Nat → Nat → List Char
  | 0, _ => []
  | width + 1, n => hexDigits width (n / 16) ++ [hexDigit n]

namespace Value

/-- A character as it stands in a string. -/
def escapeChar (c : Char) : List Char :=
  match shortEscape? c with
  | some e => ['\\', e]
  | none => if c.toNat < 0x20 then '\\' :: 'u' :: hexDigits 4 c.toNat else [c]

/-- A string in quotes. -/
def quote (s : String) : String :=
  "\"" ++ String.ofList (s.toList.flatMap escapeChar) ++ "\""

mutual

/-- The compact document of a value. -/
def text : Value → String
  | null => "null"
  | bool b => if b then "true" else "false"
  | number n => n.text
  | string s => quote s
  | list items => "[" ++ itemsText items ++ "]"
  | object fields => "\x7b" ++ fieldsText fields ++ "\x7d"

/-- The items of a list with commas between them. -/
def itemsText : List Value → String
  | [] => ""
  | [x] => text x
  | x :: y :: rest => text x ++ "," ++ itemsText (y :: rest)

/-- The fields of an object with commas between them. -/
def fieldsText : List (String × Value) → String
  | [] => ""
  | [(k, x)] => quote k ++ ":" ++ text x
  | (k, x) :: f :: rest => quote k ++ ":" ++ text x ++ "," ++ fieldsText (f :: rest)

end

end Value
end Views
