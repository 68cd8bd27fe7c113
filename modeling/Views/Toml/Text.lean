import Views.Value.Reader
/-!
# The texts of configuration documents

Strings in four forms: one line or several, with escapes or as they stand. Every reader gives what
it read and the rest of the document.
-/

namespace Views.TomlReader

/-- Spaces and tabs. -/
def isBlank (c : Char) : Bool := c == ' ' || c == '\t'

/-- The document without the blanks that it starts with. -/
def skipBlanks (cs : List Char) : List Char := cs.dropWhile isBlank

/-- Whether a character may stand in a text: no control character but the tab. -/
def isPlain (c : Char) : Bool := c == '\t' || (0x20 ≤ c.toNat && c.toNat != 0x7F)

/-- What follows a line break at the start of the document. -/
def newline? : List Char → Option (List Char)
  | '\n' :: rest => some rest
  | '\r' :: '\n' :: rest => some rest
  | _ => none

/-- A number of so many hexadecimal digits. -/
def readHex? : Nat → Nat → List Char → Option (Nat × List Char)
  | 0, acc, cs => some (acc, cs)
  | n + 1, acc, c :: cs => (Value.hexValue? c).bind fun d => readHex? n (acc * 16 + d) cs
  | _ + 1, _, [] => none

/-- The character of a code point, which is none of a pair. -/
def character? (n : Nat) : Option Char :=
  if n < 0xD800 ∨ (0xE000 ≤ n ∧ n < 0x110000) then some (Char.ofNat n) else none

/-- The character that an escape stands for, after its backslash. -/
def readEscape? : List Char → Option (Char × List Char)
  | 'b' :: rest => some ('\x08', rest)
  | 't' :: rest => some ('\t', rest)
  | 'n' :: rest => some ('\n', rest)
  | 'f' :: rest => some ('\x0c', rest)
  | 'r' :: rest => some ('\r', rest)
  | 'e' :: rest => some ('\x1b', rest)
  | '"' :: rest => some ('"', rest)
  | '\\' :: rest => some ('\\', rest)
  | 'x' :: rest => numbered 2 rest
  | 'u' :: rest => numbered 4 rest
  | 'U' :: rest => numbered 8 rest
  | _ => none
where
  /-- The character whose code point is given by so many digits. -/
  numbered (digits : Nat) (cs : List Char) : Option (Char × List Char) := do
    let (n, rest) ← readHex? digits 0 cs
    pure (← character? n, rest)

/-- A text in one line with escapes, after its opening quote. -/
def readBasic? : Nat → List Char → Option (List Char × List Char)
  | 0, _ => none
  | n + 1, cs => match cs with
    | [] => none
    | '"' :: rest => some ([], rest)
    | '\\' :: rest => do
      let (c, rest) ← readEscape? rest
      let (s, rest) ← readBasic? n rest
      pure (c :: s, rest)
    | c :: rest =>
      if isPlain c then do
        let (s, rest) ← readBasic? n rest
        pure (c :: s, rest)
      else none

/-- A text in one line as it stands, after its opening quote. -/
def readLiteral? : List Char → Option (List Char × List Char)
  | [] => none
  | '\'' :: rest => some ([], rest)
  | c :: rest =>
    if isPlain c then (readLiteral? rest).map fun (s, rest) => (c :: s, rest) else none

/-- The end of a text in several lines: three quotes, with up to two more before them that belong to
the text. -/
def closing? (quote : Char) (cs : List Char) : Option (List Char × List Char) :=
  let run := min (cs.takeWhile (· == quote)).length 5
  if 3 ≤ run then some (List.replicate (run - 3) quote, cs.drop run) else none

/-- The document without the blanks and line breaks that it starts with. -/
def skipBreaks : List Char → List Char
  | '\r' :: '\n' :: rest => skipBreaks rest
  | c :: rest => if isBlank c || c == '\n' then skipBreaks rest else c :: rest
  | [] => []

/-- What follows a backslash at the end of a line: all blanks and line breaks are left out. -/
def continuation? (cs : List Char) : Option (List Char) :=
  (newline? (skipBlanks cs)).map skipBreaks

/-- A text in several lines with escapes, after its opening quotes. -/
def readLongBasic? : Nat → List Char → Option (List Char × List Char)
  | 0, _ => none
  | n + 1, cs =>
    match closing? '"' cs with
    | some found => some found
    | none => match cs with
      | [] => none
      | '\\' :: rest =>
        match continuation? rest with
        | some rest => readLongBasic? n rest
        | none => do
          let (c, rest) ← readEscape? rest
          let (s, rest) ← readLongBasic? n rest
          pure (c :: s, rest)
      | '\r' :: '\n' :: rest => do
        let (s, rest) ← readLongBasic? n rest
        pure ('\r' :: '\n' :: s, rest)
      | c :: rest =>
        if isPlain c || c == '\n' then do
          let (s, rest) ← readLongBasic? n rest
          pure (c :: s, rest)
        else none

/-- A text in several lines as it stands, after its opening quotes. -/
def readLongLiteral? : Nat → List Char → Option (List Char × List Char)
  | 0, _ => none
  | n + 1, cs =>
    match closing? '\'' cs with
    | some found => some found
    | none => match cs with
      | [] => none
      | '\r' :: '\n' :: rest => do
        let (s, rest) ← readLongLiteral? n rest
        pure ('\r' :: '\n' :: s, rest)
      | c :: rest =>
        if isPlain c || c == '\n' then do
          let (s, rest) ← readLongLiteral? n rest
          pure (c :: s, rest)
        else none

/-- A text in any of the forms; a line break right after three opening quotes is left out. -/
def readText? (cs : List Char) : Option (String × List Char) :=
  let found := match cs with
    | '"' :: '"' :: '"' :: rest =>
      readLongBasic? (rest.length + 1) ((newline? rest).getD rest)
    | '\'' :: '\'' :: '\'' :: rest =>
      readLongLiteral? (rest.length + 1) ((newline? rest).getD rest)
    | '"' :: rest => readBasic? (rest.length + 1) rest
    | '\'' :: rest => readLiteral? rest
    | _ => none
  found.map fun (s, rest) => (String.ofList s, rest)

end Views.TomlReader
