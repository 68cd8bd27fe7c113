import Views.Toml.Scalar
/-!
# Reading configuration documents

`Toml.read?` reads a whole document line by line: a header opens a table, any other line defines a
key in the table that was opened last. Arrays and tables in braces may run over several lines and
hold remarks.
-/

namespace Views

namespace TomlReader

/-- Arrays and tables in braces may nest this deep, and as many keys may be dotted together. -/
def nestingLimit : Nat := 80

/-- What follows a remark at the start of the document, line break not included. -/
def remark? (cs : List Char) : Option (List Char) :=
  let line := cs.takeWhile (· != '\n')
  let rest := cs.drop line.length
  let shown := if rest ≠ [] ∧ line.getLast? = some '\r' then line.dropLast else line
  if shown.all isPlain then some rest else none

/-- What follows blanks, line breaks and remarks; the number bounds how many lines. -/
def skipLines? : Nat → List Char → Option (List Char)
  | 0, _ => none
  | n + 1, cs =>
    let cs := skipBlanks cs
    match newline? cs, cs with
    | some rest, _ => skipLines? n rest
    | none, '#' :: rest => (remark? rest).bind (skipLines? n)
    | none, _ => some cs

/-- What follows blanks, line breaks and remarks. -/
def skipAll? (cs : List Char) : Option (List Char) := skipLines? (cs.length + 1) cs

/-- What follows the end of a line, with blanks and a remark before it. -/
def endLine? (cs : List Char) : Option (List Char) :=
  let cs := skipBlanks cs
  let rest := match cs with
    | '#' :: rest => remark? rest
    | _ => some cs
  rest.bind fun
    | [] => some []
    | cs => newline? cs

/-- The characters of a key without quotes. -/
def isKeyChar (c : Char) : Bool := c.isAlphanum || c == '_' || c == '-'

/-- One key. -/
def readKey? (cs : List Char) : Option (String × List Char) :=
  match cs with
  | '"' :: rest => (readBasic? (rest.length + 1) rest).map fun (s, rest) => (String.ofList s, rest)
  | '\'' :: rest => (readLiteral? rest).map fun (s, rest) => (String.ofList s, rest)
  | _ =>
    let key := cs.takeWhile isKeyChar
    if key = [] then none else some (String.ofList key, cs.drop key.length)

/-- Keys with dots between them, and blanks around the dots. -/
def readKeys? : Nat → List Char → Option (List String × List Char)
  | 0, _ => none
  | n + 1, cs => do
    let (key, rest) ← readKey? (skipBlanks cs)
    match skipBlanks rest with
    | '.' :: rest =>
      let (keys, rest) ← readKeys? n rest
      pure (key :: keys, rest)
    | rest => pure ([key], rest)

/-- The keys that lead to a value or to a table, no more than the limit. -/
def readWay? (cs : List Char) : Option (List String × List Char) :=
  (readKeys? (cs.length + 1) cs).filter fun (keys, _) => keys.length ≤ nestingLimit

mutual

/-- A value; `depth` is how deep arrays and tables may still nest, and the next number bounds the
work. -/
def readValue? (depth : Nat) : Nat → List Char → Option (Toml × List Char)
  | 0, _ => none
  | n + 1, cs => match cs with
    | '"' :: _ => (readText? cs).map fun (s, rest) => (.string s, rest)
    | '\'' :: _ => (readText? cs).map fun (s, rest) => (.string s, rest)
    | '[' :: rest => match depth with
      | 0 => none
      | depth + 1 => (readItems? depth n rest).map fun (items, rest) => (.array items, rest)
    | '\x7b' :: rest => match depth with
      | 0 => none
      | depth + 1 => readFields? depth n (Toml.empty .inline) rest
    | _ => readScalar? cs

/-- The items of an array after its opening bracket or a comma. -/
def readItems? (depth : Nat) : Nat → List Char → Option (List Toml × List Char)
  | 0, _ => none
  | n + 1, cs => do
    match ← skipAll? cs with
    | ']' :: rest => pure ([], rest)
    | cs =>
      let (item, rest) ← readValue? depth n cs
      match ← skipAll? rest with
      | ',' :: rest =>
        let (items, rest) ← readItems? depth n rest
        pure (item :: items, rest)
      | ']' :: rest => pure ([item], rest)
      | _ => none

/-- The table that the fields after an opening brace or a comma make of a table. -/
def readFields? (depth : Nat) : Nat → Toml → List Char → Option (Toml × List Char)
  | 0, _, _ => none
  | n + 1, t, cs => do
    match ← skipAll? cs with
    | '\x7d' :: rest => pure (t, rest)
    | cs =>
      let (keys, rest) ← readWay? cs
      let rest ← skipAll? (← after? '=' (← skipAll? rest))
      let (value, rest) ← readValue? depth n rest
      let t ← t.define keys value
      match ← skipAll? rest with
      | ',' :: rest => readFields? depth n t rest
      | '\x7d' :: rest => pure (t, rest)
      | _ => none

end

/-- The keys of a header after its opening brackets, up to its closing ones, and what follows its
line. -/
def readHeader? (brackets : List Char) (cs : List Char) : Option (List String × List Char) := do
  let (keys, rest) ← readWay? cs
  if brackets.isPrefixOf rest then
    pure (keys, ← endLine? (rest.drop brackets.length))
  else none

/-- Reads lines into a document; `opened` are the keys of the header that was read last. -/
def readLines? : Nat → List String → Toml → List Char → Option Toml
  | 0, _, _, _ => none
  | n + 1, opened, document, cs => do
    match ← skipAll? cs with
    | [] => pure document
    | '[' :: '[' :: rest =>
      let (keys, rest) ← readHeader? [']', ']'] rest
      readLines? n keys (← document.append keys) rest
    | '[' :: rest =>
      let (keys, rest) ← readHeader? [']'] rest
      readLines? n keys (← document.open keys) rest
    | cs =>
      let (keys, rest) ← readWay? cs
      let rest := skipBlanks (← after? '=' rest)
      let (value, rest) ← readValue? nestingLimit (rest.length + 1) rest
      let document ← Toml.within .implied (·.define keys value) opened document
      readLines? n opened document (← endLine? rest)

end TomlReader

/-- The document that a text is, a table. A mark of the byte order may stand in front. -/
def Toml.read? (text : String) : Option Toml :=
  let cs := match text.toList with
    | '\uFEFF' :: rest => rest
    | cs => cs
  TomlReader.readLines? (cs.length + 1) [] (.empty .header) cs

end Views
