import Views.Template.Syntax
import Views.Template.Error
import Views.Value.Reader
/-!
# Reading operands

The inside of a tag: names, paths, literals and helpers applied in parentheses. Each reader takes
the text that is left and gives back what it read and the rest, or nothing if the text does not
start with such a thing. A literal that has the shape of one but is no data document is a fault
that does not stop the reading.
-/

namespace Views.TagReader

open Value (isSpace skipSpace)

/-- A reader: what the text starts with, and the rest. -/
abbrev Reader (α : Type) := List Char → Option (α × List Char)

/-- What was read, unless a literal in it is faulty. -/
abbrev Checked (α : Type) := Except TemplateFault α

/-- The characters of names. -/
def isSymbolChar (c : Char) : Bool :=
  c.isAlphanum || "_-$:".toList.contains c || 0x80 ≤ c.toNat

/-- The characters of the names of partials. -/
def isPartialChar (c : Char) : Bool :=
  c.isAlphanum || "_-/.@".toList.contains c || 0x80 ≤ c.toNat

/-- The rest of the text after a word that it starts with. -/
def after? (word : String) (cs : List Char) : Option (List Char) :=
  if word.toList.isPrefixOf cs then some (cs.drop word.length) else none

/-- The longest non-empty run of characters that satisfy `p`. -/
def run? (p : Char → Bool) : Reader (List Char) := fun cs =>
  match cs.takeWhile p with
  | [] => none
  | word => some (word, cs.dropWhile p)

/-- A name. -/
def name? : Reader String := fun cs =>
  (run? isSymbolChar cs).map fun (word, rest) => (String.ofList word, rest)

/-- What was consumed between a text and a tail of it. -/
def consumed (cs rest : List Char) : List Char := cs.take (cs.length - rest.length)

/-! ## Literals -/

/-- The rest after a string that ends with `quote`; escapes are checked for their shape. -/
def stringEnd? (quote : Char) : Nat → List Char → Option (List Char)
  | 0, _ => none
  | n + 1, cs => match cs with
    | [] => none
    | '\\' :: 'u' :: a :: b :: c :: d :: rest =>
      if [a, b, c, d].all fun h => (Value.hexValue? h).isSome then stringEnd? quote n rest else none
    | '\\' :: e :: rest =>
      if e == quote || "\\/bfnrt".toList.contains e then stringEnd? quote n rest else none
    | c :: rest =>
      if c == quote then some rest else if c == '\\' then none else stringEnd? quote n rest

/-- The rest after a string in either kind of quotes. -/
def quotedEnd? : List Char → Option (List Char)
  | '"' :: rest => stringEnd? '"' (rest.length + 1) rest
  | '\'' :: rest => stringEnd? '\'' (rest.length + 1) rest
  | _ => none

/-- Refuses a text that goes on with a character of a name. -/
def endOfWord? (cs : List Char) : Option (List Char) :=
  match cs with
  | c :: _ => if isSymbolChar c then none else some cs
  | [] => some cs

/-- The rest after a number: digits with an optional minus, fraction and exponent. -/
def numberEnd? (cs : List Char) : Option (List Char) := do
  let cs := (after? "-" cs).getD cs
  let (_, cs) ← run? Char.isDigit cs
  let cs := ((after? "." cs).getD cs).dropWhile Char.isDigit
  let exponent? := do
    let rest ← after? "E" cs
    let (_, rest) ← run? Char.isDigit ((after? "-" rest).getD rest)
    pure rest
  endOfWord? (exponent?.getD cs)

mutual

/-- The rest after a literal. -/
def literalEnd? : Nat → List Char → Option (List Char)
  | 0, _ => none
  | n + 1, cs =>
    (quotedEnd? cs).or <|
    (match cs with
      | '[' :: rest =>
        let rest := skipSpace rest
        itemsEnd? n (((literalEnd? n rest)).getD rest)
      | '\x7b' :: rest =>
        let rest := skipSpace rest
        fieldsEnd? n ((fieldEnd? n rest).getD rest)
      | _ => none).or <|
    (numberEnd? cs).or <|
    ((after? "null" cs).bind endOfWord?).or <|
    ((after? "true" cs).or (after? "false" cs)).bind endOfWord?

/-- The rest after further items and the bracket that closes a list. -/
def itemsEnd? : Nat → List Char → Option (List Char)
  | 0, _ => none
  | n + 1, cs => match skipSpace cs with
    | ']' :: rest => some rest
    | ',' :: rest => (literalEnd? n (skipSpace rest)).bind (itemsEnd? n)
    | _ => none

/-- The rest after a field of an object. -/
def fieldEnd? : Nat → List Char → Option (List Char)
  | 0, _ => none
  | n + 1, cs => do
    let rest ← quotedEnd? cs
    let rest ← after? ":" (skipSpace rest)
    literalEnd? n (skipSpace rest)

/-- The rest after further fields and the brace that closes an object. -/
def fieldsEnd? : Nat → List Char → Option (List Char)
  | 0, _ => none
  | n + 1, cs => match skipSpace cs with
    | '\x7d' :: rest => some rest
    | ',' :: rest => (fieldEnd? n (skipSpace rest)).bind (fieldsEnd? n)
    | _ => none

end

/-- The inside of a string in single quotes as it would stand in double quotes. -/
def requote : List Char → List Char
  | '\\' :: '\'' :: rest => '\'' :: requote rest
  | '"' :: rest => '\\' :: '"' :: requote rest
  | c :: rest => c :: requote rest
  | [] => []

/-- The value of a literal. -/
def literalValue (text : List Char) : Checked Operand :=
  let document := match text with
    | '\'' :: rest => '"' :: requote rest.dropLast ++ ['"']
    | _ => text
  match Value.read? (String.ofList document) with
  | some v => .ok (.literal v)
  | none => .error (.invalidParam (String.ofList text))

/-- A literal. -/
def literal? : Reader (Checked Operand) := fun cs => do
  let rest ← literalEnd? (2 * cs.length + 1) cs
  pure (literalValue (consumed cs rest), rest)

/-! ## Paths -/

/-- The rest after a separator of path steps. -/
def separator? (cs : List Char) : Option (List Char) := (after? "/" cs).or (after? "." cs)

/-- One step into the data: a name, or any text in brackets. -/
def step? : Reader String := fun cs =>
  (name? cs).or <| match cs with
    | '[' :: rest =>
      match rest.dropWhile (· != ']') with
      | ']' :: after => some (String.ofList (rest.takeWhile (· != ']')), after)
      | _ => none
    | _ => none

/-- Steps upwards, each with its separator. -/
def ups : Nat → List Char → Nat × List Char
  | 0, cs => (0, cs)
  | n + 1, cs => match (after? ".." cs).bind separator? with
    | some rest => let (count, rest) := ups n rest; (count + 1, rest)
    | none => (0, cs)

/-- Further steps, each after a separator. -/
def moreSteps : Nat → List Char → List String × List Char
  | 0, cs => ([], cs)
  | n + 1, cs => match (separator? cs).bind step? with
    | some (name, rest) => let (names, rest) := moreSteps n rest; (name :: names, rest)
    | none => ([], cs)

/-- The reference that the parts of a path make. Stepping into `this` is no step; a variable is
named by the first step after its mark, and one that is only `this` is the value at hand. -/
def makeReference (fromRoot isVariable : Bool) (level : Nat) (names : List String) : Reference :=
  let names := names.filter (· ≠ "this")
  if fromRoot then .steps (.root :: names.map .into)
  else if isVariable then
    match names with
    | name :: _ => .blockVariable level name
    | [] => .steps []
  else .steps (List.replicate level .up ++ names.map .into)

/-- A path. -/
def reference? : Reader Operand := fun cs => do
  let rest := (((after? "this" cs).bind separator?).or (after? "./" cs)).getD cs
  let root? := (after? "@root" rest).bind separator?
  let rest := root?.getD rest
  let mark? := after? "@" rest
  let (level, rest) := ups rest.length (mark?.getD rest)
  let (first, rest) ← step? rest
  let (others, rest) := moreSteps rest.length rest
  pure (.path (makeReference root?.isSome mark?.isSome level (first :: others))
    (String.ofList (consumed cs rest)), rest)

/-! ## Arguments -/

/-- An argument of a helper, positional or named. -/
inductive Argument where
  | positional (value : Operand)
  | named (name : String) (value : Operand)

/-- Whether a text starts with one of the words that end the arguments of a tag. Such a word is an
ordinary name where a name follows it, at once or after blanks. -/
def startsWithKeyword (cs : List Char) : Bool :=
  (((after? "as" cs).or (after? "else" cs)).bind fun rest => endOfWord? (skipSpace rest)).isSome

/-- The invocation of a head with arguments in the order in which they were written; a name given
twice has its last value. -/
def invoke (head : Operand) (args : List Argument) : Invocation :=
  args.foldl (fun inv arg => match arg with
    | .positional value => { inv with args := inv.args ++ [value] }
    | .named name value =>
      { inv with hash :=
          if inv.hash.any (·.1 == name) then
            inv.hash.map fun p => if p.1 == name then (name, value) else p
          else inv.hash ++ [(name, value)] }) { head }

mutual

/-- One argument: a literal, a path, or a helper in parentheses. -/
def operand? : Nat → Reader (Checked Operand)
  | 0, _ => none
  | n + 1, cs =>
    if startsWithKeyword cs then none
    else (literal? cs).or <|
      ((reference? cs).map fun (p, rest) => (.ok p, rest)).or (application? n cs)

/-- A helper applied in parentheses: a name with arguments, or a path alone. -/
def application? : Nat → Reader (Checked Operand)
  | 0, _ => none
  | n + 1, cs => do
    let inside ← (after? "(" cs).map skipSpace
    let withArguments? : Option (Checked Operand × List Char) := do
      let (head, rest) ← name? inside
      let (args, rest) ← arguments? n rest
      match args with
      | [] => none
      | _ => pure (args.mapM id |>.map fun args =>
          let inv := invoke (.name head) args
          .apply inv.head inv.args inv.hash, rest)
    let (made, rest) ← withArguments?.or <|
      (reference? inside).map fun (p, rest) => (.ok (.apply p [] []), rest)
    let rest ← after? ")" (skipSpace rest)
    pure (made, rest)

/-- As many arguments as there are. -/
def arguments? : Nat → Reader (List (Checked Argument))
  | 0, _ => none
  | n + 1, cs =>
    let start := skipSpace cs
    let named? : Option (Checked Argument × List Char) := do
      let (key, rest) ← name? start
      let rest ← after? "=" (skipSpace rest)
      let (value, rest) ← operand? n (skipSpace rest)
      pure (value.map (.named key), rest)
    match named?.or ((operand? n start).map fun (v, rest) => (v.map .positional, rest)) with
    | none => some ([], cs)
    | some (arg, rest) => (arguments? n rest).map fun (args, rest) => (arg :: args, rest)

end

/-- How much work the readers above may need for a text. -/
def effort (cs : List Char) : Nat := 3 * cs.length + 3

end Views.TagReader
