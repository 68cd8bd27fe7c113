import Views.Template.Operand
/-!
# Tokens of a template source

A source is a sequence of texts and tags in which blocks nest. `SourceToken.all?` gives the
sequence, or nothing if the source is no template. Blanks before a tag or a text belong to the
token as its gap; whether they reach the page is decided when the template is assembled.
-/

namespace Views

/-- The kinds of blocks, by how they are closed. -/
inductive BlockKind where
  | helper
  | decorator
  | inclusion
  deriving DecidableEq, Repr

/-- The inside of a tag: whether it takes the blanks before and after it away, what it invokes,
and the names that it gives. -/
structure TagBody where
  trimsBefore : Bool
  trimsAfter : Bool
  content : TagReader.Checked (Invocation × Option BlockNames)

/-- What a token is. -/
inductive Piece where
  /-- Text, its escapes resolved. -/
  | text (content : List Char)
  | expression (body : TagBody) (escaped : Bool)
  | opens (kind : BlockKind) (body : TagBody)
  /-- The text of a raw block, its escapes resolved. -/
  | rawText (content : List Char)
  /-- The start of the other case, on a condition of its own if it is chained. -/
  | otherwise (body : TagBody) (chained : Bool)
  | closes (kind : BlockKind) (body : TagBody)
  | decorator (body : TagBody)
  | inclusion (body : TagBody)
  | comment (content : List Char)
  /-- The end of the source. -/
  | finish

/-- A token with the blanks before it and the places where it starts and ends. -/
structure SourceToken where
  gap : List Char
  start : Mark
  stop : Mark
  piece : Piece

namespace TagReader

open Value (skipSpace)

/-! ## Text -/

/-- Resolves an escape at the start of a text: a backslash before two braces keeps them as text,
and of several backslashes before two braces the first is dropped. Gives the text meant and the
rest. -/
def escape? (cs : List Char) : Option (List Char × List Char) :=
  match cs with
  | '\\' :: '\x7b' :: '\x7b' :: '\x7b' :: '\x7b' :: rest =>
    some ("\x7b\x7b\x7b\x7b".toList, rest)
  | '\\' :: '\x7b' :: '\x7b' :: rest => some ("\x7b\x7b".toList, rest)
  | '\\' :: '\\' :: rest =>
    let more := rest.takeWhile (· == '\\')
    let after := rest.dropWhile (· == '\\')
    if (after? "\x7b\x7b" after).isSome then some ('\\' :: more, after) else none
  | _ => none

/-- Text up to `stop`, with escapes resolved, and the rest. -/
def textUntil (stop : String) : Nat → List Char → List Char × List Char
  | 0, cs => ([], cs)
  | n + 1, cs =>
    match escape? cs with
    | some (meant, rest) =>
      let (text, rest) := textUntil stop n rest
      (meant ++ text, rest)
    | none =>
      if (after? stop cs).isSome then ([], cs)
      else match cs with
        | [] => ([], [])
        | c :: rest =>
          let (text, rest) := textUntil stop n rest
          (c :: text, rest)

/-! ## The insides of tags -/

/-- What a tag invokes and the names it gives. -/
abbrev Content := Checked (Invocation × Option BlockNames)

/-- A name in parentheses or a path. -/
def headOperand? : Reader (Checked Operand) := fun cs =>
  (application? (effort cs) cs).or ((reference? cs).map fun (p, rest) => (.ok p, rest))

/-- A checked head with checked arguments; the fault of the head comes first. -/
def checkedContent (head : Checked Operand) (args : List (Checked Argument))
    (names : Option BlockNames) : Content := do
  let head ← head
  let args ← args.mapM id
  pure (invoke head args, names)

/-- A name with at least one argument, or a head alone. -/
def expressionContent? : Reader Content := fun cs =>
  let withArguments? : Option (Content × List Char) := do
    let (head, rest) ← name? cs
    let (args, rest) ← arguments? (effort rest) rest
    if args.isEmpty then none
    else pure (checkedContent (.ok (.name head)) args none, rest)
  withArguments?.or <| (headOperand? cs).map fun (head, rest) => (checkedContent head [] none, rest)

/-- The names that a block gives, between bars. -/
def blockNames? : Reader BlockNames := fun cs => do
  let rest ← after? "as" cs
  let rest ← after? "|" (skipSpace rest)
  let (value, rest) ← name? (skipSpace rest)
  let key? := name? (skipSpace rest)
  let rest ← after? "|" (skipSpace ((key?.map Prod.snd).getD rest))
  pure (⟨value, key?.map Prod.fst⟩, rest)

/-- A name with any arguments and names. -/
def lineContent? : Reader Content := fun cs => do
  let (head, rest) ← name? cs
  let (args, rest) ← arguments? (effort rest) rest
  let names? := blockNames? (skipSpace rest)
  pure (checkedContent (.ok (.name head)) args (names?.map Prod.fst),
    (names?.map Prod.snd).getD rest)

/-- Text up to a single quote, and what comes from there on; a quote after a backslash is text. -/
def quotedText : List Char → List Char × List Char
  | '\\' :: '\'' :: rest => let (text, rest) := quotedText rest; ('\\' :: '\'' :: text, rest)
  | '\'' :: rest => ([], '\'' :: rest)
  | c :: rest => let (text, rest) := quotedText rest; (c :: text, rest)
  | [] => ([], [])

/-- The name of a partial: letters, digits and separators, or a text in single quotes, which belong
to the name. -/
def partialName? : Reader (Checked Operand) := fun cs =>
  ((run? isPartialChar cs).map fun (word, rest) => (.ok (.name (String.ofList word)), rest)).or <|
  match cs with
  | '\'' :: rest =>
    match quotedText rest with
    | (text@(_ :: _), '\'' :: after) =>
      some (.ok (.name (String.ofList ('\'' :: text ++ ['\'']))), after)
    | _ => none
  | _ => none

/-- A partial with any arguments. -/
def partialContent? : Reader Content := fun cs => do
  let (head, rest) ← (partialName? cs).or (headOperand? cs)
  let (args, rest) ← arguments? (effort rest) rest
  pure (checkedContent head args none, rest)

/-- A bare name. -/
def nameContent? : Reader Content := fun cs =>
  (name? cs).map fun (name, rest) => (checkedContent (.ok (.name name)) [] none, rest)

/-- The bare name of a partial. -/
def partialNameContent? : Reader Content := fun cs =>
  (partialName? cs).map fun (name, rest) => (checkedContent name [] none, rest)

/-- The inside of a tag that ends a block: a name, or nothing, which counts as the empty name. -/
def closingContent? (name? : Reader Content) : Reader Content := fun cs =>
  (name? cs).or (some (checkedContent (.ok (.name "")) [] none, cs))

/-! ## Tags -/

/-- The optional mark by which a tag takes the blanks beside it away. -/
def tilde (cs : List Char) : Bool × List Char :=
  match skipSpace cs with
  | '~' :: rest => (true, skipSpace rest)
  | rest => (false, rest)

/-- A tag: its opening, the marker of its kind, its inside and its closing. -/
def tag? (opening marker closing : String) (inside? : Reader Content) : Reader TagBody :=
  fun cs => do
    let (before, rest) := tilde (← after? opening cs)
    let rest := skipSpace (← after? marker rest)
    let (content, rest) ← inside? rest
    let (behind, rest) := tilde rest
    let rest ← after? closing rest
    pure (⟨before, behind, content⟩, rest)

/-- A tag in two braces. -/
def braced? (marker : String) (inside? : Reader Content) : Reader TagBody :=
  tag? "\x7b\x7b" marker "\x7d\x7d" inside?

/-- The marker of the other case. -/
def elseMarker? (cs : List Char) : Option (List Char) := (after? "else" cs).or (after? "^" cs)

/-- A tag that starts the other case on a condition of its own. -/
def chainedElse? : Reader TagBody :=
  braced? "" fun cs => do lineContent? (skipSpace (← elseMarker? cs))

/-- A tag that starts the other case. -/
def plainElse? : Reader TagBody :=
  braced? "" fun cs => do
    pure (checkedContent (.ok (.name "else")) [] none, ← elseMarker? cs)

/-- An expression whose value is written as it is: in three braces, in two with a third inside the
marks, or after an ampersand. -/
def plainExpression? : Reader TagBody := fun cs =>
  (tag? "\x7b\x7b\x7b" "" "\x7d\x7d\x7d" expressionContent? cs).or <|
  (braced? "\x7b" (fun cs => do
    let (content, rest) ← expressionContent? cs
    pure (content, ← after? "\x7d" (skipSpace rest))) cs).or <|
  braced? "&" (fun cs => (headOperand? cs).map fun (head, rest) =>
    (checkedContent head [] none, rest)) cs

/-- A remark: up to two dashes and braces if it starts with two dashes, perhaps after blanks, and
these are found, up to two braces otherwise. -/
def comment? (cs : List Char) : Option (List Char × List Char) :=
  let upTo (stop : String) (cs : List Char) : Option (List Char × List Char) :=
    let rec find : List Char → List Char → Option (List Char × List Char)
      | acc, [] => (after? stop []).map (acc.reverse, ·)
      | acc, c :: rest => match after? stop (c :: rest) with
        | some after => some (acc.reverse, after)
        | none => find (c :: acc) rest
    find [] cs
  (after? "\x7b\x7b!" cs).bind fun inside =>
    ((after? "--" (skipSpace inside)).bind (upTo "--\x7d\x7d")).or (upTo "\x7d\x7d" inside)

/-- A block that is open: a helper block knows whether its last case has begun. -/
inductive OpenBlock where
  | helper (inLastCase : Bool)
  | decorator
  | inclusion

/-- The tag that ends the innermost open block. -/
def closing? (block : OpenBlock) : Reader Piece := fun cs =>
  let closes (kind : BlockKind) (name? : Reader Content) : Option (Piece × List Char) :=
    (braced? "/" (closingContent? name?) cs).map fun (b, rest) => (.closes kind b, rest)
  match block with
  | .helper _ => closes .helper nameContent?
  | .decorator => closes .decorator nameContent?
  | .inclusion => closes .inclusion partialNameContent?

/-- The start of another case of the innermost open block, if it may have one. -/
def otherwise? (blocks : List OpenBlock) (cs : List Char) :
    Option (Piece × List OpenBlock × List Char) :=
  match blocks with
  | .helper false :: outer =>
    ((chainedElse? cs).map fun (b, rest) => (.otherwise b true, .helper false :: outer, rest)).or
      ((plainElse? cs).map fun (b, rest) => (.otherwise b false, .helper true :: outer, rest))
  | _ => none

/-- Whether a tag starts another case; it is then no expression. -/
def isElse (cs : List Char) : Bool := (chainedElse? cs).isSome || (plainElse? cs).isSome

/-- A tag other than a raw block, and the blocks open after it. -/
def piece? (blocks : List OpenBlock) (cs : List Char) :
    Option (Piece × List OpenBlock × List Char) :=
  let keep (p : TagBody → Piece) (r : Option (TagBody × List Char)) :=
    r.map fun (b, rest) => (p b, blocks, rest)
  let enter (p : TagBody → Piece) (block : OpenBlock) (r : Option (TagBody × List Char)) :=
    r.map fun (b, rest) => (p b, block :: blocks, rest)
  (if isElse cs then none else keep (.expression · true) (braced? "" expressionContent? cs)).or <|
  (keep (.expression · false) (plainExpression? cs)).or <|
  (enter (.opens .helper) (.helper false) (braced? "#" lineContent? cs)).or <|
  (keep .decorator (braced? "*" lineContent? cs)).or <|
  (enter (.opens .decorator) .decorator
    (braced? "#" (fun cs => do lineContent? (skipSpace (← after? "*" cs))) cs)).or <|
  (keep .inclusion (braced? ">" partialContent? cs)).or <|
  (enter (.opens .inclusion) .inclusion
    (braced? "#" (fun cs => do partialContent? (skipSpace (← after? ">" cs))) cs)).or <|
  ((comment? cs).map fun (content, rest) => (.comment content, blocks, rest)).or <|
  (otherwise? blocks cs).or <|
  match blocks with
  | block :: outer => (closing? block cs).map fun (p, rest) => (p, outer, rest)
  | [] => none

/-- A raw block: its opening tag, its text and its closing tag, with what is left after each. -/
def rawBlock? (cs : List Char) : Option (List (Piece × List Char × List Char)) := do
  let (opening, rest) ← tag? "\x7b\x7b\x7b\x7b" "" "\x7d\x7d\x7d\x7d" lineContent? cs
  let start := skipSpace rest
  let (text, afterText) := textUntil "\x7b\x7b\x7b\x7b" (start.length + 1) start
  let (closing, afterClosing) ←
    tag? "\x7b\x7b\x7b\x7b" "/" "\x7d\x7d\x7d\x7d" nameContent? afterText
  pure [(.opens .helper opening, cs, rest), (.rawText text, start, afterText),
    (.closes .helper closing, afterText, afterClosing)]

end TagReader

namespace SourceToken

open TagReader Value

/-- Reads tokens up to the end of the source, at a place with some blocks open. -/
def read? : Nat → List OpenBlock → Mark → Option (List SourceToken)
  | 0, _, _ => none
  | n + 1, blocks, place =>
    let rest := skipSpace place.after
    let start := place.moveTo rest
    let gap := place.upTo start
    let token (piece : Piece) (stop : List Char) : SourceToken :=
      ⟨gap, start, start.moveTo stop, piece⟩
    match rest with
    | [] => if blocks.isEmpty then some [token .finish []] else none
    | _ =>
      if (after? "\x7b\x7b" rest).isSome then
        match piece? blocks rest with
        | some (piece, blocks, stop) =>
          (read? n blocks (start.moveTo stop)).map (token piece stop :: ·)
        | none => match rawBlock? rest with
          | some pieces =>
            let tokens := pieces.map fun (piece, from', stop) =>
              let start' := place.moveTo from'
              (⟨if from' = rest then gap else [], start', start'.moveTo stop, piece⟩ : SourceToken)
            let stop := (pieces.getLast?.map fun p => p.2.2).getD []
            (read? n blocks (start.moveTo stop)).map (tokens ++ ·)
          | none => none
      else
        let (text, stop) := textUntil "\x7b\x7b" (rest.length + 1) rest
        (read? n blocks (start.moveTo stop)).map (token (.text text) stop :: ·)

/-- The tokens of a whole source. -/
def all? (source : List Char) : Option (List SourceToken) :=
  read? (source.length + 1) [] (Mark.start source)

end SourceToken
end Views
