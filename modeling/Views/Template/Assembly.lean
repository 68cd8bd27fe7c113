import Views.Template.Token
import Views.Template.Outline
import Views.Text.Blank
/-!
# Assembling a template

`Template.compile` turns a source into a template. Tokens are taken one by one; the state says which
blocks are open, what the innermost one holds so far, and what the last tag asks for the blanks that
follow it. A tag alone on its line takes the line with it, except for a partial, whose blanks indent
what it includes.
-/

namespace Views

/-- How a source is compiled: the name for the template, and whether partials in it are left without
indentation. -/
structure CompileOptions where
  name : Option String := none
  preventIndent : Bool := false
  deriving DecidableEq, Repr

namespace Assembly

/-- An element with the place that its errors are reported at. -/
abbrev Item := Option Position × Element

/-- The head of one case of a helper block. -/
structure CaseHead where
  invocation : Invocation
  names : Option BlockNames
  indents : Bool

/-- One case of a helper block. -/
structure Case where
  head : CaseHead
  body : Template

/-- An open block: for a helper, its cases so far, the one at hand, and whether that is the last
one, which has no head. -/
inductive Opening where
  | helper (done : List Case) (current : CaseHead) (last : Bool)
  | decorator (invocation : Invocation)
  | inclusion (invocation : Invocation) (indents : Bool)

/-- An open block, the place where it was opened, and the items before it, the last one first. -/
structure Level where
  opening : Opening
  place : Position
  outer : List Item

/-- The state of the assembly. `omitAfter` asks for the blanks after the last tag to go,
`trimLine` for the rest of its line; `items` are those of the innermost open block, the last one
first. -/
structure State where
  omitAfter : Bool := false
  trimLine : Bool := false
  items : List Item := []
  levels : List Level := []

namespace State

/-- Adds an element. -/
def add (st : State) (place : Position) (element : Element) : State :=
  { st with items := (some place, element) :: st.items }

/-- Cuts the text that stands last, if a text stands last. -/
def cutLast (st : State) (p : Char → Bool) : State :=
  match st.items with
  | (place, .text s) :: rest =>
    { st with items := (place, .text (String.ofList (Text.trimEnd p s.toList))) :: rest }
  | _ => st

/-- The text that the last tag leaves of what follows it. -/
def leave (st : State) (omits : Bool) (text : List Char) : Element :=
  .text <| String.ofList <|
    if omits then Text.trimStart Text.isBlank text
    else if st.trimLine then Text.dropNewline (Text.trimStart Text.isGap text)
    else text

/-- Adds the blanks before a tag, unless the tag before asks for them to go. -/
def addGap (st : State) (token : SourceToken) : State :=
  if token.gap = [] ∨ st.omitAfter then st
  else { st.add token.start.position (st.leave false token.gap) with trimLine := false }

/-- Adds text with the blanks before it. -/
def addText (st : State) (token : SourceToken) (content : List Char) : State :=
  { st.add token.start.position (st.leave st.omitAfter (token.gap ++ content)) with
    trimLine := false }

/-- What a tag does to the blanks before it and asks of those after it. -/
def trim (st : State) (body : TagBody) : State :=
  { (if body.trimsBefore then st.cutLast Text.isBlank else st) with omitAfter := body.trimsAfter }

/-- Looks whether a tag is alone on its line. Then the rest of the line is to go, and the blanks
before the tag too if `clears` says so. The end of the source ends a line. -/
def standAlone (st : State) (token : SourceToken) (clears : Bool) : State :=
  let following := token.stop.after
  let endsLine :=
    following.isEmpty ||
      ((Text.trimStart Text.isGap following).head?.map Text.isNewline).getD false
  let startsLine :=
    ((token.start.before.dropWhile Text.isGap).head?.map Text.isNewline).getD true
  if endsLine then
    { (if clears && startsLine then st.cutLast Text.isGap else st) with trimLine := startsLine }
  else { st with trimLine := false }

/-- The template of the items at hand. -/
def template (st : State) : Template := .mk none st.items.reverse

end State

/-- The name that a tag is closed by. -/
def closingName? : Operand → Option String
  | .name name => some name
  | .path _ spelling => some spelling
  | _ => none

/-- How the head of a block is named in a message: by its name, or else by its outline. -/
def headText (head : Operand) : String := (closingName? head).getD head.outline

/-- A helper block of its cases; a further case is a block of its own in the inverse of the one
before, and errors in it are reported at the place of the whole. -/
def closeCases (inverse : Option Template) : List Case → Option Element
  | [] => none
  | c :: rest =>
    let inverse := match closeCases inverse rest with
      | some further => some (.mk none [(none, further)])
      | none => inverse
    some (.block c.head.invocation c.head.names (some c.body) inverse c.head.indents)

/-- The element of a block that ends with the items at hand. -/
def closeOpening (opening : Opening) (body : Template) : Option Element :=
  match opening with
  | .helper done current false => closeCases none (done ++ [⟨current, body⟩])
  | .helper done _ true => closeCases (some body) done
  | .decorator invocation => some (.decorator invocation (some body))
  | .inclusion invocation indents => some (.inclusion invocation (some body) none indents)

/-- The head that an open block has to be closed by. -/
def openingHead : Opening → Operand
  | .helper done current _ => ((done.head?.map Case.head).getD current).invocation.head
  | .decorator invocation => invocation.head
  | .inclusion invocation _ => invocation.head

/-- The fault of closing a block by another name. -/
def mismatch (kind : BlockKind) (opened closed : String) : TemplateFault :=
  match kind with
  | .helper => .mismatchedHelper opened closed
  | _ => .mismatchedDecorator opened closed

/-- Takes one token into account. -/
def step (options : CompileOptions) (st : State) (token : SourceToken) :
    Except TemplateError State := do
  let place := token.start.position
  let content (body : TagBody) : Except TemplateError (Invocation × Option BlockNames) :=
    body.content.mapError fun fault => { fault }
  match token.piece with
  | .text text => pure (st.addText token text)
  | .rawText text => pure (st.add place (st.leave st.omitAfter text))
  | .finish => pure (st.addGap token)
  | .comment text =>
    let st := (st.addGap token).standAlone token true
    pure (st.add place (.comment (String.ofList text)))
  | .expression body escaped =>
    let (invocation, _) ← content body
    pure (((st.addGap token).trim body).add place (.expression invocation escaped))
  | .decorator body =>
    let (invocation, _) ← content body
    let st := ((st.addGap token).trim body).standAlone token true
    pure (st.add place (.decorator invocation none))
  | .inclusion body =>
    let (invocation, _) ← content body
    let st := ((st.addGap token).trim body).standAlone token (!options.preventIndent)
    let blanks := (token.start.before.takeWhile Text.isGap).reverse
    let indent :=
      if options.preventIndent || body.trimsBefore || blanks.isEmpty then none
      else some (String.ofList blanks)
    pure (st.add place (.inclusion invocation none indent (st.trimLine && !body.trimsBefore)))
  | .opens kind body =>
    let (invocation, names) ← content body
    let st := ((st.addGap token).trim body).standAlone token true
    let indents := st.trimLine && !body.trimsBefore
    let opening : Opening := match kind with
      | .helper => .helper [] ⟨invocation, names, indents⟩ false
      | .decorator => .decorator invocation
      | .inclusion => .inclusion invocation indents
    pure { st with items := [], levels := ⟨opening, place, st.items⟩ :: st.levels }
  | .otherwise body chained =>
    let (invocation, names) ← content body
    let st := ((st.addGap token).trim body).standAlone token true
    let indents := st.trimLine && !body.trimsBefore
    match st.levels with
    | ⟨.helper done current _, opened, outer⟩ :: levels =>
      let opening : Opening :=
        .helper (done ++ [⟨current, st.template⟩])
          (if chained then ⟨invocation, names, indents⟩ else current) (!chained)
      pure { st with items := [], levels := ⟨opening, opened, outer⟩ :: levels }
    | _ => throw { fault := .malformed }
  | .closes kind body =>
    let (invocation, _) ← content body
    let st := ((st.addGap token).trim body).standAlone token true
    match st.levels with
    | ⟨opening, opened, outer⟩ :: levels =>
      let head := openingHead opening
      let closing := (closingName? invocation.head).getD ""
      if closingName? head = some closing ∨ (kind ≠ .helper ∧ closing = "") then
        match closeOpening opening st.template with
        | some element =>
          pure { st with items := (some opened, element) :: outer, levels }
        | none => throw { fault := .malformed }
      else
        throw { fault := mismatch kind (headText head) closing
                site := some (.of options.name token.start) }
    | [] => throw { fault := .malformed }

end Assembly

/-- Compiles a source. -/
def Template.compile (options : CompileOptions) (source : String) : Except TemplateError Template :=
  match SourceToken.all? source.toList with
  | none => .error { fault := .malformed, site := none }
  | some tokens => do
    let st ← tokens.foldlM (Assembly.step options) {}
    pure (st.template.withName options.name)

end Views
