import Views.Blocks
import Views.Registry
import Views.Render.Context
import Views.Text.Blank
/-!
# The state of rendering

What changes while a template is rendered: the blocks around the element at hand, the texts given
to partials, the text written so far, and what helpers reach beyond the template, which outlives a
failed render. `write` is how text reaches the page: it indents the lines of an included partial.
-/

namespace Views

/-- What the helpers of one render share: content blocks, and tokens whose values are to come. -/
structure PageScope where
  blocks : Blocks := {}
  deferrals : Deferrals := {}
  deriving Inhabited

/-- What helpers reach beyond the template: the scope of the render, if they are within one, the
supply of tokens, and how many calls each tally of deferred helpers counts. -/
structure Surroundings where
  scope : Option PageScope := none
  tokens : TokenSupply := {}
  calls : Assoc String Nat := []
  deriving Inhabited

/-- The state of rendering one template. -/
structure RenderState where
  around : Surroundings
  blocks : List BlockContext := [{}]
  /-- The text that each of the partials being included was given, if it was given one, the
  innermost first. -/
  given : List (Option String) := []
  /-- The name of the template at hand. -/
  current : Option String := none
  escapes : Bool := true
  /-- Whether the text last written ended a line. -/
  atLineEnd : Bool := false
  /-- Whether anything was written since this was last cleared. -/
  produced : Bool := false
  /-- Whether the next text is to be indented. -/
  indentsNext : Bool := false
  indent : Option String := none
  out : String := ""
  deriving Inhabited

/-- A step of rendering. What it does to the surroundings stays even if it fails. -/
abbrev Render (α : Type) := ExceptT RenderFailure (StateM RenderState) α

namespace Render

/-- Fails; the place is added on the way out. -/
def fail {α : Type} (fault : RenderFault) : Render α := throw { fault }

/-- Fails with a given fault. -/
def ofExcept {α : Type} : Except RenderFault α → Render α
  | .ok a => pure a
  | .error fault => fail fault

/-- Appends text to the page as it is, without noting it. -/
def emit (text : String) : Render Unit := modify fun st => { st with out := st.out ++ text }

/-- Puts an indentation after each line break that something follows. -/
def indentLines (indent : List Char) : List Char → List Char
  | [] => []
  | [c] => [c]
  | c :: d :: rest =>
    if c = '\n' then c :: (indent ++ indentLines indent (d :: rest))
    else c :: indentLines indent (d :: rest)

/-- Writes text to the page, indented as the state asks. -/
def write (text : String) : Render Unit := do
  match text.toList with
  | [] => pure ()
  | first :: rest =>
    let st ← get
    let chars := first :: rest
    let ends := (chars.getLast?.map Text.isNewline).getD false
    let body := match st.indent with
      | none => chars
      | some indent =>
        (if st.indentsNext && !Text.isNewline first then indent.toList else []) ++
          indentLines indent.toList chars
    set { st with
      out := st.out ++ String.ofList body
      produced := true
      atLineEnd := ends
      indentsNext := ends }

/-- The text that a step writes, taken off the page. -/
def capture (step : Render Unit) : Render String := do
  let before := (← get).out
  modify fun st => { st with out := "" }
  step
  let text := (← get).out
  modify fun st => { st with out := before }
  pure text

/-- Enters a block. -/
def pushBlock (block : BlockContext) : Render Unit :=
  modify fun st => { st with blocks := block :: st.blocks }

/-- Leaves the innermost block. -/
def popBlock : Render Unit := modify fun st => { st with blocks := st.blocks.drop 1 }

/-- Changes the innermost block. -/
def updateBlock (f : BlockContext → BlockContext) : Render Unit :=
  modify fun st => { st with blocks := match st.blocks with
    | block :: outer => f block :: outer
    | [] => [] }

/-- Marks text as a piece of its own: it is indented if `indents` asks for it, and a piece that
writes nothing leaves no trace in how the next one is indented. -/
def asPiece (indents : RenderState → Bool) (step : Render Unit) : Render Unit := do
  let before ← get
  set { before with produced := false, indentsNext := indents before }
  step
  modify fun st =>
    if st.produced then { st with indentsNext := st.atLineEnd }
    else { st with produced := before.produced, indentsNext := before.indentsNext }

end Render

/-- What a template is rendered with: the registry, the data, and whether paths are also tried
from the enclosing blocks. -/
structure RenderEnv where
  registry : Registry
  data : Value
  outward : Bool := false

namespace Render

/-- Writes the text of a value, escaped as the registry says where the tag asks for it. -/
def writeValue (env : RenderEnv) (v : Value) : Render Unit := do
  if (← get).escapes then write (env.registry.escape v.display) else write v.display

/-- What a reference means at this point of the render. -/
def follow (env : RenderEnv) (reference : Reference) : Render Resolved := do
  ofExcept (Context.lookup env.outward env.data (← get).blocks reference)

end Render

end Views
