import Views.Template.Mark
import Views.Text.Quoted
/-!
# Compile errors

What can be wrong with a template source, and how it is told: the reason, and for a fault at a known
place the lines around it.
-/

namespace Views

/-- What is wrong with a template source. -/
inductive TemplateFault where
  | malformed
  | mismatchedHelper (opened closed : String)
  | mismatchedDecorator (opened closed : String)
  | invalidParam (text : String)
  deriving DecidableEq, Repr, Inhabited

namespace TemplateFault

/-- The reason in words. -/
def message : TemplateFault → String
  | malformed => "malformed template"
  | mismatchedHelper opened closed =>
    "helper " ++ Text.reveal opened ++ " was opened, but " ++ Text.reveal closed ++ " is closing"
  | mismatchedDecorator opened closed =>
    "decorator " ++ Text.reveal opened ++ " was opened, but " ++ Text.reveal closed ++ " is closing"
  | invalidParam text => "invalid parameter " ++ Text.reveal text

end TemplateFault

/-- Where a fault was found: the name of the template, the place, and the lines around it. -/
structure FaultSite where
  template : String
  position : Position
  excerpt : String
  deriving DecidableEq, Repr, Inhabited

/-- A fault of a template source, with its site where one is known. -/
structure TemplateError where
  fault : TemplateFault
  site : Option FaultSite := none
  deriving DecidableEq, Repr, Inhabited

namespace FaultSite

/-- The name of a template that was given none. -/
def unnamed : String := "Unnamed"

/-- How many lines an excerpt shows before and after the place. -/
def range : Nat := 3

/-- A line number right-aligned in four columns. -/
def lineNumber (n : Nat) : String :=
  let digits := toString n
  String.ofList (List.replicate (4 - digits.length) ' ') ++ digits

/-- The line that points at a column: a dash for each byte of the line, an arrow at the column. -/
def pointer (width column : Nat) : String :=
  String.ofList ((List.range width).map fun i => if i = column then '^' else '-')

/-- The lines of a source around a position, numbered from zero, with a pointer below the line of
the position. -/
def excerptOf (source : List Char) (p : Position) : String :=
  let row (line : List Char) (n : Nat) : String :=
    if p.line - range ≤ n ∧ n ≤ p.line + range then
      lineNumber n ++ " | " ++ String.ofList line ++ "\n" ++
        (if n + 1 = p.line then
          "     |" ++ pointer (Text.byteLength line) p.column ++ "\n"
        else "")
    else ""
  String.join ((Text.lines source).zipIdx.map fun (line, n) => row line n)

/-- The site of a place in a template. -/
def of (template : Option String) (mark : Mark) : FaultSite :=
  { template := template.getD unnamed
    position := mark.position
    excerpt := excerptOf mark.text mark.position }

end FaultSite

/-- The error in words. -/
def TemplateError.message (e : TemplateError) : String :=
  let reason := e.fault.message
  match e.site with
  | none => reason
  | some site =>
    "Template error: " ++ reason ++ "\n    --> Template error in \"" ++ site.template ++ "\":" ++
      toString site.position.line ++ ":" ++ toString site.position.column ++ "\n     |\n" ++
      site.excerpt ++ "     |\n     = reason: " ++ reason ++ "\n"

end Views
