import Views.Template.Error
/-!
# Rendering errors

What can go wrong while a template is rendered, and how it is told: the reason, and for an error
in an element with a known place the template and the place.
-/

namespace Views

/-- Why a template could not be rendered. -/
inductive RenderFault where
  | unparsable (error : TemplateError)
  | missingVariable (path : Option String)
  | partialNotFound (name : String)
  | partialBlockNotFound
  | includesItself
  | includedTooDeep
  | helperNotFound (name : String)
  | paramNotFound (helper : String) (index : Nat)
  | namedParamNotFound (helper name : String)
  | decoratorNotFound (name : String)
  | blockContentRequired
  | invalidParamType (expected : String)
  | invalidLoggingLevel (level : String)
  | invalidIndex (text : String)
  | other (text : String)
  deriving DecidableEq, Repr, Inhabited

namespace RenderFault

/-- The reason in words. -/
def message : RenderFault → String
  | unparsable error => "Failed to parse template " ++ error.message
  | missingVariable none => "Failed to access variable in strict mode None"
  | missingVariable (some path) =>
    "Failed to access variable in strict mode Some(" ++ Text.reveal path ++ ")"
  | partialNotFound name => "Partial not found " ++ name
  | partialBlockNotFound => "Partial block cound not be found"
  | includesItself => "Can not include current template in partial"
  | includedTooDeep => "Partials are included too deep"
  | helperNotFound name => "Helper not found " ++ name
  | paramNotFound helper index =>
    "Helper/Decorator " ++ helper ++ " param at index " ++ toString index ++
      " required but not found"
  | namedParamNotFound helper name =>
    "Helper/Decorator " ++ helper ++ " param with name " ++ name ++ " required but not found"
  | decoratorNotFound name => "Decorator not found " ++ name
  | blockContentRequired => "Block content required"
  | invalidParamType expected => "Invalid param type, " ++ expected ++ " expected"
  | invalidLoggingLevel level => "Invalid logging level: " ++ level
  | invalidIndex text => "Cannot access array/vector with string index, " ++ text
  | other text => text

end RenderFault

/-- A fault with the template and the place where it arose, as far as they are known. -/
structure RenderFailure where
  fault : RenderFault
  template : Option String := none
  position : Option Position := none
  deriving DecidableEq, Repr, Inhabited

namespace RenderFailure

/-- The name of a template that was given none. -/
def unnamed : String := "Unnamed template"

/-- The error in words. -/
def message (e : RenderFailure) : String :=
  match e.position with
  | none => e.fault.message
  | some p =>
    "Error rendering \"" ++ e.template.getD unnamed ++ "\" line " ++ toString p.line ++ ", col " ++
      toString p.column ++ ": " ++ e.fault.message

/-- The error as it leaves a template: the innermost place and name stay. -/
def leaving (e : RenderFailure) (template : Option String) (place : Option Position) :
    RenderFailure :=
  { e with template := e.template.or template, position := e.position.or place }

end RenderFailure
end Views
