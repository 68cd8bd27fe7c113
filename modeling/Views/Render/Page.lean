import Views.Render.Inclusion
/-!
# Rendering templates

`Element.run` does what an element does to the page and `Template.run` runs elements in order.
Both follow the template; only an included partial leads outside it, so that rendering is by
recursion on the template with the rendering of partials as a parameter, and `renderWithin` bounds
how deep partials nest.
-/

namespace Views

namespace Render

/-- Calls the helper for a tag. -/
def runHelper (env : RenderEnv) (call : Call) (indents : Bool) : Render Unit :=
  match env.registry.helperFor? call.name call.isBlock with
  | some helper =>
    asPiece (fun st => st.indentsNext || (indents && st.atLineEnd)) (call.run env helper)
  | none => fail (.helperNotFound call.name)

/-- Writes what a tag without arguments stands for: the text of a helper, or the value of a path. -/
def showName (env : RenderEnv) (invocation : Invocation) : Render Unit := do
  let name ← invocation.head.word env
  if (Assoc.find? name env.registry.helpers).isSome then
    runHelper env (← invocation.prepare env) false
  else
    let arg ← invocation.head.meaning env
    if !arg.resolved.isMissing then writeValue env arg.resolved.get
    else if env.registry.strict then fail (.missingVariable arg.spelling)
    else match Assoc.find? "helperMissing" env.registry.helpers with
      | some helper => (← invocation.prepare env).run env helper
      | none => pure ()

/-- Writes what a tag stands for, with its arguments if it has any. -/
def showTag (env : RenderEnv) (invocation : Invocation) : Render Unit := do
  if invocation.args.isEmpty && invocation.hash.isEmpty then showName env invocation
  else runHelper env (← invocation.prepare env) false

/-- Writes what a tag stands for, escaped or as it is. -/
def runExpression (env : RenderEnv) (invocation : Invocation) (escaped : Bool) : Render Unit := do
  if escaped then showTag env invocation
  else
    modify fun st => { st with escapes := false }
    showTag env invocation
    modify fun st => { st with escapes := true }

end Render

open Render

mutual

/-- What an element does to the page. -/
def Element.run (env : RenderEnv) (render : Template → Render Unit) : Element → Render Unit
  | .text content => write content
  | .comment _ => pure ()
  | .expression invocation escaped => runExpression env invocation escaped
  | .decorator invocation body => decorate env invocation body
  | .block invocation names body inverse indents => do
    let call ← invocation.prepare env
    runHelper env
      { call with isBlock := true, names, body := bodyStep env render body
                  inverse := bodyStep env render inverse }
      indents
  | .inclusion invocation body indent indents => do
    let call ← invocation.prepare env
    asPiece (fun st => indents && (st.atLineEnd || indent.isSome))
      (includePartial env render call (bodyStep env render body) indent)

/-- The body of a block as a step. -/
def bodyStep (env : RenderEnv) (render : Template → Render Unit) :
    Option Template → Option (Render Unit)
  | none => none
  | some template => some (Template.run env render template)

/-- Renders the elements of a template. -/
def Template.run (env : RenderEnv) (render : Template → Render Unit) : Template → Render Unit
  | .mk name items => do
    modify fun st => { st with current := name }
    runItems env render name items

/-- Renders elements in order; an error takes the place of its element along. -/
def runItems (env : RenderEnv) (render : Template → Render Unit) (name : Option String) :
    List (Option Position × Element) → Render Unit
  | [] => pure ()
  | (place, element) :: rest => do
    tryCatch (Element.run env render element) fun e => throw (e.leaving name place)
    runItems env render name rest

end

namespace Template

/-- How deep partials may nest. -/
def nestingLimit : Nat := 4096

/-- Renders a template whose partials nest no deeper than a limit. -/
def renderWithin (env : RenderEnv) : Nat → Template → Render Unit
  | 0, _ => fail .includedTooDeep
  | limit + 1, template => template.run env (renderWithin env limit)

/-- The page that a template makes, and what is left of the surroundings. -/
def render (template : Template) (env : RenderEnv) (around : Surroundings) :
    Except RenderFailure String × Surroundings :=
  let (result, st) := (renderWithin env nestingLimit template).run { around }
  (result.map fun _ => st.out, st.around)

end Template

namespace Registry

/-- Renders a template source with the settings of the registry. -/
def renderTemplate (registry : Registry) (source : String) (data : Value) (around : Surroundings) :
    Except RenderFailure String × Surroundings :=
  match Template.compile { preventIndent := registry.preventIndent } source with
  | .ok template =>
    template.render { registry, data, outward := registry.recursiveLookup } around
  | .error e => (.error { fault := .unparsable e }, around)

end Registry
end Views
