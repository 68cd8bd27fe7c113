import Views.Render.Operand
/-!
# Including partials

A partial is looked for among those that the blocks at hand define and then in the registry. It is
rendered in a block of its own, whose value is the argument of the tag or the value at hand, with
the named arguments set as fields and bound as names. The body of the tag is rendered first, in the
same block; its text is what the partial is given, and stands for a partial that is not found.
-/

namespace Views

/-- The name that stands for the text that was given to the partial at hand. -/
def partialBlockName : String := "@partial-block"

/-- The fields of a value: the items of a list and the characters of a string are fields under
their indices. -/
def Value.members : Value → Fields
  | .object fields => fields
  | .list items => Fields.ofList (items.zipIdx.map fun (v, i) => (toString i, v))
  | .string s =>
    Fields.ofList (s.toList.zipIdx.map fun (c, i) => (toString i, .string (String.singleton c)))
  | _ => []

namespace Render

/-- Defines a partial in the innermost block. -/
def runInline (call : Call) (body : Option Template) : Render Unit := do
  let arg ← call.require "inline" 0
  match arg.resolved.get, body with
  | .string name, some template =>
    updateBlock fun block => { block with partials := block.partials.put name template }
  | .string _, none => fail .blockContentRequired
  | _, _ => fail (.invalidParamType "String")

/-- Runs a decorator. Defining a partial is the only one there is. -/
def decorate (env : RenderEnv) (invocation : Invocation) (body : Option Template) :
    Render Unit := do
  let call ← invocation.prepare env
  if call.name = "inline" then runInline call body else fail (.decoratorNotFound call.name)

/-- The block of a partial: the first argument or the value at hand, with the named arguments as
fields and as names. -/
def partialBlock (env : RenderEnv) (call : Call) : Render BlockContext := do
  let base ← match call.args.head? with
    | some arg => pure arg.resolved.get
    | none => do pure (← follow env (.steps [])).get
  let named := call.hash.map fun (key, arg) => (key, arg.resolved.get)
  pure
    { own := some <|
        if named.isEmpty then base
        else .object (named.foldl (fun fields (key, v) => Fields.insert key v fields) base.members)
      names := named.map fun (key, v) => (key, .value v) }

/-- Two indentations, the outer one first. -/
def joinIndents : Option String → Option String → Option String
  | some outer, some inner => some (outer ++ inner)
  | some outer, none => some outer
  | none, inner => inner

/-- The text of a body. -/
def bodyText : Option (Render Unit) → Render (Option String)
  | some body => do pure (some (← capture body))
  | none => pure none

/-- Writes what stands for a partial of a name, in the block of the partial: the text that was given
to the partial at hand, a partial that was defined or registered, or the text of the body. -/
def placePartial (env : RenderEnv) (render : Template → Render Unit) (name : String)
    (given own : Option String) (indent : Option String) : Render Unit := do
  if name = partialBlockName then
    match given.or own with
    | some text => emit text
    | none => fail .partialBlockNotFound
  else
    let defined := Context.definedPartial? (← get).blocks name
    match defined.or (Assoc.find? name env.registry.partials), own with
    | some template, _ => do
      modify fun st => { st with
        given := own :: st.given
        indent := joinIndents st.indent indent }
      render template
    | none, some text => emit text
    | none, none => fail (.partialNotFound name)

/-- Puts a partial in place of a tag. A template does not include itself. -/
def includePartial (env : RenderEnv) (render : Template → Render Unit) (call : Call)
    (body : Option (Render Unit)) (indent : Option String) : Render Unit := do
  let before ← get
  if before.current = some call.name then fail .includesItself
  else
    pushBlock (← partialBlock env call)
    let own ← bodyText body
    placePartial env render call.name before.given.head?.join own indent
    modify fun st => { st with
      blocks := before.blocks
      given := before.given
      indent := before.indent
      current := before.current }

end Render
end Views
