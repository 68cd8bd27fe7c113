import Views.Cache
import Views.Engine.Script
import Views.Request
import Views.Scopes
import Views.Settings
/-!
# Engines

An engine renders views by name. `Engine.render` is the whole of one render: partials, default
layout, view and layout are read, the view is rendered, its deferred values are put in, and the
result becomes the body of the layout, which is rendered in the same scope.
-/

namespace Views

/-- An engine: what is fixed, what may be registered, and what it keeps from one render to the
next. -/
structure Engine where
  settings : Settings
  registry : Registry
  cache : Cache := {}
  /-- The default layout, once it was read. -/
  defaultLayout : Option LoadedTemplate := none
  /-- Whether the partials of the source are registered. -/
  hasPartials : Bool := false
  tokens : TokenSupply := {}
  calls : Assoc String Nat := []
  deriving Inhabited

/-- A part of a render. -/
abbrev Rendering (α : Type) := ExceptT ViewError (Script Engine) α

namespace Engine

/-- The identity of a view. -/
def keyOf (engine : Engine) (name : String) : TemplateKey :=
  .resolve engine.settings.views name engine.settings.extname

/-- An engine with nothing read yet. The registry gets the helpers for content blocks, then the
given helpers and partials. -/
def build (settings : Settings) (sourceCheck : Except SetupError Unit) (registry : Registry)
    (helpers : List (String × Helper)) (partials : List (String × String)) :
    Except SetupError Engine := do
  settings.check
  sourceCheck
  let registry := helpers.foldl (fun r h => r.addHelper h.1 h.2) registry.withContentBlocks
  match partials.foldlM (fun r p => Registry.addPartial r p.1 p.2) registry with
  | .ok registry => .ok { settings, registry }
  | .error e => .error (.partialUncompilable e)

/-- Registers a helper. -/
def addHelper (engine : Engine) (name : String) (helper : Helper) : Engine :=
  { engine with registry := engine.registry.addHelper name helper }

/-- Registers a partial. -/
def addPartial (engine : Engine) (name source : String) : Except BrokenTemplate Engine :=
  (engine.registry.addPartial name source).map fun registry => { engine with registry }

/-- The engine with helpers that write their values at once in place of deferred ones. -/
def direct (engine : Engine) : Engine := { engine with registry := engine.registry.direct }

/-- Forgets what was read, so that the next render reads everything again. -/
def forget (engine : Engine) : Engine :=
  { engine with cache := {}, defaultLayout := none, hasPartials := false }

/-- Registers partials one after the other up to the first that does not compile. -/
def registerAll (registry : Registry) : Partials → Option BrokenTemplate × Registry
  | [] => (none, registry)
  | (name, source) :: rest =>
    match registry.addPartial name source with
    | .ok registry => registerAll registry rest
    | .error e => (some e, registry)

/-- The partials that a source gives. A source that has no partials at all has the empty set. -/
def partialsOf : Except SourceError Partials → Except ViewError Partials
  | .ok partials => .ok partials
  | .error e => if e.isNotFound then .ok [] else .error (.source e)

/-- Registers partials. What was registered before one that does not compile stays. -/
def register (partials : Partials) : Rendering Unit := do
  let engine ← get
  let (problem, registry) := registerAll engine.registry partials
  set { engine with registry }
  match problem with
  | some e => throw (.uncompilable e)
  | none => pure ()

/-- Reads and registers the partials of the source, unless they are registered and may be reused. -/
def refreshPartials (reuse : Bool) : Rendering Unit := do
  if reuse && (← get).hasPartials then pure ()
  else
    let answer ← ExceptT.lift (Script.question .partials)
    let partials ← ExceptT.mk (pure (partialsOf answer))
    register partials
    if reuse then modify fun engine => { engine with hasPartials := true }

/-- The compiled template of an identity, from the cache or from the source. -/
def obtain (id : TemplateKey) (reuse : Bool) : Rendering LoadedTemplate := do
  let engine ← get
  let (found, cache) := engine.cache.consult id reuse
  set { engine with cache }
  match found with
  | some template => pure template
  | none =>
    let answer ← ExceptT.lift (Script.question (.template id))
    let engine ← get
    let (result, cache) := engine.cache.receive id reuse answer
    set { engine with cache }
    ExceptT.mk (pure result)

/-- The default layout, if one is set. -/
def obtainDefault (reuse : Bool) : Rendering (Option LoadedTemplate) := do
  let engine ← get
  match engine.settings.defaultLayout with
  | none => pure none
  | some name =>
    if reuse && engine.defaultLayout.isSome then pure engine.defaultLayout
    else
      let layout ← obtain (engine.keyOf name) reuse
      modify fun engine => { engine with defaultLayout := some layout }
      pure (some layout)

/-- The layout of a name, looked up in the directory of a template. -/
def obtainBeside (template : TemplateKey) (name : String) (reuse : Bool) :
    Rendering LoadedTemplate := do
  let engine ← get
  obtain (.resolve template.directory name engine.settings.extname) reuse

/-- Notes the layout that the directive of a template names, if templates may be reused. -/
def noteLayout (id : TemplateKey) (layout : LoadedTemplate) (reuse : Bool) : Rendering Unit := do
  if reuse then
    modify fun engine => { engine with cache := engine.cache.setLayout id layout }

/-- The layout for a template. If templates may be reused, the layout that a directive names is
noted with the template, and a layout that is noted is taken before anything else is looked at. -/
def layoutFor (template : LoadedTemplate) (request : Request)
    (standard : Option LoadedTemplate) : Rendering (Option LoadedTemplate) := do
  let engine ← get
  match if request.reuse then engine.cache.layoutOf template.id else none with
  | some layout => pure (some layout)
  | none =>
    match request.layout.decision template.source standard.isSome with
    | .directive name =>
      let layout ← obtainBeside template.id name request.reuse
      noteLayout template.id layout request.reuse
      pure (some layout)
    | .named name => do pure (some (← obtainBeside template.id name request.reuse))
    | .default => pure standard
    | .none => pure none

/-- Renders a template in a scope. -/
def renderIn (template : LoadedTemplate) (data : Value) (scope : PageScope) :
    Rendering (String × PageScope) := do
  let engine ← get
  let (result, around) := template.render engine.registry data
    { scope := some scope, tokens := engine.tokens, calls := engine.calls }
  set { engine with tokens := around.tokens, calls := around.calls }
  match result with
  | .ok text => pure (text, around.scope.getD scope)
  | .error e => throw (.failed template.id e)

/-- Waits for the deferred values of a scope. -/
def awaitValues (scope : PageScope) : Rendering (TokenValues × PageScope) := do
  let (batch, deferrals) := scope.deferrals.take
  if batch.isEmpty then pure ([], scope)
  else
    let ends ← ExceptT.lift (Script.question (.values batch))
    pure (settle batch ends, { scope with deferrals })

/-- A text before the values are put in, with the values of its tokens. -/
structure Draft where
  raw : String
  values : TokenValues := []
  deriving Repr, Inhabited

/-- The text with the values put in, in some order. -/
def Draft.text (draft : Draft) (order : TokenValues → TokenValues) : String :=
  substitute draft.raw (order draft.values)

/-- Renders a template in a scope and waits for the values of its tokens. -/
def pass (template : LoadedTemplate) (data : Value) (scope : PageScope) :
    Rendering (Draft × PageScope) := do
  let (raw, scope) ← renderIn template data scope
  let (values, scope) ← awaitValues scope
  pure ({ raw, values }, scope)

/-- A view and its layout, once the partials are registered. -/
def select (name : String) (request : Request) :
    Rendering (LoadedTemplate × Option LoadedTemplate) := do
  let id := (← get).keyOf name
  refreshPartials request.reuse
  let standard ← obtainDefault request.reuse
  let template ← obtain id request.reuse
  let layout ← layoutFor template request standard
  pure (template, layout)

/-- The body of a page, with the layout that is to go around it and the scope for that. -/
def draftBody (name : String) (request : Request) :
    Rendering (Draft × Option LoadedTemplate × PageScope) := do
  let (template, layout) ← select name request
  let (draft, scope) ← pass template request.data {}
  pure (draft, layout, scope)

/-- The layout around a body with its values. The values of the body are kept for what the layout
writes of the fragments captured in it. -/
def draftAround (arrangement : Arrangement) (data : Value) (body : Draft)
    (layout : LoadedTemplate) (scope : PageScope) : Rendering Draft := do
  let text := body.text arrangement.inner
  let (draft, _) ← pass layout (data.withField "body" (.string text)) scope
  pure { draft with values := body.values.extend draft.values }

/-- A page: its body, or the layout around the body. -/
def draft (arrangement : Arrangement) (name : String) (request : Request) : Rendering Draft := do
  let (body, layout, scope) ← draftBody name request
  match layout with
  | none => pure body
  | some layout => draftAround arrangement request.data body layout scope

/-- Renders a view. -/
def render (name : String) (request : Request) (arrangement : Arrangement := {}) :
    Rendering String := do
  pure ((← draft arrangement name request).text arrangement.outer)

/-- What a render does once its view and its layout are selected. -/
def compose (arrangement : Arrangement) (template : LoadedTemplate)
    (layout : Option LoadedTemplate) (data : Value) : Rendering String := do
  let (body, scope) ← pass template data {}
  match layout with
  | none => pure (body.text arrangement.outer)
  | some layout => do
    let draft ← draftAround arrangement data body layout scope
    pure (draft.text arrangement.outer)

end Engine
end Views
