import Views.LoadedTemplate
import Views.Number.Binary64
import Views.Source.Basic
/-!
# The cache of compiled templates

A template is kept under its identity once it was read and compiled on behalf of a render that may
reuse it. `Cache.consult` is the look-up, `Cache.receive` takes in what a source gave after a
miss; between the two anything may happen to the cache.
-/

namespace Views

/-- Why a view could not be rendered. -/
inductive ViewError where
  | source (error : SourceError)
  | uncompilable (error : BrokenTemplate)
  | setup (error : SetupError)
  | failed (id : TemplateKey) (error : RenderFailure)
  deriving Repr, Inhabited

namespace ViewError

/-- Whether the reason is that a source has nothing under an identity. -/
def isNotFound : ViewError → Bool
  | source e => e.isNotFound
  | _ => false

/-- The error in words. -/
def message : ViewError → String
  | source e => e.message
  | uncompilable e => e.message
  | setup e => e.message
  | failed id e => "failed to render '" ++ id.text ++ "': " ++ e.message

end ViewError

/-- A kept template with the layout that its directive names, once that was found. -/
structure Cache.Entry where
  template : LoadedTemplate
  layout : Option LoadedTemplate := none
  deriving Inhabited

/-- The templates kept, and how many look-ups found one and how many did not. -/
structure Cache where
  entries : Assoc TemplateKey Cache.Entry := []
  hits : Nat := 0
  misses : Nat := 0
  deriving Inhabited

namespace Cache

/-- The entry of an identity. -/
def get? (cache : Cache) (id : TemplateKey) : Option Cache.Entry := Assoc.find? id cache.entries

/-- The number of entries. -/
def size (cache : Cache) : Nat := cache.entries.length

/-- Looks a template up, if it may be reused, and counts whether it was found. -/
def consult (cache : Cache) (id : TemplateKey) (reuse : Bool) : Option LoadedTemplate × Cache :=
  match if reuse then cache.get? id else none with
  | some entry => (some entry.template, { cache with hits := cache.hits + 1 })
  | none => (none, { cache with misses := cache.misses + 1 })

/-- Compiles what a source gave for an identity, and keeps it if it may be reused. -/
def receive (cache : Cache) (id : TemplateKey) (reuse : Bool) (answer : Except SourceError String) :
    Except ViewError LoadedTemplate × Cache :=
  match answer with
  | .error e => (.error (.source e), cache)
  | .ok text => match LoadedTemplate.compile id text with
    | .error e => (.error (.uncompilable e), cache)
    | .ok template =>
      (.ok template,
        if reuse then { cache with entries := Assoc.put id { template } cache.entries } else cache)

/-- The layout that the directive of a kept template names, once it was found. -/
def layoutOf (cache : Cache) (id : TemplateKey) : Option LoadedTemplate :=
  (cache.get? id).bind Cache.Entry.layout

/-- Notes the layout of a kept template; of a template that is not kept nothing is noted. -/
def setLayout (cache : Cache) (id : TemplateKey) (layout : LoadedTemplate) : Cache :=
  match cache.get? id with
  | some entry =>
    { cache with entries := Assoc.put id { entry with layout := some layout } cache.entries }
  | none => cache

/-- The share of look-ups that found something, in percent; of none, zero. -/
def hitRate (cache : Cache) : Binary64 :=
  if cache.hits + cache.misses = 0 then .zero
  else ((Binary64.ofInt cache.hits).div (.ofInt (cache.hits + cache.misses))).mul (.ofInt 100)

end Cache
end Views
