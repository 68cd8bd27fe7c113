import Views.Engine.Basic
import Views.Source.Directory
import Views.Source.Documents
import Views.Source.Keyed
import Views.Source.Memory
/-!
# The world around an engine

Files and the place that sources are kept in. `World.answer` answers the questions of scripts as
things stand; a store may be reached by a way that hides or breaks some of it.
-/

namespace Views

/-- The place that sources are kept in. -/
inductive Supply where
  | memory (source : MemorySource)
  | keyed (source : KeyedSource) (entries : Assoc String String)
      (reach : Assoc String String → KeyedStore)
  | documents (source : DocumentSource) (documents : List Document)
      (reach : List Document → DocumentStore)
  | directory (source : DirectorySource)

/-- Files and a place that sources are kept in. -/
structure World where
  files : FileSystem := {}
  supply : Supply := .directory {}

instance : Inhabited World := ⟨{}⟩

namespace World

/-- What the source answers as things stand. -/
def source (world : World) : Source :=
  match world.supply with
  | .memory s => ⟨s.template, s.partials⟩
  | .keyed s entries reach => ⟨s.template (reach entries), s.partials (reach entries)⟩
  | .documents s documents reach => ⟨s.template (reach documents), s.partials (reach documents)⟩
  | .directory s => ⟨DirectorySource.template world.files, s.partials world.files⟩

/-- Checks that the source can be used. -/
def check (world : World) : Except SetupError Unit :=
  match world.supply with
  | .keyed s _ _ => s.check
  | .directory s => s.check world.files
  | _ => .ok ()

/-- Counts a question, where the source counts. -/
def count (world : World) (question : Question) : World :=
  match world.supply, question with
  | .memory s, .template id => { world with supply := .memory (s.countTemplate id) }
  | .memory s, .partials => { world with supply := .memory s.countPartials }
  | _, _ => world

/-- The answer to a question as things stand. -/
def answer (world : World) : (question : Question) → question.Answer
  | .partials => world.source.partials
  | .template id => world.source.template id
  | .values batch => arrivals batch

/-- Counts and answers a question. -/
def reply (question : Question) (world : World) : question.Answer × World :=
  ((world.count question).answer question, world.count question)

/-- How many milliseconds an answer takes; none if there is nothing to wait for. -/
def delay? (world : World) : Question → Option Nat
  | .values batch => some ((batch.map fun p => p.job.delay).foldl max 0)
  | _ => match world.supply with
    | .memory s => if s.latency = 0 then none else some s.latency
    | .directory _ => some 0
    | _ => none

end World

/-- The template of an identity from a cache or, after a miss, from the world. -/
def Cache.obtain (cache : Cache) (world : World) (id : TemplateKey) (reuse : Bool) :
    Except ViewError LoadedTemplate × Cache × World :=
  match cache.consult id reuse with
  | (some template, cache) => (.ok template, cache, world)
  | (none, cache) =>
    let (answer, world) := world.reply (.template id)
    let (result, cache) := cache.receive id reuse answer
    (result, cache, world)

/-- Renders a view while nothing else goes on. -/
def Engine.renderAlone (engine : Engine) (world : World) (name : String) (options : Request) :
    Except ViewError String × Engine × World :=
  (Engine.render name options).run.run World.reply engine world

end Views
