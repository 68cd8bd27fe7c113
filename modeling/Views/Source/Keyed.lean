import Views.Source.Basic
/-!
# Templates in a key-value store

Templates are stored under their identity and partials under their name, each behind a text of its
own that all keys of the kind start with. Both texts must be given and differ; that one of them may
start with the other is not looked at.
-/

namespace Views

/-- A key-value store: the value of a key, and the keys that start with a text. -/
structure KeyedStore where
  get : String → Except StoreFault (Option String)
  keys : String → Except StoreFault (List String)

namespace KeyedStore

/-- Whether a key starts with a text. -/
def startsWith (start key : String) : Bool := start.toList.isPrefixOf key.toList

/-- The store of some entries. -/
def ofEntries (entries : Assoc String String) : KeyedStore where
  get key := .ok (Assoc.find? key entries)
  keys start := .ok (entries.keys.filter (startsWith start))

end KeyedStore

/-- What the keys of templates and of partials start with. -/
structure KeyedSource where
  templateSpace : String := "hbst:"
  partialSpace : String := "hbsp:"
  deriving DecidableEq, Repr, Inhabited

namespace KeyedSource

/-- The key of a template. -/
def templateKey (s : KeyedSource) (id : TemplateKey) : String := s.templateSpace ++ id.text

/-- The name of the partial under a key. -/
def partialName (s : KeyedSource) (key : String) : String :=
  if KeyedStore.startsWith s.partialSpace key then
    String.ofList (key.toList.drop s.partialSpace.length)
  else key

/-- The source of a template. -/
def template (s : KeyedSource) (store : KeyedStore) (id : TemplateKey) :
    Except SourceError String :=
  match store.get (s.templateKey id) with
  | .ok (some text) => .ok text
  | .ok none => .error (.notFound (s.templateKey id))
  | .error cause => .error (.unreadable (s.templateKey id) cause)

/-- Reads the partials under some keys; a key that has gone meanwhile is passed over. -/
def readPartials (s : KeyedSource) (store : KeyedStore) : List String → Partials →
    Except SourceError Partials
  | [], found => .ok found
  | key :: rest, found =>
    match store.get key with
    | .ok (some text) => readPartials s store rest (Assoc.put (s.partialName key) text found)
    | .ok none => readPartials s store rest found
    | .error cause => .error (.unreadable key cause)

/-- The partials. -/
def partials (s : KeyedSource) (store : KeyedStore) : Except SourceError Partials :=
  match store.keys s.partialSpace with
  | .ok keys => s.readPartials store keys []
  | .error cause => .error (.unreadable (s.partialSpace ++ "*") cause)

/-- Checks that templates and partials can be told apart. -/
def check (s : KeyedSource) : Except SetupError Unit :=
  if s.templateSpace = "" ∨ s.partialSpace = "" then
    .error (.badSource "key-value provider prefixes must not be empty")
  else if s.templateSpace = s.partialSpace then
    .error (.badSource
      ("template and partial prefixes must differ (both '" ++ s.templateSpace ++ "')"))
  else .ok ()

end KeyedSource
end Views
