import Views.Source.Basic
/-!
# Templates in a document store

Each template and each partial is a document with a name. The name of the document for a template
is its identity without the path that all views are under.
-/

namespace Views

/-- A template or a partial. -/
structure Document where
  name : String
  text : String
  isPartial : Bool := false
  deriving DecidableEq, Repr, Inhabited

/-- A document store: the document of a name, and the documents that are partials. -/
structure DocumentStore where
  find : String → Except StoreFault (Option Document)
  partials : Except StoreFault (List Document)

namespace DocumentStore

/-- Adds a document in place of the one of its name. -/
def insert (documents : List Document) (document : Document) : List Document :=
  documents.filter (fun d => d.name != document.name) ++ [document]

/-- The store of some documents. -/
def ofDocuments (documents : List Document) : DocumentStore where
  find name := .ok (documents.find? fun d => d.name == name)
  partials := .ok (documents.filter Document.isPartial)

end DocumentStore

/-- The path that the identities of views are under. -/
structure DocumentSource where
  viewPath : String := ""
  deriving DecidableEq, Repr, Inhabited

namespace DocumentSource

/-- The name of the document for an identity. -/
def documentName (s : DocumentSource) (id : TemplateKey) : String :=
  let path := Text.trimEnd (· == Path.separator) s.viewPath.toList
  if path = [] then id.text
  else if path.isPrefixOf id.chars then
    match id.chars.drop path.length with
    | c :: rest => if c = Path.separator then String.ofList rest else id.text
    | [] => id.text
  else id.text

/-- The source of a template. -/
def template (s : DocumentSource) (store : DocumentStore) (id : TemplateKey) :
    Except SourceError String :=
  match store.find (s.documentName id) with
  | .ok (some document) => .ok document.text
  | .ok none => .error (.notFound id.text)
  | .error cause => .error (.unreadable id.text cause)

/-- The partials. -/
def partials (_ : DocumentSource) (store : DocumentStore) : Except SourceError Partials :=
  match store.partials with
  | .ok documents =>
    .ok (documents.foldl (fun found d => Assoc.put d.name d.text found) [])
  | .error cause => .error (.unreadable "partials" cause)

end DocumentSource
end Views
