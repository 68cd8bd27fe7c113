import Views.Source.Basic
/-!
# Templates in files

The identity of a template is the path of its file. Partials are the files in one directory, each
named by the stem of its file; what is no file itself, such as a link to one, is none.
-/

namespace Views

/-- The directory that partials are in. -/
structure DirectorySource where
  partialsPath : Option FilePath := none
  deriving DecidableEq, Repr, Inhabited

namespace DirectorySource

/-- The source of a template. -/
def template (fs : FileSystem) (id : TemplateKey) : Except SourceError String :=
  (fs.read (.ofString id.text)).mapError (SourceError.ofFault id.text)

/-- Reads the partials among the entries of a directory. -/
def readPartials (fs : FileSystem) (directory : FilePath) : List (FileName × Node) → Partials →
    Except SourceError Partials
  | [], found => .ok found
  | (name, .file _) :: rest, found =>
    match FilePath.textOf? (FilePath.stem name) with
    | some stem =>
      let path := directory.child name
      match fs.read path with
      | .ok text => readPartials fs directory rest (Assoc.put stem text found)
      | .error fault => .error (.unreadable path.display fault.message)
    | none => readPartials fs directory rest found
  | _ :: rest, found => readPartials fs directory rest found

/-- The partials. -/
def partials (s : DirectorySource) (fs : FileSystem) : Except SourceError Partials :=
  match s.partialsPath with
  | none => .error (.notFound "<partials path not configured>")
  | some directory =>
    match fs.list directory with
    | .ok entries => readPartials fs directory entries []
    | .error fault => .error (.ofFault directory.display fault)

/-- Checks that partials are not looked for in something that is no directory. -/
def check (s : DirectorySource) (fs : FileSystem) : Except SetupError Unit :=
  match s.partialsPath with
  | some directory =>
    if fs.isOtherThanDirectory directory then
      .error (.badSource ("partials path " ++ directory.display ++ " is not a directory"))
    else .ok ()
  | none => .ok ()

end DirectorySource
end Views
