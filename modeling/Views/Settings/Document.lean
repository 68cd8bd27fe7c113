import Views.Settings
import Views.Toml.Reader
/-!
# Settings in a document

Settings may be given by a configuration document. Each setting is a string; it has one name or
several, of which a document may use one, and what is no setting is passed over.
-/

namespace Views.Settings

/-- The value of a setting that goes by some names: nothing if it is not given, an error if it is
given twice or is no string. -/
def field (names : List String) : Toml → Except SetupError (Option String)
  | .table _ fields =>
    match fields.filter fun f => names.contains f.1 with
    | [] => .ok none
    | [(_, .string s)] => .ok (some s)
    | _ => .error .unparsable
  | _ => .error .unparsable

/-- Settings from a configuration document. They are not checked. -/
def read (text : String) : Except SetupError Settings :=
  match Toml.read? text with
  | none => .error .unparsable
  | some document => do
    let extname ← field ["extname"] document
    let defaultLayout ← field ["default_layout", "defaultLayout"] document
    let partialsPath ←
      field ["partials_path", "partialsPath", "partials_dir", "partialsDir"] document
    let views ← field ["views"] document
    let standard : Settings := {}
    pure
      { extname := extname.getD standard.extname
        defaultLayout
        partialsPath := partialsPath.map FilePath.ofString
        views := views.getD standard.views }

/-- Settings from a file, checked. -/
def load (fs : FileSystem) (path : FilePath) : Except SetupError Settings := do
  let text ← (fs.read path).mapError (SetupError.unreadable path)
  let settings ← read text
  settings.check
  pure settings

end Views.Settings
