import Views.Source.Error
import Views.Text.Blank
/-!
# Settings

What is fixed for the lifetime of an engine: the extension that names get, the directory that
views are looked up in, the layout that is used when none is asked for, and where partials are.
-/

namespace Views

/-- The settings of an engine. -/
structure Settings where
  extname : String := ".hbs"
  defaultLayout : Option String := none
  partialsPath : Option FilePath := none
  views : String := ""
  deriving DecidableEq, Repr, Inhabited

namespace Settings

/-- Whether an extension is a dot and something after it. -/
def isExtension (extname : String) : Bool :=
  extname.toList.head? == some '.' && 2 ≤ extname.utf8ByteSize

/-- Checks the values of the settings. -/
def check (s : Settings) : Except SetupError Unit :=
  if !isExtension s.extname then
    .error (.badOption "extname"
      ("expected an extension like \".hbs\", got " ++ Text.reveal s.extname))
  else if s.defaultLayout.any Text.isBlankText then
    .error (.badOption "default_layout" "must not be blank")
  else .ok ()

end Settings
end Views
