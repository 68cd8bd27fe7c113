import Views.Assoc
import Views.Source.Error
import Views.TemplateKey
/-!
# Sources

A source gives the text of the template with an identity, and the partials by name.
-/

namespace Views

/-- Partials by name. -/
abbrev Partials := Assoc String String

/-- What a source answers at one moment. -/
structure Source where
  template : TemplateKey → Except SourceError String
  partials : Except SourceError Partials

/-- Why a store gave no answer, in its own words. -/
abbrev StoreFault := String

end Views
