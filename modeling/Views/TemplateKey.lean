import Views.Path
/-!
# Template identities

A template is known by its normalized path. `TemplateKey.resolve` finds the identity that a name
has in a directory, adding the configured extension to a name that has none.
-/

namespace Views

/-- The identity of a template: the key under which its source and its compiled form are kept. -/
structure TemplateKey where
  text : String
  deriving DecidableEq, Repr, Inhabited

namespace TemplateKey

/-- The characters of the identity. -/
def chars (id : TemplateKey) : List Char := id.text.toList

/-- The identity of `name` looked up in the directory `base`. -/
def resolve (base name extname : String) : TemplateKey :=
  let path := Path.normalize (Path.beneath base.toList name.toList)
  match Path.extension? path with
  | some _ => ⟨String.ofList path⟩
  | none => ⟨String.ofList (path ++ extname.toList)⟩

/-- The directory part, empty for a bare name. -/
def directory (id : TemplateKey) : String := String.ofList (Path.directory id.chars)

/-- The last segment. -/
def fileName (id : TemplateKey) : String := String.ofList (Path.fileName id.chars)

/-- The extension with its dot, if there is one. -/
def extension? (id : TemplateKey) : Option String := (Path.extension? id.chars).map String.ofList

end TemplateKey
end Views
