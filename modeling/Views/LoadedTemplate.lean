import Views.Render.Page
import Views.TemplateKey
/-!
# Compiled templates

A template compiled from one source, with its identity and the source it was compiled from. The same
compiled template can be rendered any number of times.
-/

namespace Views

/-- A template with its identity and its source. -/
structure LoadedTemplate where
  id : TemplateKey
  source : String
  template : Template
  deriving Inhabited

namespace LoadedTemplate

/-- Compiles a source for an identity. -/
def compile (id : TemplateKey) (source : String) : Except BrokenTemplate LoadedTemplate :=
  match Template.compile {} source with
  | .ok template => .ok { id, source, template }
  | .error error => .error { name := id.text, error }

/-- Renders the template. A path that leads nowhere is not tried from the enclosing blocks, whatever
the registry says. -/
def render (compiled : LoadedTemplate) (registry : Registry) (data : Value)
    (around : Surroundings) : Except RenderFailure String × Surroundings :=
  compiled.template.render { registry, data } around

/-- A compiled template has the identity and the source that it was compiled for. -/
theorem id_source_of_compile {id : TemplateKey} {source : String} {compiled : LoadedTemplate}
    (h : compile id source = .ok compiled) : compiled.id = id ∧ compiled.source = source := by
  unfold compile at h
  split at h
  · cases h
    exact ⟨rfl, rfl⟩
  · cases h

end LoadedTemplate
end Views
