import Views.Render.Helper
import Views.Template.Assembly
/-!
# Registries

A registry holds the helpers and the compiled partials that templates may use, and the settings that
hold for all of them.
-/

namespace Views

/-- The characters that are special on a page, and what stands for them. -/
def escapeHtmlChar (c : Char) : List Char :=
  match c with
  | '<' => "&lt;".toList
  | '>' => "&gt;".toList
  | '"' => "&quot;".toList
  | '&' => "&amp;".toList
  | '\'' => "&#x27;".toList
  | '=' => "&#x3D;".toList
  | '\x60' => "&#x60;".toList
  | c => [c]

/-- A text with its special characters escaped. -/
def escapeHtml (text : String) : String := String.ofList (text.toList.flatMap escapeHtmlChar)

/-- The helpers, the partials and the settings of rendering. -/
structure Registry where
  helpers : Assoc String Helper
  partials : Assoc String Template := []
  /-- Whether a path that leads nowhere is an error. -/
  strict : Bool := false
  /-- Whether partials are included without indentation. -/
  preventIndent : Bool := false
  /-- Whether a path that leads nowhere is tried from the enclosing blocks. -/
  recursiveLookup : Bool := false
  /-- What is done to the text of a value before it is written. -/
  escape : String → String := escapeHtml

/-- A template under the name it was given, and what is wrong with it. -/
structure BrokenTemplate where
  name : String
  error : TemplateError
  deriving DecidableEq, Repr, Inhabited

/-- The error in words. -/
def BrokenTemplate.message (e : BrokenTemplate) : String :=
  "failed to compile template '" ++ e.name ++ "': " ++ e.error.message

namespace Registry

/-- The helpers of the language by name. -/
def standardHelpers : Assoc String Helper :=
  ([("if", .when true), ("unless", .when false), ("each", .each), ("with", .with),
    ("lookup", .lookup), ("raw", .raw), ("log", .log), ("eq", .compare .eq), ("ne", .compare .ne),
    ("gt", .compare .gt), ("gte", .compare .gte), ("lt", .compare .lt), ("lte", .compare .lte),
    ("and", .all), ("or", .any), ("not", .not), ("len", .len)] : List (String × Builtin)).map
    fun (name, builtin) => (name, .builtin builtin)

instance : Inhabited Registry := ⟨{ helpers := standardHelpers }⟩

/-- A registry with the helpers of the language alone. -/
def standard : Registry := { helpers := standardHelpers }

/-- Registers a helper. -/
def addHelper (r : Registry) (name : String) (helper : Helper) : Registry :=
  { r with helpers := r.helpers.put name helper }

/-- Registers the helpers for content blocks. -/
def withContentBlocks (r : Registry) : Registry :=
  (r.addHelper "contentFor" .contentFor).addHelper "block" .block

/-- The registry with helpers that write their values at once in place of deferred ones. -/
def direct (r : Registry) : Registry :=
  { r with helpers := r.helpers.map fun (name, helper) => (name, helper.direct) }

/-- No helper reads or changes the texts of its bodies. -/
def Verbatim (r : Registry) : Prop := ∀ p ∈ r.helpers, p.2.Verbatim

/-- What comes of each helper depends on its arguments alone. -/
def Steady (r : Registry) : Prop := ∀ p ∈ r.helpers, p.2.Steady

theorem Steady.verbatim {r : Registry} (h : r.Steady) : r.Verbatim := fun p hp => (h p hp).verbatim

theorem Verbatim.addHelper {r : Registry} (h : r.Verbatim) {helper : Helper}
    (hhelper : helper.Verbatim) (name : String) : (r.addHelper name helper).Verbatim := by
  intro p hp
  rcases Assoc.mem_of_mem_put hp with rfl | hp
  · exact hhelper
  · exact h p hp

theorem steady_standard : standard.Steady := by
  simp [Steady, standard, standardHelpers, Helper.Steady]

theorem Steady.addHelper {r : Registry} (h : r.Steady) {helper : Helper} (hhelper : helper.Steady)
    (name : String) : (r.addHelper name helper).Steady := by
  intro p hp
  rcases Assoc.mem_of_mem_put hp with rfl | hp
  · exact hhelper
  · exact h p hp

/-- How the registry compiles a partial. -/
def partialOptions (r : Registry) (name : String) : CompileOptions :=
  { name := some name, preventIndent := r.preventIndent }

/-- Compiles and registers a partial. -/
def addPartial (r : Registry) (name source : String) : Except BrokenTemplate Registry :=
  match Template.compile (r.partialOptions name) source with
  | .ok template => .ok { r with partials := r.partials.put name template }
  | .error error => .error { name, error }

end Registry
end Views
