import Views.Template.Mark
import Views.Value.Basic
/-!
# Templates

A compiled template is a list of elements, each with the place in the source that errors in it are
reported at. Blocks, partials and decorators hold templates of their own.
-/

namespace Views

/-- A step of a path through the data. -/
inductive PathStep where
  /-- Into a field or an item. -/
  | into (name : String)
  /-- To the enclosing context. -/
  | up
  /-- To the whole data. -/
  | root
  deriving DecidableEq, Repr

/-- A path through the data, or the name of a variable that a block sets for its body. -/
inductive Reference where
  | steps (steps : List PathStep)
  | blockVariable (level : Nat) (name : String)
  deriving DecidableEq, Repr

/-- What an expression is built from: a bare name, a path with its spelling, a literal, or a helper
applied within parentheses. -/
inductive Operand where
  | name (name : String)
  | path (reference : Reference) (spelling : String)
  | literal (value : Value)
  | apply (head : Operand) (args : List Operand) (hash : List (String × Operand))
  deriving Repr, Inhabited

/-- The head of a tag with its arguments, positional and named. -/
structure Invocation where
  head : Operand
  args : List Operand := []
  hash : List (String × Operand) := []
  deriving Repr, Inhabited

/-- The names that a block gives to the value at hand and to its key. -/
structure BlockNames where
  value : String
  key : Option String := none
  deriving DecidableEq, Repr

mutual

/-- A piece of a template. -/
inductive Element where
  /-- Text to be copied. -/
  | text (content : String)
  /-- A value or the result of a helper, with special characters escaped or as it is. -/
  | expression (invocation : Invocation) (escaped : Bool)
  /-- A helper with a body, and another body for the other case. -/
  | block (invocation : Invocation) (names : Option BlockNames) (body : Option Template)
      (inverse : Option Template) (indents : Bool)
  /-- A decorator, perhaps with a body. -/
  | decorator (invocation : Invocation) (body : Option Template)
  /-- A partial to be included, perhaps with a body for it, indented by some text. -/
  | inclusion (invocation : Invocation) (body : Option Template) (indent : Option String)
      (indents : Bool)
  /-- A remark that leaves nothing on the page. -/
  | comment (content : String)

/-- A compiled template. -/
inductive Template where
  | mk (name : Option String) (items : List (Option Position × Element))

end

instance : Inhabited Element := ⟨.text ""⟩
instance : Inhabited Template := ⟨.mk none []⟩

namespace Template

/-- The name that a template was registered under. -/
def name? : Template → Option String
  | mk name _ => name

/-- The elements with their places. -/
def items : Template → List (Option Position × Element)
  | mk _ items => items

/-- The template under a name. -/
def withName : Template → Option String → Template
  | mk _ items, name => mk name items

end Template
end Views
