import Views.Template.Syntax
import Views.Text.Quoted
/-!
# Outlines of operands

A message that has to name the head of a tag where the head is no name shows its outline: each part
with its kind and with what it holds.
-/

namespace Views

mutual

/-- The outline of a value. -/
def Value.outline : Value → String
  | .null => "Null"
  | .bool b => "Bool(" ++ (if b then "true" else "false") ++ ")"
  | .number n => "Number(" ++ n.text ++ ")"
  | .string s => "String(" ++ Text.reveal s ++ ")"
  | .list items => "Array [" ++ String.intercalate ", " (Value.outlines items) ++ "]"
  | .object fields =>
    "Object \x7b" ++ String.intercalate ", " (Value.fieldOutlines fields) ++ "\x7d"

/-- The outlines of the items of a list. -/
def Value.outlines : List Value → List String
  | [] => []
  | v :: rest => Value.outline v :: Value.outlines rest

/-- The fields of an object with the outlines of their values. -/
def Value.fieldOutlines : List (String × Value) → List String
  | [] => []
  | (key, v) :: rest => (Text.reveal key ++ ": " ++ Value.outline v) :: Value.fieldOutlines rest

end

/-- The outline of a step of a path. -/
def PathStep.outline : PathStep → String
  | .into name => "Named(" ++ Text.reveal name ++ ")"
  | .up => "Ruled(path_up)"
  | .root => "Ruled(path_root)"

/-- The outline of a reference with its spelling. -/
def Reference.outline (spelling : String) : Reference → String
  | .steps path =>
    "Relative(([" ++ String.intercalate ", " (path.map PathStep.outline) ++ "], " ++
      Text.reveal spelling ++ "))"
  | .blockVariable level name =>
    "Local((" ++ toString level ++ ", " ++ Text.reveal name ++ ", " ++ Text.reveal spelling ++ "))"

mutual

/-- The outline of an operand. -/
def Operand.outline : Operand → String
  | .name word => "Name(" ++ Text.reveal word ++ ")"
  | .path reference spelling => "Path(" ++ reference.outline spelling ++ ")"
  | .literal v => "Literal(" ++ v.outline ++ ")"
  | .apply head args hash =>
    "Subexpression(Subexpression \x7b element: Expression(HelperTemplate \x7b name: " ++
      Operand.outline head ++ ", params: [" ++ String.intercalate ", " (Operand.outlines args) ++
      "], hash: \x7b" ++ String.intercalate ", " (Operand.namedOutlines hash) ++
      "\x7d, block_param: None, template: None, inverse: None, block: false, chain: false, " ++
      "indent_before_write: false \x7d) \x7d)"

/-- The outlines of operands. -/
def Operand.outlines : List Operand → List String
  | [] => []
  | operand :: rest => Operand.outline operand :: Operand.outlines rest

/-- Names with the outlines of their operands. -/
def Operand.namedOutlines : List (String × Operand) → List String
  | [] => []
  | (key, operand) :: rest =>
    (Text.reveal key ++ ": " ++ Operand.outline operand) :: Operand.namedOutlines rest

end

end Views
