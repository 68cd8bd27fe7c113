import Views.Assoc
import Views.Render.Error
import Views.Template.Syntax
/-!
# Contexts

While a template is rendered, the blocks around the element at hand say what a path means: each
gives a place in the data or a value of its own, names for values, variables, and partials that are
defined in it. Names, variables and partials of a block hold in the blocks within it.
`Context.resolve` follows a path.
-/

namespace Views

/-- What a name that a block gives stands for: the place that the block is at, or a value. -/
inductive BoundName where
  | place
  | value (v : Value)
  deriving Repr

/-- What one block says about paths. -/
structure BlockContext where
  /-- The path from the whole data to the place that the block is at. -/
  place : List String := []
  /-- The value that paths start from, where that is no place in the data. -/
  own : Option Value := none
  names : Assoc String BoundName := []
  vars : Assoc String Value := []
  partials : Assoc String Template := []
  deriving Inhabited

/-- What an operand stands for: a value with or without a place in the data, or nothing. -/
inductive Resolved where
  | value (v : Value)
  | located (v : Value) (path : List String)
  | missing
  deriving Repr, Inhabited

namespace Resolved

/-- The value; what is missing counts as null. -/
def get : Resolved → Value
  | value v => v
  | located v _ => v
  | missing => .null

/-- Whether the operand stands for nothing. -/
def isMissing : Resolved → Bool
  | missing => true
  | _ => false

/-- The place in the data. -/
def path? : Resolved → Option (List String)
  | located _ path => some path
  | _ => none

end Resolved

namespace Context

/-- The number that the text of an index stands for: digits, perhaps after a plus, in 64 bits. -/
def index? (text : String) : Option Nat :=
  let digits := match text.toList with
    | '+' :: rest => rest
    | cs => cs
  if digits.isEmpty || !digits.all Char.isDigit then none
  else
    let n := digits.foldl (fun acc c => acc * 10 + (c.toNat - '0'.toNat)) 0
    if n < 0x10000000000000000 then some n else none

/-- The member of a value: a field of an object, an item of a list. -/
def member (v : Value) (name : String) : Except RenderFault (Option Value) :=
  match v with
  | .object fields => .ok (Fields.get? name fields)
  | .list items => match index? name with
    | some i => .ok items[i]?
    | none => .error (.invalidIndex name)
  | _ => .ok none

/-- Follows names from a value. -/
def walk (v : Value) : List String → Except RenderFault (Option Value)
  | [] => .ok (some v)
  | name :: rest => match member v name with
    | .ok (some w) => walk w rest
    | .ok none => .ok none
    | .error e => .error e

/-- The names that a path steps into. -/
def names (steps : List PathStep) : List String :=
  steps.filterMap fun
    | .into name => some name
    | _ => none

/-- How many steps a path goes up before anything else. -/
def climb : List PathStep → Nat
  | .up :: rest => climb rest + 1
  | _ => 0

/-- What follows a path from a value: a value of its own. -/
def fromValue (v : Value) (path : List String) : Except RenderFault Resolved :=
  (walk v path).map fun
    | some w => .value w
    | none => .missing

/-- What stands at a place in the data. -/
def fromData (data : Value) (path : List String) : Except RenderFault Resolved :=
  (walk data path).map fun
    | some w => .located w path
    | none => .missing

/-- What a path means in one block. -/
def fromBlock (data : Value) (block : BlockContext) (path : List String) :
    Except RenderFault Resolved :=
  match block.own with
  | some v => fromValue v path
  | none => fromData data (block.place ++ path)

/-- The innermost block that gives a name, with what the name stands for. -/
def boundName? (blocks : List BlockContext) (name : String) : Option (BlockContext × BoundName) :=
  blocks.findSome? fun block => (block.names.find? name).map (block, ·)

/-- What a path means, ignoring the blocks further out. A path up counts blocks, the innermost
first; one that goes up too far starts from the innermost block. -/
def resolveHere (data : Value) (blocks : List BlockContext) (steps : List PathStep) :
    Except RenderFault Resolved :=
  let path := names steps
  let height := climb steps
  let bound := match steps.drop height with
    | .into name :: _ => boundName? blocks name
    | _ => none
  match bound with
  | some (_, .value v) => fromValue v (path.drop 1)
  | some (block, .place) => fromData data (block.place ++ path.drop 1)
  | none =>
    if 0 < height then
      match (blocks[height]?).or blocks.head? with
      | some block => fromBlock data block path
      | none => fromData data path
    else if steps.head? = some .root then fromData data path
    else match blocks.head? with
      | some block => fromBlock data block path
      | none => fromData data path

/-- Looks for a path in one block after the other, the innermost first. -/
def resolveOutward (data : Value) (path : List PathStep) :
    List BlockContext → Except RenderFault Resolved
  | [] => .ok .missing
  | block :: outer => match resolveHere data (block :: outer) path with
    | .ok .missing => resolveOutward data path outer
    | r => r

/-- What a path means. With `outward`, a path that leads nowhere from the innermost block is tried
from the blocks around it. -/
def resolve (outward : Bool) (data : Value) (blocks : List BlockContext) (steps : List PathStep) :
    Except RenderFault Resolved :=
  match resolveHere data blocks steps with
  | .ok .missing =>
    match outward, steps with
    | true, .into _ :: _ => resolveOutward data steps (blocks.drop 1)
    | _, _ => .ok .missing
  | r => r

/-- The innermost variable of a name, seen from so many blocks out. -/
def blockVariable (blocks : List BlockContext) (level : Nat) (name : String) : Resolved :=
  match (blocks.drop level).findSome? fun block => block.vars.find? name with
  | some v => .value v
  | none => .missing

/-- The innermost partial of a name that a block defines. -/
def definedPartial? (blocks : List BlockContext) (name : String) : Option Template :=
  blocks.findSome? fun block => block.partials.find? name

/-- What a reference means. -/
def lookup (outward : Bool) (data : Value) (blocks : List BlockContext) :
    Reference → Except RenderFault Resolved
  | .steps steps => resolve outward data blocks steps
  | .blockVariable level name => .ok (blockVariable blocks level name)

end Context
end Views
