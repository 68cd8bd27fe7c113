import Views.Number.Text
/-!
# Data values

The data that a template is rendered with: null, booleans, numbers, strings, lists and objects. An
object keeps its fields in the order of their names, each name once; `Fields.insert` is the only
way to add one.
-/

namespace Views

/-- A value of template data. -/
inductive Value where
  | null
  | bool (b : Bool)
  | number (n : Number)
  | string (s : String)
  | list (items : List Value)
  | object (fields : List (String × Value))
  deriving Repr, Inhabited

/-- The fields of an object. -/
abbrev Fields := List (String × Value)

namespace Fields

/-- The value of a field. -/
def get? (name : String) : Fields → Option Value
  | [] => none
  | (key, value) :: rest => if key = name then some value else get? name rest

/-- Sets a field, keeping the fields in the order of their names. -/
def insert (name : String) (value : Value) : Fields → Fields
  | [] => [(name, value)]
  | (key, old) :: rest =>
    if name = key then (name, value) :: rest
    else if name < key then (name, value) :: (key, old) :: rest
    else (key, old) :: insert name value rest

/-- The fields given as pairs, a later pair taking the place of an earlier one of its name. -/
def ofList (pairs : List (String × Value)) : Fields :=
  pairs.foldl (fun fields p => insert p.1 p.2 fields) []

end Fields

namespace Value

/-- A natural number as a value. -/
def ofNat (n : Nat) : Value := .number (.integer n)

/-- The text of a string. -/
def asString? : Value → Option String
  | string s => some s
  | _ => none

/-- The truth of a boolean. -/
def asBool? : Value → Option Bool
  | bool b => some b
  | _ => none

/-- A field of an object; other values have none. -/
def field? (data : Value) (name : String) : Option Value :=
  match data with
  | object fields => Fields.get? name fields
  | _ => none

/-- The object with one field set; a value that is no object counts as the empty object. -/
def withField (data : Value) (name : String) (value : Value) : Value :=
  match data with
  | object fields => object (Fields.insert name value fields)
  | _ => object [(name, value)]

mutual

/-- Values are the same when they have the same shape and the same leaves. -/
def same : Value → Value → Bool
  | null, null => true
  | bool a, bool b => a == b
  | number a, number b => a.same b
  | string a, string b => a == b
  | list xs, list ys => sameItems xs ys
  | object fs, object gs => sameFields fs gs
  | _, _ => false

/-- Lists are the same item by item. -/
def sameItems : List Value → List Value → Bool
  | [], [] => true
  | x :: xs, y :: ys => same x y && sameItems xs ys
  | _, _ => false

/-- Objects are the same field by field, names included. -/
def sameFields : List (String × Value) → List (String × Value) → Bool
  | [], [] => true
  | (k, x) :: fs, (l, y) :: gs => k == l && same x y && sameFields fs gs
  | _, _ => false

end

mutual

/-- The text that stands for a value on a page: strings as they are, nothing for null, the items
of a list in brackets, and no more than its kind for an object. -/
def display : Value → String
  | null => ""
  | bool b => if b then "true" else "false"
  | number n => n.text
  | string s => s
  | list items => "[" ++ displayItems items ++ "]"
  | object _ => "[object]"

/-- The texts of items with a comma and a space between them. -/
def displayItems : List Value → String
  | [] => ""
  | [x] => display x
  | x :: y :: rest => display x ++ ", " ++ displayItems (y :: rest)

end

/-- Whether a condition on the value holds. Null and what is empty fail; a number fails when it is
zero or too small to be normal, unless zero is to be counted in. -/
def holds (includeZero : Bool) : Value → Bool
  | null => false
  | bool b => b
  | number n => if includeZero then !n.toBinary64.isNaN else n.toBinary64.isNormal
  | string s => s != ""
  | list items => !items.isEmpty
  | object fields => !fields.isEmpty

/-- Whether an option is switched on by the value: everything but null, `false`, zero and the empty
string does. -/
def switchesOn : Value → Bool
  | null => false
  | bool b => b
  | number n => !n.toBinary64.isZero
  | string s => s != ""
  | list _ => true
  | object _ => true

end Value
end Views
