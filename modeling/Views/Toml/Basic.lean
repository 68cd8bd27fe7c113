import Views.Assoc
import Views.Number.Binary64
/-!
# Configuration documents

The values of a TOML document. Tables remember how they came about, because that decides whether a
later line may add to them: `Toml.define`, `Toml.open` and `Toml.append` are the three kinds of
lines.
-/

namespace Views

/-- How a table came about: by a header, on the way to another header, on the way to a dotted key,
or within braces. -/
inductive TableOrigin where
  | header
  | implied
  | dotted
  | inline
  deriving DecidableEq, Repr

/-- A value of a document. -/
inductive Toml where
  | string (s : String)
  | integer (n : Int)
  | float (x : Binary64)
  | boolean (b : Bool)
  | moment (text : String)
  | array (items : List Toml)
  /-- Tables that were opened under one header with two brackets, the first one first. -/
  | tables (items : List Toml)
  | table (origin : TableOrigin) (fields : List (String × Toml))
  deriving Repr, Inhabited

namespace Toml

/-- A table without fields. -/
def empty (origin : TableOrigin) : Toml := table origin []

/-- Changes the table that keys lead to, making tables on the way where there are none. Keys lead
into the last of several tables. Nothing leads into a table in braces or a plain value, and dotted
keys do not lead into a table that has a header. -/
def within (made : TableOrigin) (edit : Toml → Option Toml) : List String → Toml → Option Toml
  | [], t => edit t
  | key :: rest, table origin fields =>
    match Assoc.find? key fields with
    | none => do
      let t ← within made edit rest (empty made)
      pure (table origin (Assoc.put key t fields))
    | some (table inner items) =>
      if inner = .inline ∨ (made = .dotted ∧ inner = .header) then none
      else do
        let t ← within made edit rest (table inner items)
        pure (table origin (Assoc.put key t fields))
    | some (tables items) => do
      let t ← within made edit rest (items.getLast?.getD (empty .header))
      pure (table origin (Assoc.put key (tables (items.dropLast ++ [t])) fields))
    | some _ => none
  | _ :: _, _ => none

/-- Binds a new key in a table. The last table on the way to a dotted key is one that was made by
dotted keys, and the key of a line without dots belongs to a table that was not. -/
def bind (isDotted : Bool) (key : String) (value : Toml) : Toml → Option Toml
  | table origin fields =>
    if (origin == .dotted) != isDotted then none
    else match Assoc.find? key fields with
      | some _ => none
      | none => some (table origin (Assoc.put key value fields))
  | _ => none

/-- The keys before the last one, and the last one. -/
def splitLast : List String → Option (List String × String)
  | [] => none
  | keys => keys.getLast?.map fun key => (keys.dropLast, key)

/-- Takes a line with a key and a value into a table. -/
def define (t : Toml) (keys : List String) (value : Toml) : Option Toml := do
  let (way, key) ← splitLast keys
  within .dotted (bind (!way.isEmpty) key value) way t

/-- Takes a header into the document: a new table, or one that was made on the way to another
header. -/
def «open» (keys : List String) (document : Toml) : Option Toml := do
  let (way, key) ← splitLast keys
  within .implied (fun
    | table origin fields => match Assoc.find? key fields with
      | none => some (table origin (Assoc.put key (empty .header) fields))
      | some (table .implied items) =>
        some (table origin (Assoc.put key (table .header items) fields))
      | some _ => none
    | _ => none) way document

/-- Takes a header with two brackets into the document: one more table under its keys. -/
def append (keys : List String) (document : Toml) : Option Toml := do
  let (way, key) ← splitLast keys
  within .implied (fun
    | table origin fields => match Assoc.find? key fields with
      | none => some (table origin (Assoc.put key (tables [empty .header]) fields))
      | some (tables items) =>
        some (table origin (Assoc.put key (tables (items ++ [empty .header])) fields))
      | some _ => none
    | _ => none) way document

end Toml
end Views
