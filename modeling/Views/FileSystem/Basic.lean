import Views.Assoc
import Views.FileSystem.Path
/-!
# The file system

A file system is a map from places to what is there: a file, a directory or a link. `locate` finds
the place that a path leads to, following links, and the operations on files read and change what
is there.
-/

namespace Views

/-- What is at a place. -/
inductive Node where
  | file (content : List UInt8)
  | directory
  | link (target : FilePath)
  deriving DecidableEq, Repr

/-- A place: the names from the root to it. -/
abbrev Location := List FileName

/-- Why an operation on a file failed. -/
inductive FileFault where
  | missing
  | notDirectory
  | isDirectory
  | tooLong
  | tooManyLinks
  | zeroByte
  | notText
  deriving DecidableEq, Repr

/-- The reason in words. -/
def FileFault.message : FileFault → String
  | missing => "No such file or directory (os error 2)"
  | notDirectory => "Not a directory (os error 20)"
  | isDirectory => "Is a directory (os error 21)"
  | tooLong => "File name too long (os error 36)"
  | tooManyLinks => "Too many levels of symbolic links (os error 40)"
  | zeroByte => "file name contained an unexpected NUL byte"
  | notText => "stream did not contain valid UTF-8"

/-- What is in a file system, and the place that paths start from unless they start at the root. -/
structure FileSystem where
  nodes : Assoc Location Node := []
  base : Location := [("work" : String).toUTF8.toList]
  deriving Repr

instance : Inhabited FileSystem := ⟨{}⟩

namespace FileSystem

/-- How many links a path may lead through. -/
def linkLimit : Nat := 40

/-- The longest name. -/
def nameLimit : Nat := 255

/-- The length that a path must stay below. -/
def pathLimit : Nat := 4096

/-- What is at a place. The root and the starting place are directories. -/
def node? (fs : FileSystem) (at' : Location) : Option Node :=
  if at'.isPrefixOf fs.base then some .directory else Assoc.find? at' fs.nodes

/-- Walks along names from a place, through so many links at most. Every name but the last has to
lead to a directory. -/
def walk (fs : FileSystem) (links : Nat) (from' : Location) (names : List FileName) :
    Except FileFault Location :=
  match names with
  | [] => .ok from'
  | name :: rest =>
    match fs.node? from' with
    | none => .error .missing
    | some (.file _) => .error .notDirectory
    | some (.link _) => .error .missing
    | some .directory =>
      if name = [] ∨ name = [FilePath.dot] then walk fs links from' rest
      else if name = [FilePath.dot, FilePath.dot] then walk fs links from'.dropLast rest
      else if nameLimit < name.length then .error .tooLong
      else match fs.node? (from' ++ [name]) with
        | some (.link target) =>
          match links with
          | 0 => .error .tooManyLinks
          | links + 1 =>
            walk fs links (if target.isAbsolute then [] else from') (target.names ++ rest)
        | _ => walk fs links (from' ++ [name]) rest
termination_by (links, names.length)

/-- The place that a path leads to; there need not be anything at it. -/
def locate (fs : FileSystem) (path : FilePath) : Except FileFault Location :=
  if path.bytes.contains 0 then .error .zeroByte
  else if path.bytes = [] then .error .missing
  else if pathLimit ≤ path.bytes.length then .error .tooLong
  else fs.walk linkLimit (if path.isAbsolute then [] else fs.base) path.names

/-- What a path leads to. -/
def find (fs : FileSystem) (path : FilePath) : Except FileFault Node := do
  match fs.node? (← fs.locate path) with
  | some node => .ok node
  | none => .error .missing

/-- The text of a file. -/
def read (fs : FileSystem) (path : FilePath) : Except FileFault String := do
  match ← fs.find path with
  | .file content => match FilePath.textOf? content with
    | some text => .ok text
    | none => .error .notText
  | _ => .error .isDirectory

/-- Whether a path leads to something that is no directory. -/
def isOtherThanDirectory (fs : FileSystem) (path : FilePath) : Bool :=
  match fs.find path with
  | .ok .directory => false
  | .ok _ => true
  | .error _ => false

/-- The names in a directory with what is there, a link for itself. -/
def list (fs : FileSystem) (path : FilePath) : Except FileFault (List (FileName × Node)) := do
  let at' ← fs.locate path
  match fs.node? at' with
  | some .directory =>
    .ok <| fs.nodes.filterMap fun (place, node) =>
      match place.getLast? with
      | some name => if place.dropLast = at' then some (name, node) else none
      | none => none
  | some _ => .error .notDirectory
  | none => .error .missing

/-! ## Changes -/

/-- Puts something at a place. -/
def put (fs : FileSystem) (at' : Location) (node : Node) : FileSystem :=
  { fs with nodes := Assoc.put at' node fs.nodes }

/-- Makes the directories that names from a place lead through. -/
def makeDirectories (fs : FileSystem) (from' : Location) : List FileName → FileSystem
  | [] => fs
  | name :: rest =>
    if name = [] ∨ name = [FilePath.dot] then makeDirectories fs from' rest
    else if name = [FilePath.dot, FilePath.dot] then makeDirectories fs from'.dropLast rest
    else
      let fs := if (fs.node? (from' ++ [name])).isSome then fs
        else fs.put (from' ++ [name]) .directory
      match fs.walk linkLimit from' [name] with
      | .ok next => makeDirectories fs next rest
      | .error _ => fs

/-- Puts something at a path, with the directories that lead there. A file is put where the path
leads to, a link at the path itself. -/
def make (fs : FileSystem) (path : FilePath) (node : Node) : FileSystem :=
  let start := if path.isAbsolute then [] else fs.base
  match node with
  | .directory => fs.makeDirectories start path.names
  | .file _ =>
    let fs := fs.makeDirectories start path.names.dropLast
    match fs.locate path with
    | .ok at' => fs.put at' node
    | .error _ => fs
  | .link _ =>
    let fs := fs.makeDirectories start path.names.dropLast
    match fs.walk linkLimit start path.names.dropLast, path.names.getLast? with
    | .ok parent, some name => fs.put (parent ++ [name]) node
    | _, _ => fs

/-- Removes the file or link that a path names. -/
def remove (fs : FileSystem) (path : FilePath) : FileSystem :=
  let start := if path.isAbsolute then [] else fs.base
  match fs.walk linkLimit start path.names.dropLast, path.names.getLast? with
  | .ok parent, some name => { fs with nodes := Assoc.erase (parent ++ [name]) fs.nodes }
  | _, _ => fs

end FileSystem
end Views
