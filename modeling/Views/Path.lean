import Views.Text.Search
/-!
# Paths

A path is a text whose segments are separated by `/`. `normalize` removes empty and `.` segments
and lets each `..` take back the segment before it; `locate` says which place a path leads to from
a given directory, and is what normalizing has to keep.
-/

namespace Views.Path

/-- The name between two separators. -/
abbrev Segment := List Char

/-- The segment that names the directory it stands in. -/
def here : Segment := ['.']

/-- The segment that names the directory above. -/
def up : Segment := ['.', '.']

/-- The separator of segments. -/
def separator : Char := '/'

/-- Whether the path starts at the root. -/
def isAbsolute (path : List Char) : Bool := path.head? == some separator

/-- The segments of a path, empty ones included. -/
def segments (path : List Char) : List Segment := Text.splitAt (· == separator) path

/-- The path with backslashes read as separators. -/
def unify (path : List Char) : List Char := path.map fun c => if c == '\\' then separator else c

/-- Takes one segment into account; `done` holds the segments kept so far, the last one first. At
the root `..` stays where it is; a relative path keeps the `..` that nothing takes back. -/
def push (absolute : Bool) (done : List Segment) (segment : Segment) : List Segment :=
  if segment = [] ∨ segment = here then done
  else if segment = up then
    match done with
    | last :: rest => if last = up then (if absolute then done else up :: done) else rest
    | [] => if absolute then [] else [up]
  else segment :: done

/-- The segments that are left when `.` and `..` are resolved within the path. -/
def reduce (absolute : Bool) (segs : List Segment) : List Segment :=
  (segs.foldl (push absolute) []).reverse

/-- Segments put together with separators between them. -/
def join : List Segment → List Char
  | [] => []
  | [s] => s
  | s :: t :: rest => s ++ separator :: join (t :: rest)

/-- The shortest path to the same place that the text alone determines. -/
def normalize (path : List Char) : List Char :=
  let segs := join (reduce (isAbsolute path) (segments path))
  if isAbsolute path then separator :: segs else segs

/-- The directory reached by one segment from a directory, given by the names from the root. -/
def enter (directory : List Segment) (segment : Segment) : List Segment :=
  if segment = [] ∨ segment = here then directory
  else if segment = up then directory.dropLast
  else directory ++ [segment]

/-- The place that a path leads to from a directory. -/
def locate (directory : List Segment) (path : List Char) : List Segment :=
  (segments path).foldl enter (if isAbsolute path then [] else directory)

/-- The last segment. -/
def fileName (path : List Char) : Segment := (segments path).getLast?.getD []

/-- What stands before the last separator; the root alone keeps its separator. -/
def directory (path : List Char) : List Char :=
  if path.contains separator then
    let before := (path.reverse.dropWhile (· != separator)).drop 1
    if before.isEmpty then [separator] else before.reverse
  else []

/-- The extension of the last segment with its dot: what follows the last dot, if something does
and if something stands before it. -/
def extension? (path : List Char) : Option (List Char) :=
  let file := fileName path
  let tail := file.reverse.takeWhile (· != '.')
  let stem := file.reverse.drop (tail.length + 1)
  if file.contains '.' ∧ tail ≠ [] ∧ stem ≠ [] then some ('.' :: tail.reverse) else none

/-- The path that `name` has when it is looked up in the directory `base`. -/
def beneath (base name : List Char) : List Char :=
  let name := unify name
  if isAbsolute name ∨ base = [] then name else unify base ++ separator :: name

end Views.Path
