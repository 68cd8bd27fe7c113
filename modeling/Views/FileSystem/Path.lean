import Views.Text.Search
/-!
# File paths

A file path is a sequence of bytes, most often the text of a path in UTF-8. Its names are what
stands between slashes; the stem of a name is what stands before its last dot.
-/

namespace Views

/-- A name in a directory. -/
abbrev FileName := List UInt8

/-- A path as it is given to the file system. -/
structure FilePath where
  bytes : List UInt8
  deriving DecidableEq, Repr, Inhabited

namespace FilePath

/-- The byte of the slash. -/
def slash : UInt8 := 0x2F

/-- The byte of the dot. -/
def dot : UInt8 := 0x2E

/-- The path of a text. -/
def ofString (s : String) : FilePath := ⟨s.toUTF8.toList⟩

/-- The text of some bytes, if they are UTF-8. -/
def textOf? (bytes : List UInt8) : Option String := String.fromUTF8? ⟨bytes.toArray⟩

/-- The text of the path, if it has one. -/
def text? (p : FilePath) : Option String := textOf? p.bytes

/-- How many bytes at the start of a sequence that is no UTF-8 are shown as one replacement
character: the longest start of a character, or one byte. -/
def brokenLength : List UInt8 → Nat
  | a :: b :: c :: d :: _ => lengthOf a (some b) (some c) (some d)
  | [a, b, c] => lengthOf a (some b) (some c) none
  | [a, b] => lengthOf a (some b) none none
  | _ => 1
where
  /-- Whether a byte may come second after the first. -/
  second (a b : UInt8) : Bool :=
    if a = 0xE0 then 0xA0 ≤ b && b ≤ 0xBF
    else if a = 0xED then 0x80 ≤ b && b ≤ 0x9F
    else if a = 0xF0 then 0x90 ≤ b && b ≤ 0xBF
    else if a = 0xF4 then 0x80 ≤ b && b ≤ 0x8F
    else 0xE1 ≤ a && a ≤ 0xF3 && 0x80 ≤ b && b ≤ 0xBF
  /-- Whether a byte may come later. -/
  later (b : UInt8) : Bool := 0x80 ≤ b && b ≤ 0xBF
  lengthOf (a : UInt8) (b c d : Option UInt8) : Nat :=
    match b with
    | some b =>
      if second a b then
        match c, d with
        | some c, _ => if 0xF0 ≤ a && later c then 3 else 2
        | none, _ => 2
      else 1
    | none => 1

/-- The length of the character at the start of a sequence, if there is one. -/
def characterLength? (bytes : List UInt8) : Option Nat :=
  [1, 2, 3, 4].find? fun n => n ≤ bytes.length && (textOf? (bytes.take n)).isSome

/-- Shows bytes as text, with a replacement character for what is no UTF-8. -/
def showBytes : Nat → List UInt8 → String
  | 0, _ => ""
  | _, [] => ""
  | limit + 1, bytes =>
    match characterLength? bytes with
    | some n => (textOf? (bytes.take n)).getD "" ++ showBytes limit (bytes.drop n)
    | none => "\uFFFD" ++ showBytes limit (bytes.drop (brokenLength bytes))

/-- The path as it is shown. -/
def display (p : FilePath) : String := (p.text?).getD (showBytes p.bytes.length p.bytes)

/-- Whether the path starts at the root. -/
def isAbsolute (p : FilePath) : Bool := p.bytes.head? == some slash

/-- The parts of a sequence of bytes between slashes, empty ones included. -/
def namesOf : List UInt8 → List FileName
  | [] => [[]]
  | b :: bs =>
    if b = slash then [] :: namesOf bs
    else match namesOf bs with
      | [] => [[b]]
      | name :: names => (b :: name) :: names

/-- The names in the path. -/
def names (p : FilePath) : List FileName := namesOf p.bytes

/-- The path of a name in the directory of a path. -/
def child (p : FilePath) (name : FileName) : FilePath :=
  if p.bytes = [] then ⟨name⟩
  else if p.bytes.getLast? = some slash then ⟨p.bytes ++ name⟩
  else ⟨p.bytes ++ slash :: name⟩

/-- The name without its extension: what stands before the last dot, or the whole name if it has
no dot or starts with its only one. -/
def stem (name : FileName) : FileName :=
  let before := (name.reverse.dropWhile (· != dot)).drop 1
  if before = [] then name else before.reverse

end FilePath
end Views
