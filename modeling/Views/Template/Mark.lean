import Views.Text.Search
/-!
# Places in a source

A place in a text is kept as what stands before it, the last character first, and what comes
after. Its line and column are read off the part before.
-/

namespace Views

/-- A line and a column, both counted from one. -/
structure Position where
  line : Nat
  column : Nat
  deriving DecidableEq, Repr, Inhabited

/-- A place in a text. -/
structure Mark where
  before : List Char
  after : List Char
  deriving DecidableEq, Repr, Inhabited

namespace Mark

/-- The start of a text. -/
def start (text : List Char) : Mark := ⟨[], text⟩

/-- The text that the place is in. -/
def text (m : Mark) : List Char := m.before.reverse ++ m.after

/-- Moves on until `rest` is left; `rest` is a tail of what comes after. -/
def moveTo (m : Mark) (rest : List Char) : Mark :=
  ⟨(m.after.take (m.after.length - rest.length)).reverse ++ m.before, rest⟩

/-- The characters from one place to a later one. -/
def upTo (m later : Mark) : List Char := m.after.take (m.after.length - later.after.length)

/-- The line and column of a place. -/
def position (m : Mark) : Position :=
  { line := m.before.count '\n' + 1
    column := (m.before.takeWhile (· != '\n')).length + 1 }

end Mark
end Views
