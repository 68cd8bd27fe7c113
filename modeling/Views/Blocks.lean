import Views.Assoc
/-!
# Content blocks

A page collects named fragments and its layout emits them. `Blocks.emit` gives the fragments
captured for a name since the name was last emitted, one to a line, and forgets them.
-/

namespace Views

/-- The fragments captured for each name and not yet emitted, the oldest first. -/
structure Blocks where
  fragments : Assoc String (List String) := []
  deriving Repr, Inhabited

namespace Blocks

/-- What has been captured for a name and not yet emitted. -/
def pending (blocks : Blocks) (name : String) : List String :=
  (blocks.fragments.find? name).getD []

/-- Captures a fragment for a name. -/
def capture (blocks : Blocks) (name fragment : String) : Blocks :=
  ⟨blocks.fragments.put name (blocks.pending name ++ [fragment])⟩

/-- The fragments of a name joined by line breaks, and the blocks without them. -/
def emit (blocks : Blocks) (name : String) : String × Blocks :=
  (String.intercalate "\n" (blocks.pending name), ⟨blocks.fragments.put name []⟩)

/-- Whether anything is left to emit for a name. -/
def hasPending (blocks : Blocks) (name : String) : Bool := !(blocks.pending name).isEmpty

@[simp] theorem pending_capture_self (blocks : Blocks) (name fragment : String) :
    (blocks.capture name fragment).pending name = blocks.pending name ++ [fragment] := by
  simp [capture, pending]

theorem pending_capture_of_ne {name other : String} (h : other ≠ name) (blocks : Blocks)
    (fragment : String) : (blocks.capture name fragment).pending other = blocks.pending other := by
  simp [capture, pending, Assoc.find?_put_of_ne h]

@[simp] theorem pending_emit_self (blocks : Blocks) (name : String) :
    (blocks.emit name).2.pending name = [] := by
  simp [emit, pending]

theorem pending_emit_of_ne {name other : String} (h : other ≠ name) (blocks : Blocks) :
    (blocks.emit name).2.pending other = blocks.pending other := by
  simp [emit, pending, Assoc.find?_put_of_ne h]

end Blocks
end Views
