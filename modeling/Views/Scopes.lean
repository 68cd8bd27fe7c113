import Views.Render.Page
/-!
# Render scopes

Several renders go on at once, each in a scope of its own. What the helpers of a render reach is the
scope that is current: `Scopes.within` lends it to a step and takes it back.
-/

namespace Views

/-- The values of the tokens that a scope waits for, and the scope without them. -/
def PageScope.finish (scope : PageScope) : TokenValues × PageScope :=
  let (values, deferrals) := scope.deferrals.finish
  (values, { scope with deferrals })

/-- Scopes by number, and what they share: the supply of tokens and the tallies of helpers. -/
structure Scopes where
  cells : List PageScope
  tokens : TokenSupply := {}
  calls : Assoc String Nat := []

namespace Scopes

/-- So many scopes with nothing in them. -/
def ofCount (n : Nat) : Scopes := { cells := List.replicate n {} }

/-- What helpers reach where a scope is current, or none is. -/
def around (scopes : Scopes) (current : Option Nat) : Surroundings :=
  { scope := current.bind (scopes.cells[·]?), tokens := scopes.tokens, calls := scopes.calls }

/-- Takes back what was lent to helpers. -/
def takeBack (scopes : Scopes) (current : Option Nat) (after : Surroundings) : Scopes :=
  { cells := match current, after.scope with
      | some i, some scope => scopes.cells.set i scope
      | _, _ => scopes.cells
    tokens := after.tokens
    calls := after.calls }

/-- Runs a step where a scope is current. -/
def within {α : Type} (scopes : Scopes) (current : Option Nat)
    (step : Surroundings → α × Surroundings) : α × Scopes :=
  let (result, after) := step (scopes.around current)
  (result, scopes.takeBack current after)

/-- Renders a template source where a scope is current. -/
def render (scopes : Scopes) (current : Option Nat) (registry : Registry) (source : String)
    (data : Value) : Except RenderFailure String × Scopes :=
  scopes.within current (registry.renderTemplate source data)

/-- The scope of a number; one that is not there has nothing in it. -/
def get (scopes : Scopes) (i : Nat) : PageScope := (scopes.cells[i]?).getD {}

/-- Changes the scope of a number. -/
def set (scopes : Scopes) (i : Nat) (scope : PageScope) : Scopes :=
  { scopes with cells := scopes.cells.set i scope }

end Scopes
end Views
