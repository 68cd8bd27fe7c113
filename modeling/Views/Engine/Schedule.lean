import Views.World
/-!
# Scripts side by side

Several scripts share one engine and one world. Each runs until it has to wait; the script that
has waited long enough goes on first, and of those that may go on at the same moment the one that
stands first.
-/

namespace Views

/-- A moment: the milliseconds since the start, and the round within that millisecond. -/
structure Moment where
  time : Nat
  round : Nat
  deriving DecidableEq, Repr, Inhabited

namespace Moment

/-- Whether a moment is before another. -/
def before (a b : Moment) : Bool := a.time < b.time || (a.time == b.time && a.round < b.round)

/-- The moment so many milliseconds later: the next round if there are none. -/
def later (now : Moment) : Nat → Moment
  | 0 => ⟨now.time, now.round + 1⟩
  | delay => ⟨now.time + delay, 0⟩

end Moment

/-- A script that ended, or one that waits until a moment for an answer. -/
inductive Strand (α : Type) where
  | ended (result : α)
  | waiting (question : Question) (next : question.Answer → Script Engine α) (wake : Moment)

/-- Scripts under way with the engine and the world that they share. -/
structure Schedule (α : Type) where
  strands : List (Strand α) := []
  engine : Engine
  world : World
  now : Moment := ⟨0, 0⟩

namespace Schedule

variable {α : Type}

/-- Runs a script until it ends or has to wait. -/
def runOn (now : Moment) : Script Engine α → Engine → World → Strand α × Engine × World
  | .done a, engine, world => (.ended a, engine, world)
  | .read next, engine, world => runOn now (next engine) engine world
  | .write engine next, _, world => runOn now next engine world
  | .ask q next, engine, world =>
    match world.delay? q with
    | none => runOn now (next ((world.count q).answer q)) engine (world.count q)
    | some delay => (.waiting q next (now.later delay), engine, world.count q)

/-- Starts a script. -/
def start (st : Schedule α) (script : Script Engine α) : Schedule α :=
  let (strand, engine, world) := runOn st.now script st.engine st.world
  { st with strands := st.strands ++ [strand], engine, world }

/-- The place of the strand that goes on next, and when. -/
def next? (strands : List (Strand α)) : Option (Nat × Moment) :=
  strands.zipIdx.foldl (fun best (strand, i) =>
    match strand, best with
    | .ended _, _ => best
    | .waiting _ _ wake, some (_, first) => if wake.before first then some (i, wake) else best
    | .waiting _ _ wake, none => some (i, wake)) none

/-- Lets one strand go on at a moment, with the answer as things stand then. -/
def resume (st : Schedule α) (place : Nat) (now : Moment) : Schedule α :=
  match st.strands[place]? with
  | some (.waiting q next _) =>
    let (strand, engine, world) := runOn now (next (st.world.answer q)) st.engine st.world
    { strands := st.strands.set place strand, engine, world, now }
  | _ => { st with now }

/-- Lets strands go on so many times, in their order. -/
def proceed : Nat → Schedule α → Schedule α
  | 0, st => st
  | n + 1, st => match next? st.strands with
    | some (place, now) => proceed n (st.resume place now)
    | none => st

/-- The results of the strands that ended. -/
def results (st : Schedule α) : List α :=
  st.strands.filterMap fun
    | .ended a => some a
    | .waiting _ _ _ => none

end Schedule

namespace Engine

/-- How many questions a render asks at most: partials, default layout, view, layout, and the
values of its two passes. -/
def questionLimit : Nat := 6

/-- Renders several views at once. -/
def renderTogether (engine : Engine) (world : World) (requests : List (String × Request)) :
    List (Except ViewError String) × Engine × World :=
  let scripts := requests.map fun (name, options) => (render name options).run
  let st := scripts.foldl Schedule.start { engine, world }
  let st := st.proceed (questionLimit * scripts.length)
  (st.results, st.engine, st.world)

end Engine
end Views
