import Views.Deferred
/-!
# Settlements under way

A job starts when its token is given out, and ends on its own. A settlement that is called for takes
the tokens that wait, and returns their values once all their jobs have ended; until then tokens may
be given out and further settlements called for. `Docket.step` lets one thing happen, and
`Docket.run` one thing after the other, in whatever order.
-/

namespace Views

/-- A settlement that was called for: the tokens that it took, the number of the first one of their
jobs, and the values that it returned, if it has. -/
structure Settlement where
  first : Nat
  batch : List Pending
  values? : Option TokenValues := none
  deriving DecidableEq, Repr

namespace Settlement

/-- The ends of jobs, with numbers that start from the first job of the settlement. -/
def ends (settlement : Settlement) (ended : List Completion) : List Completion :=
  ended.filterMap fun (number, outcome) =>
    if settlement.first ≤ number then some (number - settlement.first, outcome) else none

/-- Whether all jobs of the settlement have ended. -/
def isDue (settlement : Settlement) (ended : List Completion) : Bool :=
  (List.range settlement.batch.length).all fun place =>
    (Assoc.find? place (settlement.ends ended)).isSome

/-- Returns the values of the batch if all its jobs have ended. What is returned once stays. -/
def resume (settlement : Settlement) (ended : List Completion) : Settlement :=
  if settlement.values?.isNone ∧ settlement.isDue ended then
    { settlement with values? := some (settle settlement.batch (settlement.ends ended)) }
  else settlement

end Settlement

/-- The tokens that wait, the jobs started so far, the ends of jobs in the order in which they came,
by the number of the job, and the settlements called for, the oldest first. -/
structure Docket where
  deferrals : Deferrals := {}
  started : List Job := []
  ended : List Completion := []
  settlements : List Settlement := []
  deriving DecidableEq, Repr

namespace Docket

/-- What may happen next. -/
inductive Entry where
  /-- A token is given out, and its job starts. -/
  | given (token : Token) (job : Job)
  /-- The job of a number ends. -/
  | ended (number : Nat)
  /-- A settlement is called for. -/
  | called
  /-- The settlement at a place looks whether its jobs have ended. -/
  | resumed (place : Nat)
  deriving DecidableEq, Repr

/-- Lets one thing happen. -/
def step (docket : Docket) : Entry → Docket
  | .given token job =>
    { docket with
      deferrals := docket.deferrals.defer token job
      started := docket.started ++ [job] }
  | .ended number =>
    match docket.started[number]? with
    | some job => { docket with ended := Assoc.put number job.outcome docket.ended }
    | none => docket
  | .called =>
    let (batch, deferrals) := docket.deferrals.take
    let first := docket.started.length - batch.length
    { docket with deferrals, settlements := docket.settlements ++ [{ first, batch }] }
  | .resumed place =>
    { docket with settlements := docket.settlements.modify place (·.resume docket.ended) }

/-- Lets one thing happen after the other, from nothing on. -/
def run (entries : List Entry) : Docket := entries.foldl step {}

end Docket
end Views
