import Views.Engine.Basic
/-!
# Renders side by side, in any order

Any number of renders of one engine may be under way, and it may forget what it read at any moment.
`Traffic.step` lets one thing happen: a call arrives and runs up to its first question, a call that
waits hears an answer and runs up to its next question, or the engine forgets. Which call hears its
answer next, and what the answer is, is left open.
-/

namespace Views

/-- The error that an answer of a source is, unless it says that something is not there. -/
def Question.fault? : (question : Question) → question.Answer → Option SourceError
  | .partials, .error e => if e.isNotFound then none else some e
  | .template _, .error e => if e.isNotFound then none else some e
  | _, _ => none

/-- A call of `Engine.render`: what was asked for, how far it has come, and the faults among the
answers that it has heard. -/
structure Visit where
  name : String
  request : Request
  arrangement : Arrangement
  progress : Halt Engine (Except ViewError String)
  faults : List SourceError := []

/-- The result of a call that has ended. -/
def Visit.result? (visit : Visit) : Option (Except ViewError String) := visit.progress.result?

/-- Lets a call that waits go on with the answer to its question. -/
def Visit.hear (visit : Visit) (answers : (question : Question) → question.Answer)
    (engine : Engine) : Visit × Engine :=
  match visit.progress with
  | .ended _ => (visit, engine)
  | .asking question next =>
    let (progress, engine) := (next (answers question)).advance engine
    ({ visit with progress, faults := visit.faults ++ (question.fault? (answers question)).toList },
      engine)

/-- What may happen next. -/
inductive Event where
  | arrives (name : String) (request : Request) (arrangement : Arrangement)
  /-- The call in some place hears the answer to the question it has asked. -/
  | hears (place : Nat) (answers : (question : Question) → question.Answer)
  | forgets

/-- An engine with the calls that have arrived so far. -/
structure Traffic where
  engine : Engine
  visits : List Visit := []

namespace Traffic

/-- Lets one thing happen. -/
def step (traffic : Traffic) : Event → Traffic
  | .arrives name request arrangement =>
    let (progress, engine) := (Engine.render name request arrangement).run.advance traffic.engine
    { engine, visits := traffic.visits ++ [{ name, request, arrangement, progress }] }
  | .hears place answers =>
    match traffic.visits[place]? with
    | none => traffic
    | some visit =>
      let (visit, engine) := visit.hear answers traffic.engine
      { engine, visits := traffic.visits.set place visit }
  | .forgets => { traffic with engine := traffic.engine.forget }

/-- Lets one thing happen after the other. -/
def run (traffic : Traffic) (events : List Event) : Traffic := events.foldl step traffic

end Traffic
end Views
