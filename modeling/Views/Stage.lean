import Views.Scopes
/-!
# Entering scopes

Helpers reach the scope that is current. `Stage.enter` makes a scope current while steps run and
brings back the one that was current before. A `Step` does one thing to the scopes, an `Act`, or
enters a scope and goes on inside, where scopes may be entered again: after an inner scope is left,
the outer one is current as before.

An act is about one scope: a template that is rendered, about the scope that is current, and the
others about the scope that they name. `Step.acts` lists the acts of a step with the scopes that
they are about, however the scopes were entered, and making these acts one after the other is what
running the step is (`Step.runAll_eq`).
-/

namespace Views

/-- One thing done to scopes. Texts that are given may hold texts that the scope has answered
before. -/
inductive Act where
  /-- Renders a template source. -/
  | render (source : String) (data : Value)
  /-- Asks which scope is current. -/
  | looks
  | capture (scope : Nat) (name : String) (text : List Wording)
  | emit (scope : Nat) (name : String)
  | asksFor (scope : Nat) (name : String)
  | counts (scope : Nat)
  /-- Waits for the deferred values of a scope and puts them into a text. -/
  | finish (scope : Nat) (text : List Wording)

/-- What comes of an act. -/
inductive Reply where
  | rendered (result : Except RenderFailure String)
  | seen (current : Option Nat)
  | captured
  | emitted (text : String)
  | holds (answer : Bool)
  | pending (count : Nat)
  | finished (given : String) (values : TokenValues) (text : String)

/-- The text of a reply as it left the scope, with the tokens in it. -/
def Reply.text? : Reply → Option String
  | rendered result => result.toOption
  | emitted text => some text
  | _ => none

/-- Scopes, which of them is current, and what was replied, with the scopes that the replies are
about, the last reply first. -/
structure Stage where
  scopes : Scopes
  current : Option Nat := none
  replies : List (Option Nat × Reply) := []

namespace Stage

/-- Runs steps with a scope entered. -/
def enter (i : Nat) (steps : Stage → Stage) (stage : Stage) : Stage :=
  { steps { stage with current := some i } with current := stage.current }

/-- The replies about a scope, the last one first. -/
def repliesAt (stage : Stage) (k : Nat) : List Reply :=
  (stage.replies.filter (·.1 == some k)).map Prod.snd

/-- The text that is meant by parts of which some are texts from a scope. -/
def textAt (stage : Stage) (k : Nat) (text : List Wording) : String :=
  Wording.join ((stage.repliesAt k).filterMap Reply.text?) text

end Stage

namespace Act

/-- The scope that an act is about where a scope is current. -/
def scope? (current : Option Nat) : Act → Option Nat
  | render _ _ | looks => current
  | capture i _ _ | emit i _ | asksFor i _ | counts i | finish i _ => some i

/-- Whether an act with the scope that it is about is about a given scope. -/
def isAt (k : Nat) (p : Option Nat × Act) : Bool := p.1 == some k

/-- What comes of an act that is about a scope, and what it does to the scopes. The order in which
values are put into a text is not up to the scopes. -/
def outcome (registry : Registry) (order : TokenValues → TokenValues) (place : Option Nat)
    (stage : Stage) : Act → Reply × Scopes
  | render source data =>
    let (result, scopes) := stage.scopes.render place registry source data
    (.rendered result, scopes)
  | looks => (.seen place, stage.scopes)
  | capture i name text =>
    let scope := stage.scopes.get i
    let blocks := scope.blocks.capture name (stage.textAt i text)
    (.captured, stage.scopes.set i { scope with blocks })
  | emit i name =>
    let scope := stage.scopes.get i
    let (text, blocks) := scope.blocks.emit name
    (.emitted text, stage.scopes.set i { scope with blocks })
  | asksFor i name => (.holds ((stage.scopes.get i).blocks.hasPending name), stage.scopes)
  | counts i => (.pending (stage.scopes.get i).deferrals.count, stage.scopes)
  | finish i text =>
    let given := stage.textAt i text
    let (values, scope) := (stage.scopes.get i).finish
    (.finished given values (substitute given (order values)), stage.scopes.set i scope)

/-- Makes an act that is about a scope. -/
def runAt (registry : Registry) (order : TokenValues → TokenValues) (place : Option Nat) (act : Act)
    (stage : Stage) : Stage :=
  let (reply, scopes) := act.outcome registry order place stage
  { stage with scopes, replies := (place, reply) :: stage.replies }

/-- Makes acts one after the other, each about its scope. -/
def runEach (registry : Registry) (order : TokenValues → TokenValues) :
    List (Option Nat × Act) → Stage → Stage
  | [], stage => stage
  | (place, act) :: rest, stage =>
    runEach registry order rest (act.runAt registry order place stage)

end Act

/-- A step: an act, or steps with a scope entered. -/
inductive Step where
  | act (act : Act)
  | enter (scope : Nat) (steps : List Step)

namespace Step

/-- An act within a nesting of scopes, the outermost first. -/
def nested (nesting : List Nat) (act : Act) : Step :=
  nesting.foldr (fun i step => .enter i [step]) (.act act)

mutual

/-- Runs a step. -/
def run (registry : Registry) (order : TokenValues → TokenValues) : Step → Stage → Stage
  | act a, stage => a.runAt registry order (a.scope? stage.current) stage
  | enter i steps, stage => stage.enter i (runAll registry order steps)

/-- Runs steps one after the other. -/
def runAll (registry : Registry) (order : TokenValues → TokenValues) : List Step → Stage → Stage
  | [], stage => stage
  | step :: rest, stage => runAll registry order rest (run registry order step stage)

end

mutual

/-- The acts of a step with the scopes that they are about, where a scope is current. -/
def acts (current : Option Nat) : Step → List (Option Nat × Act)
  | act a => [(a.scope? current, a)]
  | enter i steps => allActs (some i) steps

/-- The acts of steps, in order. -/
def allActs (current : Option Nat) : List Step → List (Option Nat × Act)
  | [] => []
  | step :: rest => acts current step ++ allActs current rest

end

/-- The acts of steps that are about a scope. -/
def actsAt (k : Nat) (current : Option Nat) (steps : List Step) : List (Option Nat × Act) :=
  (allActs current steps).filter (Act.isAt k)

end Step
end Views
