import Views.Engine.Basic
/-!
# Answers on their way

An answer is fixed when the source hands it out, and the render that has asked goes on with it at
some later moment. `Service.step` lets one thing happen: a call arrives and runs up to its first
question, an answer is handed out to a call that waits, a call takes up its answer and runs up to
its next question, or the engine forgets. Between any two steps the sources may change, so what is
handed out is left open.

The times between which an engine forgets are its epochs. Calls and answers bear the epoch in which
they arrived or were handed out.
-/

namespace Views

/-- What a render did: the view and the layout that it selected, if it came to that, and how it
ended. -/
structure Account where
  selection : Option (LoadedTemplate × Option LoadedTemplate) := none
  result : Except ViewError String

/-- A render of a view that accounts for what it selects. -/
def Engine.account (name : String) (request : Request) (arrangement : Arrangement) :
    Script Engine Account := do
  match ← (select name request).run with
  | .error e => pure { result := .error e }
  | .ok (template, layout) =>
    let result ← (compose arrangement template layout request.data).run
    pure { selection := some (template, layout), result }

/-- How far a call has come. -/
inductive Standing where
  /-- It has ended, or it has asked a question. -/
  | halted (progress : Halt Engine Account)
  /-- Its question has an answer, handed out in some epoch, that it has not taken up yet. -/
  | handed (question : Question) (answer : question.Answer) (epoch : Nat)
      (next : question.Answer → Script Engine Account)

/-- A client: a call of `Engine.render` that arrived in some epoch. -/
structure Client where
  name : String
  request : Request
  epoch : Nat
  standing : Standing

/-- A source that was handed out for an identity in some epoch. -/
structure Handout where
  id : TemplateKey
  text : String
  epoch : Nat
  deriving DecidableEq, Repr

/-- The source in an answer, with the identity that was asked for. -/
def Question.source? : (question : Question) → question.Answer → Option (TemplateKey × String)
  | .template id, .ok text => some (id, text)
  | .template _, .error _ => none
  | .partials, _ => none
  | .values _, _ => none

namespace Client

/-- The account of a call that has ended. -/
def account? (client : Client) : Option Account :=
  match client.standing with
  | .halted progress => progress.result?
  | .handed _ _ _ _ => none

/-- Hands an answer out to a call that waits for one. -/
def hand (client : Client) (answers : (question : Question) → question.Answer) (epoch : Nat) :
    Client × Option Handout :=
  match client.standing with
  | .halted (.asking question next) =>
    ({ client with standing := .handed question (answers question) epoch next },
      (question.source? (answers question)).map fun (id, text) => { id, text, epoch })
  | _ => (client, none)

/-- Lets a call that has an answer take it up. -/
def resume (client : Client) (engine : Engine) : Client × Engine :=
  match client.standing with
  | .handed _ answer _ next =>
    let (progress, engine) := (next answer).advance engine
    ({ client with standing := .halted progress }, engine)
  | .halted _ => (client, engine)

end Client

/-- What may happen next. -/
inductive Occurrence where
  | arrives (name : String) (request : Request) (arrangement : Arrangement)
  /-- The call in some place is handed the answer to the question that it has asked. -/
  | hands (place : Nat) (answers : (question : Question) → question.Answer)
  /-- The call in some place takes up the answer that was handed to it. -/
  | resumes (place : Nat)
  | forgets

/-- An engine with the clients that have arrived so far and what was handed out to them. -/
structure Service where
  engine : Engine
  clients : List Client := []
  handouts : List Handout := []
  /-- How many times the engine has forgotten. -/
  epoch : Nat := 0

namespace Service

/-- Lets one thing happen. -/
def step (service : Service) : Occurrence → Service
  | .arrives name request arrangement =>
    let (progress, engine) := (Engine.account name request arrangement).advance service.engine
    let client := { name, request, epoch := service.epoch, standing := .halted progress }
    { service with engine, clients := service.clients ++ [client] }
  | .hands place answers =>
    match service.clients[place]? with
    | none => service
    | some client =>
      let (client, handout?) := client.hand answers service.epoch
      { service with
        clients := service.clients.set place client
        handouts := service.handouts ++ handout?.toList }
  | .resumes place =>
    match service.clients[place]? with
    | none => service
    | some client =>
      let (client, engine) := client.resume service.engine
      { service with engine, clients := service.clients.set place client }
  | .forgets => { service with engine := service.engine.forget, epoch := service.epoch + 1 }

/-- Lets one thing happen after the other. -/
def run (service : Service) (occurrences : List Occurrence) : Service :=
  occurrences.foldl step service

/-- Whether a call may keep the answer to a question beyond its own end: the source of a template
that it may reuse, or of the default layout, which is kept in any case. -/
def mayKeep (service : Service) (client : Client) : Question → Bool
  | .template id =>
    client.request.reuse ||
      service.engine.settings.defaultLayout.any fun name => service.engine.keyOf name = id
  | .partials => false
  | .values _ => false

/-- Whether no call takes up an answer that it may keep in a later epoch than the one in which the
answer was handed out. -/
def isPunctual (service : Service) : Occurrence → Bool
  | .resumes place =>
    match service.clients[place]? with
    | none => true
    | some client => match client.standing with
      | .handed question _ epoch _ => !service.mayKeep client question || epoch == service.epoch
      | .halted _ => true
  | _ => true

/-- Whether that is so all along. -/
def runsPunctually (service : Service) : List Occurrence → Bool
  | [] => true
  | occurrence :: rest =>
    service.isPunctual occurrence && (service.step occurrence).runsPunctually rest

end Service
end Views
