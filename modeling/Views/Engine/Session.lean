import Views.Engine.Basic
/-!
# One thing after the other

A session is an engine in a world that answers its questions. Each render runs to its end before
anything else happens; between renders something may be registered, what was read may be forgotten,
and the world may change in any way.
-/

namespace Views

/-- What may be done next. -/
inductive Deed (ω : Type) where
  | render (name : String) (request : Request) (arrangement : Arrangement)
  | addHelper (name : String) (helper : Helper)
  | addPartial (name source : String)
  | forget
  /-- Something changes in the world: a source, or whether it can be read. -/
  | change (change : ω → ω)

/-- An engine and the world around it. -/
structure Session (ω : Type) where
  engine : Engine
  world : ω

namespace Session

variable {ω : Type} (reply : (q : Question) → ω → q.Answer × ω)

/-- Does one thing. -/
def step (session : Session ω) : Deed ω → Session ω
  | .render name request arrangement =>
    let (_, engine, world) :=
      (Engine.render name request arrangement).run.run reply session.engine session.world
    { engine, world }
  | .addHelper name helper => { session with engine := session.engine.addHelper name helper }
  | .addPartial name source => match session.engine.addPartial name source with
    | .ok engine => { session with engine }
    | .error _ => session
  | .forget => { session with engine := session.engine.forget }
  | .change change => { session with world := change session.world }

/-- Does one thing after the other. -/
def run (session : Session ω) (deeds : List (Deed ω)) : Session ω :=
  deeds.foldl (step reply) session

end Session
end Views
