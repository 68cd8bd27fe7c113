import Views.Source.Basic
/-!
# Templates in memory

A source that is filled and changed at will and counts how often it is asked.
-/

namespace Views

/-- Templates by identity and partials by name, how the source is to behave, and how often each was
asked for. -/
structure MemorySource where
  templates : Assoc String String := []
  partialSet : Partials := []
  /-- Whether there is no set of partials, not even an empty one. -/
  lacksPartials : Bool := false
  /-- Whether every question fails. -/
  isDown : Bool := false
  /-- How many milliseconds an answer takes. -/
  latency : Nat := 0
  templateFetches : Assoc String Nat := []
  partialFetches : Nat := 0
  deriving Repr, Inhabited

namespace MemorySource

/-- Why nothing can be read from a source that is down. -/
def outage : StoreFault := "store unavailable"

/-- Sets the source of a template. -/
def setTemplate (s : MemorySource) (id source : String) : MemorySource :=
  { s with templates := Assoc.put id source s.templates }

/-- Sets the source of a partial. -/
def setPartial (s : MemorySource) (name source : String) : MemorySource :=
  { s with partialSet := Assoc.put name source s.partialSet }

/-- How often a template was asked for. -/
def fetchesOf (s : MemorySource) (id : String) : Nat :=
  (Assoc.find? id s.templateFetches).getD 0

/-- How often templates were asked for. -/
def totalFetches (s : MemorySource) : Nat := s.templateFetches.foldl (fun n p => n + p.2) 0

/-- Counts that a template is asked for. -/
def countTemplate (s : MemorySource) (id : TemplateKey) : MemorySource :=
  { s with templateFetches := Assoc.put id.text (s.fetchesOf id.text + 1) s.templateFetches }

/-- Counts that the partials are asked for. -/
def countPartials (s : MemorySource) : MemorySource :=
  { s with partialFetches := s.partialFetches + 1 }

/-- The source of a template. -/
def template (s : MemorySource) (id : TemplateKey) : Except SourceError String :=
  if s.isDown then .error (.unreadable id.text outage)
  else match Assoc.find? id.text s.templates with
    | some source => .ok source
    | none => .error (.notFound id.text)

/-- The partials. -/
def partials (s : MemorySource) : Except SourceError Partials :=
  if s.isDown then .error (.unreadable "partials" outage)
  else if s.lacksPartials then .error (.notFound "partials")
  else .ok s.partialSet

end MemorySource
end Views
