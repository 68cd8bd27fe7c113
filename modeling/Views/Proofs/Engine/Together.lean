import Views.Engine.Schedule
import Views.Proofs.Engine.Conduct
/-!
# Renders together as traffic

The order in which a schedule lets renders go on is one of those that traffic allows:
`renderTogether_eq_traffic` says that what renders together give, and the engine that they leave,
is what comes of the same calls in some order of events.

Renders that go on together are run by a schedule, a list of numbers that says who goes next;
traffic is a list of events. The first is made of the second here, so that what is proved of all
traffic holds of renders together as well.
-/

namespace Views

open Engine

/-- How far a strand has come. -/
def Strand.halt {α : Type} : Strand α → Halt Engine α
  | ended result => .ended result
  | waiting question next _ => .asking question next

namespace Traffic

/-- Traffic runs event by event, so a run may be cut anywhere. -/
theorem run_append (traffic : Traffic) (events more : List Event) :
    traffic.run (events ++ more) = (traffic.run events).run more :=
  List.foldl_append

/-- How far the calls have come. -/
def progress (traffic : Traffic) : List (Halt Engine (Except ViewError String)) :=
  traffic.visits.map Visit.progress

/-- A call that waits goes on with the answer that it hears. -/
theorem step_hears {traffic : Traffic} {place : Nat} {question : Question}
    {next : question.Answer → Script Engine (Except ViewError String)}
    (hplace : traffic.progress[place]? = some (.asking question next))
    (answers : (question : Question) → question.Answer) :
    (traffic.step (.hears place answers)).engine =
        ((next (answers question)).advance traffic.engine).2 ∧
      (traffic.step (.hears place answers)).progress =
        traffic.progress.set place ((next (answers question)).advance traffic.engine).1 := by
  unfold progress at hplace
  rw [List.getElem?_map, Option.map_eq_some_iff] at hplace
  obtain ⟨visit, hvisit, hprogress⟩ := hplace
  unfold step
  dsimp only
  rw [hvisit]
  unfold Visit.hear
  dsimp only
  rw [hprogress]
  refine ⟨rfl, ?_⟩
  rw [progress, List.map_set]
  rfl

end Traffic

namespace Schedule

/-- Traffic in which the calls have come as far as the strands of a schedule. -/
structure Mirrors (st : Schedule (Except ViewError String)) (traffic : Traffic) : Prop where
  engine : traffic.engine = st.engine
  progress : traffic.progress = st.strands.map Strand.halt

/-- Questions that need no waiting are answered in traffic by events of their own. -/
theorem exists_events_of_runOn (now : Moment) (script : Script Engine (Except ViewError String))
    (engine : Engine) (world : World) {traffic : Traffic} {place : Nat}
    (hengine : traffic.engine = (script.advance engine).2)
    (hplace : traffic.progress[place]? = some (script.advance engine).1) :
    ∃ events, events.filterMap Event.asks? = [] ∧
      (traffic.run events).engine = (runOn now script engine world).2.1 ∧
      (traffic.run events).progress =
        traffic.progress.set place (runOn now script engine world).1.halt := by
  induction script generalizing engine world traffic with
  | done result => exact ⟨[], rfl, hengine, (set_of_getElem? hplace).symm⟩
  | read next ih => exact ih engine engine world hengine hplace
  | write engine' next ih => exact ih engine' world hengine hplace
  | ask question next ih =>
    unfold runOn
    cases hdelay : world.delay? question with
    | some delay => exact ⟨[], rfl, hengine, (set_of_getElem? hplace).symm⟩
    | none =>
      let answers := (world.count question).answer
      obtain ⟨hengine', hprogress'⟩ := Traffic.step_hears hplace answers
      have hlt : place < traffic.progress.length := (List.getElem?_eq_some_iff.mp hplace).1
      rw [hengine] at hengine' hprogress'
      obtain ⟨events, hasks, hrun, hset⟩ := ih (answers question) engine (world.count question)
        hengine' (by rw [hprogress', List.getElem?_set_self hlt]; rfl)
      refine ⟨.hears place answers :: events, hasks, hrun, ?_⟩
      rw [hprogress', List.set_set] at hset
      exact hset

/-- A strand that is started is a call that arrives. -/
theorem Mirrors.start {st : Schedule (Except ViewError String)} {traffic : Traffic}
    (h : st.Mirrors traffic) (name : String) (request : Request) :
    ∃ events, events.filterMap Event.asks? = [(name, request)] ∧
      (st.start (render name request).run).Mirrors (traffic.run events) := by
  let arrived := traffic.step (.arrives name request {})
  have hengine : arrived.engine = ((render name request).run.advance st.engine).2 := by
    rw [← h.engine]
    rfl
  have hprogress : arrived.progress =
      st.strands.map Strand.halt ++ [((render name request).run.advance st.engine).1] := by
    rw [← h.engine, ← h.progress]
    exact List.map_append
  have hplace : arrived.progress[st.strands.length]? =
      some ((render name request).run.advance st.engine).1 := by
    rw [hprogress]
    simp
  obtain ⟨events, hasks, hrun, hset⟩ := exists_events_of_runOn st.now _ st.engine st.world
    hengine hplace
  refine ⟨.arrives name request {} :: events, by simp [Event.asks?, hasks], hrun, ?_⟩
  have hevents : (traffic.run (.arrives name request {} :: events)).progress =
      (arrived.run events).progress := rfl
  rw [hevents, hset, hprogress]
  simp [Schedule.start]

/-- A strand that goes on is a call that hears its answer. -/
theorem Mirrors.resume {st : Schedule (Except ViewError String)} {traffic : Traffic}
    (h : st.Mirrors traffic) (place : Nat) (now : Moment) :
    ∃ events, events.filterMap Event.asks? = [] ∧
      (st.resume place now).Mirrors (traffic.run events) := by
  unfold Schedule.resume
  split
  · rename_i question next wake hstrand
    have hplace : traffic.progress[place]? = some (.asking question next) := by
      rw [h.progress, List.getElem?_map, hstrand]
      rfl
    obtain ⟨hengine, hprogress⟩ := Traffic.step_hears hplace st.world.answer
    have hlt : place < traffic.progress.length := (List.getElem?_eq_some_iff.mp hplace).1
    rw [h.engine] at hengine hprogress
    obtain ⟨events, hasks, hrun, hset⟩ := exists_events_of_runOn now _ st.engine st.world hengine
      (by rw [hprogress, List.getElem?_set_self hlt])
    refine ⟨.hears place st.world.answer :: events, hasks, hrun, ?_⟩
    rw [hprogress, List.set_set, h.progress] at hset
    exact hset.trans List.map_set.symm
  · exact ⟨[], rfl, h.engine, h.progress⟩

/-- Strands that go on one after the other are calls that hear their answers. -/
theorem Mirrors.proceed {st : Schedule (Except ViewError String)} {traffic : Traffic}
    (h : st.Mirrors traffic) (count : Nat) :
    ∃ events, events.filterMap Event.asks? = [] ∧
      (st.proceed count).Mirrors (traffic.run events) := by
  induction count generalizing st traffic with
  | zero => exact ⟨[], rfl, h⟩
  | succ count ih =>
    unfold Schedule.proceed
    split
    · rename_i place now _
      obtain ⟨events, hasks, hresume⟩ := h.resume place now
      obtain ⟨more, hmore, hproceed⟩ := ih hresume
      rw [← Traffic.run_append] at hproceed
      exact ⟨events ++ more, by rw [List.filterMap_append, hasks, hmore]; rfl, hproceed⟩
    · exact ⟨[], rfl, h⟩

/-- Strands that are started one after the other are calls that arrive. -/
theorem Mirrors.starts {st : Schedule (Except ViewError String)} {traffic : Traffic}
    (h : st.Mirrors traffic) (requests : List (String × Request)) :
    ∃ events, events.filterMap Event.asks? = requests ∧
      ((requests.map fun r => (render r.1 r.2).run).foldl Schedule.start st).Mirrors
        (traffic.run events) := by
  induction requests generalizing st traffic with
  | nil => exact ⟨[], rfl, h⟩
  | cons r requests ih =>
    obtain ⟨events, hasks, hstart⟩ := h.start r.1 r.2
    obtain ⟨more, hmore, hstarts⟩ := ih hstart
    rw [← Traffic.run_append] at hstarts
    exact ⟨events ++ more, by rw [List.filterMap_append, hasks, hmore]; rfl, hstarts⟩

/-- The calls that have ended have the results of the strands that have. -/
theorem Mirrors.results {st : Schedule (Except ViewError String)} {traffic : Traffic}
    (h : st.Mirrors traffic) : traffic.visits.filterMap Visit.result? = st.results := by
  have hvisits : traffic.visits.filterMap Visit.result? =
      traffic.progress.filterMap Halt.result? := by
    rw [Traffic.progress, List.filterMap_map]
    rfl
  rw [hvisits, h.progress, List.filterMap_map, Schedule.results]
  congr 1
  funext strand
  cases strand <;> rfl

end Schedule

/-- What renders together give, and the engine that they leave, is what comes of the same calls by
some order of events. -/
theorem renderTogether_eq_traffic (engine : Engine) (world : World)
    (requests : List (String × Request)) :
    ∃ events, events.filterMap Event.asks? = requests ∧
      (Traffic.run { engine } events).engine = (engine.renderTogether world requests).2.1 ∧
      (Traffic.run { engine } events).visits.filterMap Visit.result? =
        (engine.renderTogether world requests).1 := by
  have hnew : Schedule.Mirrors { engine, world } { engine } := ⟨rfl, rfl⟩
  obtain ⟨events, hasks, hstarts⟩ := hnew.starts requests
  obtain ⟨more, hmore, hproceed⟩ := hstarts.proceed (questionLimit * requests.length)
  rw [← Traffic.run_append] at hproceed
  refine ⟨events ++ more, ?_, ?_, ?_⟩
  · rw [List.filterMap_append, hasks, hmore, List.append_nil]
  · rw [hproceed.engine]
    simp [renderTogether]
  · rw [hproceed.results]
    simp [renderTogether]

end Views
