import Views.Engine.Traffic
import Views.Proofs.Engine.Scripts
/-!
# Calls among other calls

A `Conduct` is what every call may count on while it waits, whatever else goes on, and what it
keeps to itself in return. If each call, taken alone, ends as it should under such a conduct
(`Conduct.Suits`), then so does each call in any traffic: `Traffic.Sound` is the invariant,
`Traffic.Sound.step` says that one event preserves it and `Traffic.Sound.run` that a whole run does.

This is the induction that transparency, the notes and the other results about traffic share. They
differ in the invariant and in what is to hold at the end; each of them proves `Conduct.Suits` for
its own conduct, which is about one call only, and takes the rest from here. A call is advanced from
question to question, and between two questions all others may do what the conduct allows them, so
what is known of a call that waits has to be stable under the conduct (`Conduct.Suits.stable`).
-/

namespace Views

/-- What may happen to an engine while a call waits, and which answers questions may get. The
relation is reflexive and transitive, so that it speaks of any number of writes of other calls. -/
structure Conduct where
  rely : Engine → Engine → Prop
  allows : (question : Question) → question.Answer → Prop
  refl : ∀ e, rely e e
  trans : ∀ {e e' e''}, rely e e' → rely e' e'' → rely e e''
  forget : ∀ e, rely e e.forget

namespace Conduct

/-- The terms of a call that hears no faults but some given ones. -/
def terms (conduct : Conduct) (faults : List SourceError) : Terms Engine where
  rely := conduct.rely
  allows question answer :=
    conduct.allows question answer ∧ ∀ fault ∈ question.fault? answer, fault ∈ faults
  owes := conduct.rely

/-- A run of single writes is relied upon like one write, since the relation is transitive. -/
theorem rely_of_writes {conduct : Conduct} {e e' : Engine}
    (h : Relation.ReflTransGen conduct.rely e e') : conduct.rely e e' := by
  induction h with
  | refl => exact conduct.refl e
  | tail _ hstep ih => exact conduct.trans ih hstep

/-- How a call ends: what was asked for, the faults it may have heard, the result, and the engine
at the end or at any later moment. -/
abbrev Post := String → Request → List SourceError → Except ViewError String → Engine → Prop

/-- Each call, taken alone, starts from an invariant and ends as it should, and that stays so. These
are all the obligations of a result about traffic; they say nothing of other calls but by the
conduct. -/
structure Suits (conduct : Conduct) (inv : Engine → Prop) (post : Post) : Prop where
  keeps : ∀ {e e'}, conduct.rely e e' → inv e → inv e'
  stable : ∀ {name request faults r e e'}, conduct.rely e e' → post name request faults r e →
    post name request faults r e'
  render : ∀ name request arrangement faults {e}, inv e →
    (Engine.render name request arrangement).Ensures (conduct.terms faults)
      (post name request faults) e

end Conduct

/-- What holds of a call at any moment: it will end as it should, or has. -/
def Visit.Sound (visit : Visit) (conduct : Conduct) (post : Conduct.Post) (e : Engine) : Prop :=
  ∀ faults, visit.faults ⊆ faults →
    Script.Halted (conduct.terms faults) (post visit.name visit.request faults) visit.progress e

/-- What holds at any moment of a traffic. -/
structure Traffic.Sound (traffic : Traffic) (conduct : Conduct) (inv : Engine → Prop)
    (post : Conduct.Post) : Prop where
  inv : inv traffic.engine
  visits : ∀ visit ∈ traffic.visits, visit.Sound conduct post traffic.engine

/-- The answers that an event brings are allowed. -/
def Event.Allowed (allows : (question : Question) → question.Answer → Prop) : Event → Prop
  | arrives _ _ _ => True
  | hears _ answers => ∀ question, allows question (answers question)
  | forgets => True

/-! ## Who is there -/

/-- What a call asks for. -/
def Visit.asks (visit : Visit) : String × Request := (visit.name, visit.request)

/-- What the call that an event brings asks for. -/
def Event.asks? : Event → Option (String × Request)
  | arrives name request _ => some (name, request)
  | hears _ _ => none
  | forgets => none

/-- Putting in a place what stands there changes nothing. -/
theorem set_of_getElem? {α : Type} {l : List α} {place : Nat} {a : α}
    (h : l[place]? = some a) : l.set place a = l := by
  obtain ⟨hplace, hget⟩ := List.getElem?_eq_some_iff.mp h
  rw [← hget, List.set_getElem_self]

/-- What a visit asks for is fixed on arrival and outlives the answers it hears. -/
theorem Visit.asks_hear (visit : Visit) (answers : (question : Question) → question.Answer)
    (e : Engine) : (visit.hear answers e).1.asks = visit.asks := by
  unfold Visit.hear
  split <;> rfl

/-- An event adds at most one visit, at the end, and leaves the calls of the others. -/
theorem Traffic.asks_step (traffic : Traffic) (event : Event) :
    (traffic.step event).visits.map Visit.asks =
      traffic.visits.map Visit.asks ++ event.asks?.toList := by
  cases event with
  | arrives name request arrangement => simp [step, Event.asks?, Visit.asks]
  | hears place answers =>
    unfold step
    dsimp only
    cases hvisit : traffic.visits[place]? with
    | none => simp [Event.asks?]
    | some visit =>
      have hasks : (traffic.visits.map Visit.asks)[place]? = some visit.asks := by
        rw [List.getElem?_map, hvisit]
        rfl
      simp only [List.map_set, Visit.asks_hear, Event.asks?, Option.toList_none, List.append_nil]
      exact set_of_getElem? hasks
  | forgets => simp [step, Event.asks?]

/-- The calls are those that have arrived, in their order. -/
theorem Traffic.asks_run (traffic : Traffic) (events : List Event) :
    (traffic.run events).visits.map Visit.asks =
      traffic.visits.map Visit.asks ++ events.filterMap Event.asks? := by
  induction events generalizing traffic with
  | nil => simp [run]
  | cons event events ih =>
    have hrun : traffic.run (event :: events) = (traffic.step event).run events := rfl
    rw [hrun, ih, asks_step, List.append_assoc]
    cases hasks : event.asks? <;> simp [hasks]

section sound

variable {conduct : Conduct} {inv : Engine → Prop} {post : Conduct.Post}
  (hsuits : conduct.Suits inv post)

include hsuits

/-- A call is not disturbed by what it may count on. -/
theorem Visit.Sound.meanwhile {visit : Visit} {e e' : Engine} (h : visit.Sound conduct post e)
    (hrely : conduct.rely e e') : visit.Sound conduct post e' := by
  intro faults hfaults
  have hhalted := h faults hfaults
  cases hprogress : visit.progress with
  | ended r =>
    rw [hprogress] at hhalted
    exact hsuits.stable hrely hhalted
  | asking question next =>
    rw [hprogress] at hhalted
    exact fun answer hanswer e'' he'' => hhalted answer hanswer e'' (conduct.trans hrely he'')

omit hsuits in
/-- A call that hears an answer changes the engine only in ways that others may count on, and goes
on as it should. -/
theorem Visit.Sound.hear {visit : Visit} {e : Engine} (h : visit.Sound conduct post e)
    {answers : (question : Question) → question.Answer}
    (hanswers : ∀ question, conduct.allows question (answers question)) :
    conduct.rely e (visit.hear answers e).2 ∧
      (visit.hear answers e).1.Sound conduct post (visit.hear answers e).2 := by
  unfold Visit.hear
  cases hprogress : visit.progress with
  | ended r => exact ⟨conduct.refl e, h⟩
  | asking question next =>
    -- Whatever faults the call may still hear, it goes on from here under the terms that it has.
    have hnext : ∀ faults, visit.faults ++ (question.fault? (answers question)).toList ⊆ faults →
        (next (answers question)).Ensures (conduct.terms faults)
          (post visit.name visit.request faults) e := by
      intro faults hfaults
      have hhalted := h faults fun fault hmem => hfaults (List.mem_append_left _ hmem)
      rw [hprogress] at hhalted
      refine hhalted (answers question) ⟨hanswers question, fun fault hfault => ?_⟩ e
        (conduct.refl e)
      exact hfaults (List.mem_append_right _ (Option.mem_toList.mpr hfault))
    refine ⟨?_, fun faults hfaults => ?_⟩
    · exact Conduct.rely_of_writes (hnext _ (List.Subset.refl _)).advance.1
    · exact (hnext faults hfaults).advance.2

namespace Traffic.Sound

/-- A call that arrives does so too. -/
theorem arrives {e : Engine} (hinv : inv e) (name : String) (request : Request)
    (arrangement : Arrangement) :
    let started := (Engine.render name request arrangement).run.advance e
    conduct.rely e started.2 ∧
      ({ name, request, arrangement, progress := started.1 } : Visit).Sound conduct post
        started.2 := by
  have hrender := fun faults => (hsuits.render name request arrangement faults hinv).advance
  exact ⟨Conduct.rely_of_writes (hrender []).1, fun faults _ => (hrender faults).2⟩

/-- Whatever happens next, all calls are still on their way to end as they should. -/
theorem step {traffic : Traffic} (h : traffic.Sound conduct inv post) {event : Event}
    (hevent : event.Allowed conduct.allows) :
    conduct.rely traffic.engine (traffic.step event).engine ∧
      (traffic.step event).Sound conduct inv post := by
  cases event with
  | arrives name request arrangement =>
    obtain ⟨hrely, hvisit⟩ := arrives hsuits h.inv name request arrangement
    refine ⟨hrely, hsuits.keeps hrely h.inv, fun visit hmem => ?_⟩
    rcases List.mem_append.mp hmem with hmem | hmem
    · exact (h.visits visit hmem).meanwhile hsuits hrely
    · rw [List.mem_singleton.mp hmem]
      exact hvisit
  | hears place answers =>
    unfold Traffic.step
    dsimp only
    cases hvisit : traffic.visits[place]? with
    | none => exact ⟨conduct.refl _, h⟩
    | some visit =>
      obtain ⟨hrely, hheard⟩ := (h.visits visit (List.mem_of_getElem? hvisit)).hear hevent
      refine ⟨hrely, hsuits.keeps hrely h.inv, fun other hmem => ?_⟩
      rcases List.mem_or_eq_of_mem_set hmem with hmem | rfl
      · exact (h.visits other hmem).meanwhile hsuits hrely
      · exact hheard
  | forgets =>
    have hrely := conduct.forget traffic.engine
    exact ⟨hrely, hsuits.keeps hrely h.inv, fun visit hmem =>
      (h.visits visit hmem).meanwhile hsuits hrely⟩

/-- Whatever happens, in whatever order, all calls that have ended have ended as they should. -/
theorem run {traffic : Traffic} (h : traffic.Sound conduct inv post) {events : List Event}
    (hevents : ∀ event ∈ events, event.Allowed conduct.allows) :
    conduct.rely traffic.engine (traffic.run events).engine ∧
      (traffic.run events).Sound conduct inv post := by
  induction events generalizing traffic with
  | nil => exact ⟨conduct.refl _, h⟩
  | cons event events ih =>
    obtain ⟨hevent, hevents⟩ := List.forall_mem_cons.mp hevents
    obtain ⟨hrely, hstep⟩ := h.step hsuits hevent
    obtain ⟨hrely', hrun⟩ := ih hstep hevents
    exact ⟨conduct.trans hrely hrely', hrun⟩

end Traffic.Sound

end sound

end Views
