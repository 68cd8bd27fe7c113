import Views.Proofs.Engine.Direct
import Views.Proofs.Engine.Questions
import Views.Proofs.Engine.Uncached
/-!
# Uncached renders are blind to what is kept

A render that may not reuse what was read looks neither at the templates that are kept, nor at the
layouts noted with them, nor at the default layout, nor at the mark that the partials are
registered. So two engines that differ in nothing else (`Engine.Kindred`) ask the same questions
in such a render, give the same result and end with the same registry: `render_oblivious`.

The engines may differ in all of these at once, and a stale entry in one of them need not be one
that any source ever had. What an uncached render reads, it reads again each time: partials, default
layout, view and layout, in this order. It still writes the default layout that it has read, which
is why the two engines are compared with the questions, the result and the registry, and not with
all that they keep (see `uncached_keeps_iff`).
-/

namespace Views

open Engine

variable {ω : Type} {reply : (q : Question) → ω → q.Answer × ω}

/-! ## Selecting without reuse -/

section selecting

variable {e d : Engine} {w : ω}

/-- A layout that is named beside a view is read in both engines. -/
theorem kindred_obtainBeside (id : TemplateKey) (name : String) (h : e.Kindred d) :
    Parallel reply Kindred (obtainBeside id name false) (obtainBeside id name false) e d w := by
  refine .get_bind ?_
  rw [h.settings]
  exact kindred_obtain _ h

/-- The layout of a view is found without a look at the layouts noted in the cache. -/
theorem kindred_layoutFor (template : LoadedTemplate) {request : Request}
    (hfresh : request.reuse = false) (standard : Option LoadedTemplate) (h : e.Kindred d) :
    Parallel reply Kindred (layoutFor template request standard)
      (layoutFor template request standard) e d w := by
  refine .get_bind ?_
  rw [hfresh, if_neg Bool.false_ne_true, if_neg Bool.false_ne_true]
  dsimp only
  cases request.layout.decision template.source standard.isSome with
  | directive name =>
    refine .bind (kindred_obtainBeside _ name h) fun layout e d w h => ?_
    exact .bind (.pure h ()) fun _ e d w h => .pure h _
  | named name => exact .bind (kindred_obtainBeside _ name h) fun layout e d w h => .pure h _
  | default => exact .pure h _
  | none => exact .pure h _

/-- The same view and the same layout are selected. -/
theorem kindred_select (name : String) {request : Request} (hfresh : request.reuse = false)
    (h : e.Kindred d) :
    Parallel reply Kindred (select name request) (select name request) e d w := by
  refine .get_bind ?_
  have hkey : d.keyOf name = e.keyOf name := by
    unfold keyOf
    rw [h.settings]
  rw [hkey, hfresh]
  refine .bind (kindred_refreshPartials h) fun _ e d w h => ?_
  refine .bind (kindred_obtainDefault h) fun standard e d w h => ?_
  refine .bind (kindred_obtain _ h) fun template e d w h => ?_
  exact .bind (kindred_layoutFor template hfresh standard h) fun layout e d w h => .pure h _

end selecting

/-! ## Making the page -/

section making

variable {e d : Engine} {w : ω}

/-- A template makes the same page, with the same tokens and the same tallies. -/
theorem kindred_renderIn (template : LoadedTemplate) (data : Value) (scope : PageScope)
    (h : e.Kindred d) :
    Parallel reply Kindred (renderIn template data scope) (renderIn template data scope) e d w := by
  refine .get_bind ?_
  have hsame : template.render d.registry data (d.around scope) =
      template.render e.registry data (e.around scope) := by
    rw [h.registry, around, h.tokens, h.calls, around]
  unfold around at hsame
  rw [hsame]
  generalize template.render e.registry data _ = rendered
  obtain ⟨result, around⟩ := rendered
  refine .set_bind (s := { e with tokens := around.tokens, calls := around.calls })
    (t := { d with tokens := around.tokens, calls := around.calls }) ?_
  have h' : Kindred { e with tokens := around.tokens, calls := around.calls }
      { d with tokens := around.tokens, calls := around.calls } :=
    ⟨h.settings, h.registry, rfl, rfl⟩
  cases result with
  | ok text => exact .pure h' _
  | error err => exact .throw h' _

/-- The same values are waited for. -/
theorem kindred_awaitValues (scope : PageScope) (h : e.Kindred d) :
    Parallel reply Kindred (awaitValues scope) (awaitValues scope) e d w := by
  unfold awaitValues
  dsimp only
  split
  · exact .pure h _
  · exact .ask_bind fun ends w => .pure h _

/-- A pass makes the same draft and leaves the same scope. -/
theorem kindred_pass (template : LoadedTemplate) (data : Value) (scope : PageScope)
    (h : e.Kindred d) :
    Parallel reply Kindred (pass template data scope) (pass template data scope) e d w := by
  refine .bind (kindred_renderIn template data scope h) fun rendered e d w h => ?_
  exact .bind (kindred_awaitValues _ h) fun awaited e d w h => .pure h _

/-- The same page is composed, of one pass or of two. -/
theorem kindred_compose (arrangement : Arrangement) (template : LoadedTemplate)
    (layout : Option LoadedTemplate) (data : Value) (h : e.Kindred d) :
    Parallel reply Kindred (compose arrangement template layout data)
      (compose arrangement template layout data) e d w := by
  refine .bind (kindred_pass template data {} h) fun body e d w h => ?_
  cases layout with
  | none => exact .pure h _
  | some layout =>
    refine .bind (.bind (kindred_pass layout _ _ h) fun page e d w h => .pure h _) ?_
    exact fun draft e d w h => .pure h _

/-- Engines that differ in what they keep end an uncached render in the same way, and differ in
nothing else afterwards. -/
theorem kindred_render (arrangement : Arrangement) (name : String) {request : Request}
    (hfresh : request.reuse = false) (h : e.Kindred d) :
    Parallel reply Kindred (render name request arrangement) (render name request arrangement)
      e d w := by
  rw [render_eq_compose]
  refine .bind (kindred_select name hfresh h) fun selected e d w h => ?_
  exact kindred_compose arrangement selected.1 selected.2 request.data h

end making

/-- An uncached render does not depend on what the engine keeps: the same questions are asked in
the same order, the result is the same, and so is the registry in the end. -/
theorem render_oblivious (reply : (q : Question) → ω → q.Answer × ω) {e d : Engine}
    (hkindred : e.Kindred d) (name : String) {request : Request} (hfresh : request.reuse = false)
    (arrangement : Arrangement) (w : ω) :
    let script := (render name request arrangement).run
    script.asked reply d w = script.asked reply e w ∧
      (script.run reply d w).1 = (script.run reply e w).1 ∧
      (script.run reply d w).2.1.registry = (script.run reply e w).2.1.registry := by
  intro script
  obtain ⟨hresult, hafter, hworld⟩ : Parallel (Script.recording reply) Kindred
      (render name request arrangement) (render name request arrangement) e d (w, []) :=
    kindred_render arrangement name hfresh hkindred
  rw [Script.run_recording, Script.run_recording] at hresult hafter hworld
  exact ⟨congrArg Prod.snd hworld, hresult, hafter.registry⟩

/-- A template of another time. -/
def staleTemplate : LoadedTemplate :=
  { id := ⟨"page.hbs"⟩, source := "stale", template := .mk none [(none, .text "stale")] }

/-- An engine that keeps it as the view, as the layout noted with the view and as the default
layout, and takes the partials for registered. -/
def staleEngine : Engine :=
  { newEngine (some "main") with
    cache := {
      entries := [(⟨"page.hbs"⟩, { template := staleTemplate, layout := some staleTemplate })]
      hits := 3 }
    defaultLayout := some staleTemplate
    hasPartials := true }

/-- An uncached render asks for everything and shows nothing of what is kept; a cached one shows
that alone. -/
theorem render_stale :
    ((render "page" {}).run.asked (editionReply "first") staleEngine ()).map Question.isForSource =
        [true, true, true] ∧
      ((render "page" {}).run.run (editionReply "first") staleEngine ()).1 = .ok "first" ∧
      ((render "page" { reuse := true }).run.run (editionReply "first") staleEngine ()).1 =
        .ok "stale" := by
  have hkindred : (newEngine (some "main")).Kindred staleEngine := ⟨rfl, rfl, rfl, rfl⟩
  have hfresh : ({} : Request).reuse = false := rfl
  obtain ⟨hasked, hresult, -⟩ :=
    render_oblivious (editionReply "first") hkindred "page" hfresh {} ()
  rw [hasked, hresult]
  exact ⟨by decide +kernel, eq_ok_of_toOption (by decide +kernel),
    eq_ok_of_toOption (by decide +kernel)⟩

end Views
