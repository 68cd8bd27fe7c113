import Views.Proofs.Engine.Direct
import Views.Proofs.Engine.Kept
/-!
# What is kept does not show

Calls of one engine that go on side by side, with the cache and without, give what each would give
alone on a new engine without the cache (`render_transparent`): reading a source may fail at any
moment and what was read may be forgotten at any moment, but whatever a call then gives is one of
the faults that it met with itself, or the page.

`Source.page` is the page that both give, and `Source.render_ensures` says so of a call among
others; the rest is the conduct of calls.

* **The source does not change**, but any of its answers may be a fault instead, each time it is
  asked; a page that needs no question any more is given in spite of that.
* **The helpers are steady**: what comes of them depends on their arguments alone. A helper that
  counts its calls would tell a render among others from one that is alone.
* **Tokens are apart** over the whole traffic. They need not be the tokens of the render alone,
  whose supply is another one; a page shows none of them.
* **Forgetting** is an event like all others, and may come between any two questions of a call.

What is compared is the result of the call, text or error, and with a fault it must be one that this
call has met with itself.
-/

namespace Views

open Engine

namespace Source

/-- What a call gives if nothing is kept and helpers write their values at once: the selection from
the source, and the page that is written directly from it. -/
def page (source : Source) (start : Engine) (name : String) (request : Request) :
    Except ViewError String :=
  match source.selection start name request with
  | .error err => .error err
  | .ok (template, layout) =>
    directPage (source.extend start.registry) (start.around {}) template layout request.data

/-- Neither a deferred helper nor `block` is called within an expression, and no mark of tokens is
in the body or in the page that is written at once. -/
def Clean (source : Source) (start : Engine) (name : String) (request : Request) : Prop :=
  ∀ template layout, source.selection start name request = .ok (template, layout) →
    (source.extend start.registry).PartialsPrompt ∧
      template.template.isPrompt (source.extend start.registry) ∧
      (∀ l ∈ layout, l.template.isPrompt (source.extend start.registry)) ∧
      Unmarked (source.extend start.registry) (start.around {}) template layout request.data

/-- How a call ends that may have met with some faults: with one of these, or, if its tokens are
apart and its page is clean, with what it gives without any cache. -/
def Ends (source : Source) (start : Engine) : Conduct.Post := fun name request faults r e =>
  (∃ fault ∈ faults, r = .error (.source fault)) ∨
    (e.tokens.DistinctBelow e.tokens.used → source.Clean start name request →
      r = source.page start name request)

variable {source : Source} {start e : Engine} {faults : List SourceError}

/-- The partials of a source leave the helpers alone. -/
theorem extend_helpers (source : Source) (r : Registry) :
    (source.extend r).helpers = r.helpers := by
  unfold extend
  split
  · rw [registerAll_eq]
  · rfl

/-- So helpers that answer steadily still do when the partials are loaded. -/
theorem extend_steady {r : Registry} (h : r.Steady) : (source.extend r).Steady := by
  unfold Registry.Steady
  rw [extend_helpers]
  exact h

/-! ## One call among others -/

/-- Drawing tokens and counting calls leaves what is kept as it is. -/
theorem terms_draws : (source.terms start faults).Draws := by
  intro e tokens calls hsource hused
  exact ⟨fun h => { h with }, id, hsource, hused⟩

/-- These terms permit rendering with the partials of the source, if the helpers are steady. -/
theorem terms_permits (faults : List SourceError) (hsteady : start.registry.Steady)
    (tokens : Nat → Token) :
    (source.terms start faults).Permits (source.extend start.registry) tokens where
  rely := by
    rintro e e' hregistry hsource ⟨-, hextended, hsource', hused⟩
    exact ⟨hextended hregistry, hsource'.trans hsource, hused, .inr (extend_steady hsteady)⟩
  owes _ hsource hsource' hused := terms_draws (hsource'.trans hsource.symm) hused
  allows h := h

/-- A call gives the page, or one of the faults, whatever goes on meanwhile. -/
theorem render_ensures (hsteady : start.registry.Steady) (hkept : source.Kept start e)
    (name : String) (request : Request) (arrangement : Arrangement) :
    (render name request arrangement).Ensures (source.terms start faults)
      (source.Ends start name request faults) e := by
  rw [render_eq_compose]
  refine (select_ensures name request hkept).bind ?_ ?_
  · rintro ⟨template, layout⟩ e' ⟨hagrees, hready⟩
    have hready := hready _ rfl
    have hselection : source.selection start name request = .ok (template, layout) := by
      rcases hagrees with h | ⟨_, _, h⟩
      · exact h.symm
      · cases h
    -- Of a page that is not clean nothing is said but that its render keeps to the terms.
    by_cases hclean : source.Clean start name request
    · obtain ⟨hpartials, htemplate, hlayout, hunmarked⟩ := hclean template layout hselection
      have hcalls : e'.calls = start.calls ∨ (source.extend start.registry).Steady :=
        .inr (extend_steady hsteady)
      have hends := compose_ensures request.data
        (terms_permits faults hsteady e'.tokens.source) hready.extended
        (extend_steady hsteady).verbatim hpartials htemplate hlayout start.tokens hcalls arrangement
      refine hends.mono fun r e h => .inr fun hdistinct _ => ?_
      rw [h.2.2 hdistinct hunmarked, page, hselection]
      rfl
    · refine (Rendering.compose_behaves terms_draws _ _ _ _ e').mono fun r e _ => ?_
      exact .inr fun _ h => absurd h hclean
  · rintro err e' ⟨hagrees, -⟩
    rcases hagrees with hselection | ⟨fault, hfault, he⟩
    · right
      intro _ _
      rw [page, ← hselection]
    · cases he
      exact .inl ⟨fault, hfault, rfl⟩

/-- A source's conduct suits a render: it starts in an engine that keeps the source's answers and
ends in one. -/
theorem conduct_suits (hsteady : start.registry.Steady) :
    (source.conduct start).Suits (source.Kept start) (source.Ends start) where
  keeps hrely := hrely.1
  stable := by
    rintro name request faults r e e' ⟨-, -, hsource, hused⟩ hends
    refine hends.imp_right fun h hdistinct => h ?_
    exact (hdistinct.mono hused).of_source hsource.symm
  render name request arrangement faults {e} hkept :=
    (render_ensures hsteady hkept name request arrangement).of_terms (fun h => h)
      (fun h => hears_of_allows h) fun h => h

/-! ## A call alone -/

/-- The source answers every question, and the jobs of deferred helpers deliver. -/
structure AnsweredBy {ω : Type} (source : Source) (reply : (q : Question) → ω → q.Answer × ω) :
    Prop where
  partials : ∀ w, (reply .partials w).1 = source.partials
  template : ∀ id w, (reply (.template id) w).1 = source.template id
  values : ∀ batch w, Delivers batch (reply (.values batch) w).1

variable {ω : Type} {reply : (q : Question) → ω → q.Answer × ω}

/-- A source that answers as described is heard so, whatever it has answered before. -/
theorem AnsweredBy.hears (h : source.AnsweredBy reply) (question : Question) (w : ω) :
    source.Hears [] question (reply question w).1 := by
  cases question with
  | partials => exact .inl (h.partials w)
  | template id => exact .inl (h.template id w)
  | values batch => exact h.values batch w

/-- A call alone gives the page. -/
theorem AnsweredBy.render (h : source.AnsweredBy reply) (hsteady : start.registry.Steady)
    (hkept : source.Kept start e) (name : String) (request : Request) (arrangement : Arrangement)
    (w : ω) (hclean : source.Clean start name request)
    (hdistinct : e.tokens.DistinctBelow
      ((Engine.render name request arrangement).run.run reply e w).2.1.tokens.used) :
    ((Engine.render name request arrangement).run.run reply e w).1 =
      source.page start name request := by
  have hrender : (Engine.render name request arrangement).Ensures (source.terms start [])
      (source.Ends start name request []) e := render_ensures hsteady hkept name request arrangement
  have howes := hrender.run_owes reply h.hears (source.conduct start).refl w
  have hsource := (Conduct.rely_of_writes howes).2.2.1
  rcases hrender.run h.hears (source.conduct start).refl w with ⟨fault, hfault, -⟩ | hends
  · cases hfault
  · exact hends (hdistinct.of_source hsource) hclean

/-- What a new engine selects alone says whether a call is clean. -/
theorem AnsweredBy.clean (h : source.AnsweredBy reply) (hsteady : start.registry.Steady)
    (hkept : source.Kept start start)
    {name : String} {request : Request} {w : ω}
    (hprompt : SelectsPrompt reply start w name request)
    (hbody : ∀ body layout scope,
      ((draftBody name request).run.run reply start.direct w).1 = .ok (body, layout, scope) →
        Token.isMarked body.raw = false)
    (hpage : ∀ text, ((Engine.render name request).run.run reply start.direct w).1 = .ok text →
      Token.isMarked text = false) :
    source.Clean start name request := by
  intro template layout hselection
  have hselected : (Engine.select name request).Ensures (source.terms start []) _ start :=
    select_ensures name request hkept
  have hends := hselected.run h.hears (source.conduct start).refl w
  rcases hselect : (Engine.select name request).run.run reply start w with ⟨r, e, w'⟩
  rw [hselect] at hends
  obtain ⟨hagrees, hready⟩ := hends
  have hr : r = .ok (template, layout) := by
    rcases hagrees with hr | ⟨fault, hfault, -⟩
    · exact hr.trans hselection
    · cases hfault
  subst hr
  have hregistry : e.registry = source.extend start.registry := (hready _ rfl).extended
  obtain ⟨hpartials, htemplate, hlayout⟩ := hprompt.of_select hselect
  have hunmarked := unmarked_of_direct hselect hsteady.verbatim hprompt hbody hpage
  rw [hregistry] at hpartials htemplate hlayout hunmarked
  exact ⟨hpartials, htemplate, hlayout, hunmarked⟩

end Source

/-! ## All calls -/

/-- The request without the cache. -/
def Visit.uncached (visit : Visit) : Request := { visit.request with reuse := false }

/-- Any number of calls arrive at an engine that was built, with the cache and without; they go on
in any order, their questions may meet with faults at any moment, and what was read may be forgotten
at any moment. Each call that has ended has met with the fault that it gives, or it gives what the
call without the cache gives alone on a new engine. -/
theorem render_transparent {settings : Settings} {sourceCheck : Except SetupError Unit}
    {registry : Registry} {helpers : List (String × Helper)} {partials : List (String × String)}
    {built : Engine} (hbuild : build settings sourceCheck registry helpers partials = .ok built)
    (hsteady : built.registry.Steady) {source : Source} (tokens : TokenSupply)
    {events : List Event} (hevents : ∀ event ∈ events, event.Allowed source.MayAnswer)
    (hdistinct : tokens.DistinctBelow
      (Traffic.run { engine := { built with tokens } } events).engine.tokens.used)
    {visit : Visit}
    (hvisit : visit ∈ (Traffic.run { engine := { built with tokens } } events).visits)
    {result : Except ViewError String} (hended : visit.result? = some result)
    {ω : Type} {reply : (q : Question) → ω → q.Answer × ω} (hreply : source.AnsweredBy reply)
    {new : Engine} (fresh : TokenSupply) (hnew : new = { built with tokens := fresh })
    (arrangement : Arrangement) (w : ω)
    (hfresh : fresh.DistinctBelow
      ((render visit.name visit.uncached arrangement).run.run reply new w).2.1.tokens.used)
    (hprompt : SelectsPrompt reply new w visit.name visit.uncached)
    (hbody : ∀ body layout scope,
      ((draftBody visit.name visit.uncached).run.run reply new.direct w).1 =
        .ok (body, layout, scope) → Token.isMarked body.raw = false)
    (hpage : ∀ text, ((render visit.name visit.uncached).run.run reply new.direct w).1 = .ok text →
      Token.isMarked text = false) :
    (∃ fault ∈ visit.faults, result = .error (.source fault)) ∨
      result = ((render visit.name visit.uncached arrangement).run.run reply new w).1 := by
  obtain ⟨hcache, hlayout, hpartials⟩ := build_new hbuild
  have hsteady : new.registry.Steady := by
    rw [hnew]
    exact hsteady
  have hkept : ∀ supply, source.Kept new { built with tokens := supply } := by
    intro supply
    rw [hnew]
    exact .of_new rfl rfl hcache hlayout hpartials
  have hnewKept : source.Kept new new := by
    have h := hkept fresh
    rwa [← hnew] at h
  have hclean := hreply.clean hsteady hnewKept hprompt hbody hpage
  -- What the call gives among the others, and what it gives alone.
  have hsuits : (source.conduct new).Suits (source.Kept new) (source.Ends new) :=
    Source.conduct_suits hsteady
  have hstart : Traffic.Sound { engine := { built with tokens } } (source.conduct new)
      (source.Kept new) (source.Ends new) := ⟨hkept tokens, fun _ hmem => by cases hmem⟩
  obtain ⟨hrely, hsound⟩ := hstart.run hsuits hevents
  have hends := hsound.visits visit hvisit visit.faults (List.Subset.refl _)
  have hprogress : visit.progress = .ended result := by
    unfold Visit.result? Halt.result? at hended
    split at hended
    · rename_i hprogress
      cases hended
      exact hprogress
    · cases hended
  rw [hprogress] at hends
  refine Or.imp_right (fun hends => ?_) hends
  have hsource : (Traffic.run { engine := { built with tokens } } events).engine.tokens.source =
      tokens.source := hrely.2.2.1
  rw [hends (hdistinct.of_source hsource) hclean]
  refine (hreply.render hsteady hnewKept visit.name visit.uncached arrangement w hclean ?_).symm
  rw [hnew]
  rw [hnew] at hfresh
  exact hfresh

/-- The source of the sample answers. -/
def sampleSource : Source where
  template id := (sampleReply (.template id) ()).1
  partials := (sampleReply .partials ()).1

/-- A deferred helper of which the value is always the same, and one that puts its body in
brackets. -/
def steadyHelpers : List (String × Helper) :=
  [("shout", .deferred "shout" fun _ _ => ⟨.value "HEY", 0⟩), ("frame", .between "(" ")")]

/-- An engine with them and a default layout. -/
def steadyEngine : Engine where
  settings := { defaultLayout := some "main" }
  registry := steadyHelpers.foldl (fun r h => r.addHelper h.1 h.2)
    Registry.standard.withContentBlocks

/-- The helpers of the sample engine answer steadily. -/
theorem steady_steadyEngine : steadyEngine.registry.Steady := by
  have hblocks : Registry.standard.withContentBlocks.Steady := by
    refine .addHelper (.addHelper Registry.steady_standard ?_ _) ?_ _
    · exact trivial
    · exact trivial
  refine .addHelper (.addHelper hblocks ?_ _) ?_ _
  · exact fun _ _ _ => rfl
  · exact Helper.verbatim_between _ _

/-- What a call hears while the source cannot be read. -/
def faultyAnswers : (question : Question) → question.Answer
  | .partials => .error (.unreadable "partials" "timeout")
  | .template id => .error (.unreadable id.text "timeout")
  | .values batch => arrivals batch

/-- A call with the cache meets with a fault. Another one, and a call without the cache, go on side
by side, and what was read is forgotten in between. -/
def sampleEvents : List Event :=
  let answers question := (sampleReply question ()).1
  [.arrives "page" { reuse := true } {}, .arrives "page" { reuse := true } {},
    .hears 0 faultyAnswers, .hears 1 answers, .arrives "page" {} {}, .hears 2 answers, .forgets,
    .hears 1 answers, .hears 1 answers, .forgets, .hears 2 answers, .hears 2 faultyAnswers,
    .hears 1 answers, .hears 1 answers]

/-- Every answer in the sample traffic is one that the sample source may give. -/
theorem allowed_sampleEvents : ∀ event ∈ sampleEvents, event.Allowed sampleSource.MayAnswer := by
  have hfaulty : ∀ question, sampleSource.MayAnswer question (faultyAnswers question) := by
    rintro (_ | id | batch)
    · exact .inr ⟨_, _, rfl⟩
    · exact .inr ⟨_, _, rfl⟩
    · exact delivers_arrivals batch
  have hanswers : ∀ question, sampleSource.MayAnswer question (sampleReply question ()).1 := by
    rintro (_ | id | batch)
    · exact .inl rfl
    · exact .inl rfl
    · exact delivers_arrivals batch
  simp [sampleEvents, Event.Allowed, hfaulty, hanswers]

/-- What the direct engine makes of the page. -/
theorem steadyEngine_direct :
    (∀ body layout scope, ((draftBody "page" {}).run.run sampleReply steadyEngine.direct ()).1 =
      .ok (body, layout, scope) → Token.isMarked body.raw = false) ∧
    ∀ text, ((render "page" {}).run.run sampleReply steadyEngine.direct ()).1 = .ok text →
      Token.isMarked text = false := by
  constructor
  · intro body layout scope hbody
    have hraw : ((draftBody "page" {}).run.run sampleReply steadyEngine.direct ()).1.toOption.map
        (fun d => d.1.raw) = some "[HEY]" := by decide +kernel
    exact unmarked_draft hraw (by decide +kernel) body layout scope hbody
  · intro text htext
    have hpage : ((render "page" {}).run.run sampleReply steadyEngine.direct ()).1.toOption =
        some "<b><HEY></b>(HEY)" := by decide +kernel
    rw [htext] at hpage
    rw [Option.some.inj hpage]
    decide +kernel

set_option maxRecDepth 20000 in
/-- The second call, which reads with the cache what is forgotten under its hands. -/
theorem render_second_of_three :
    ((Traffic.run { engine := steadyEngine } sampleEvents).visits[1]?).bind Visit.result? =
      some ((render "page" {}).run.run sampleReply steadyEngine ()).1 := by
  have hbuild : build { defaultLayout := some "main" } (.ok ()) .standard steadyHelpers [] =
    .ok steadyEngine := rfl
  have hreply : sampleSource.AnsweredBy sampleReply :=
    ⟨fun _ => rfl, fun _ _ => rfl, fun batch _ => delivers_arrivals batch⟩
  have hended : (((Traffic.run { engine := steadyEngine } sampleEvents).visits[1]?).bind
      Visit.result?).isSome := by decide +kernel
  obtain ⟨result, hresult⟩ := Option.isSome_iff_exists.mp hended
  obtain ⟨visit, hvisit, hvisited⟩ := Option.bind_eq_some_iff.mp hresult
  -- The call has met with no fault, and it asked for the page.
  have hunharmed : ((Traffic.run { engine := steadyEngine } sampleEvents).visits[1]?).map
      (fun visit => visit.faults.isEmpty) = some true := by decide +kernel
  rw [hvisit] at hunharmed
  have hfaults : visit.faults = [] := List.isEmpty_iff.mp (Option.some.inj hunharmed)
  have hasks : ((Traffic.run { engine := steadyEngine } sampleEvents).visits.map Visit.asks)[1]? =
      some visit.asks := by
    rw [List.getElem?_map, hvisit]
    rfl
  rw [Traffic.asks_run] at hasks
  obtain ⟨hname, hrequest⟩ := Prod.mk.inj (Option.some.inj hasks)
  have huncached : visit.uncached = {} := by rw [Visit.uncached, ← hrequest]
  have htransparent := render_transparent hbuild steady_steadyEngine {} allowed_sampleEvents
    (TokenSupply.distinctBelow_standard (by decide +kernel)) (List.mem_of_getElem? hvisit) hvisited
    hreply {} (rfl : steadyEngine = _) {} ()
  rw [← hname, huncached, hfaults] at htransparent
  obtain ⟨hbody, hpage⟩ := steadyEngine_direct
  rcases htransparent (TokenSupply.distinctBelow_standard (by decide +kernel)) (by decide +kernel)
    hbody hpage with ⟨fault, hfault, -⟩ | htransparent
  · cases hfault
  · rw [hresult, htransparent]

end Views
