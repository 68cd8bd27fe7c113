import Views.Proofs.Engine.Questions
import Views.Proofs.Engine.Supplies
import Views.Proofs.Engine.Transparency
/-!
# Cached renders are stable

Short of forgetting, an engine goes on to supply what a cached render has selected, whatever is done
(`Session.run_advances`), so the same call asks nothing of the source any more. If all that happens
is more cached renders, the default layout and the registry stay as well (`Session.run_reuses`), and
the page is the same: `render_again`.

* **No question**: this holds whatever is done in between, uncached renders, partials registered by
  hand and failures included; only forgetting takes away what a cached render needs.
* **The same text** takes more. An uncached render may register other partials and keep another
  default layout, and a partial that is registered by hand is found by every later render; so only
  cached renders are let in between (`Deed.reuses`).
* What comes of helpers must depend on their arguments alone, and tokens must not show: the second
  render gives out other tokens than the first, and both are compared with the page that the direct
  engine writes.
-/

namespace Views

open Engine

/-! ## Sessions -/

section parts

variable {e : Engine}

/-- Rendering body and layout moves the engine on, in its supply of tokens. -/
theorem compose_advances (arrangement : Arrangement) (template : LoadedTemplate)
    (layout : Option LoadedTemplate) (data : Value) (e : Engine) :
    (compose arrangement template layout data).Ensures .still (fun _ e' => e.Advances e') e := by
  refine Rendering.Behaves.frame Advances.refl .trans ?_ e
  refine Rendering.compose_behaves (fun hsource hused => ?_) arrangement template layout data
  exact ⟨id, id, hsource, hused⟩

/-- So does a whole render, however it ends. -/
theorem render_advances (name : String) (request : Request) (arrangement : Arrangement)
    (e : Engine) :
    (render name request arrangement).Ensures .still (fun _ e' => e.Advances e') e := by
  rw [render_eq_compose]
  refine Rendering.Behaves.frame Advances.refl .trans (.bind ?_ fun selected => ?_) e
  · refine Rendering.select_behaves ⟨?_, fun _ => ?_, fun _ => ?_⟩ ?_ name
    · exact ⟨id, id, rfl, Nat.le_refl _⟩
    · exact ⟨id, id, rfl, Nat.le_refl _⟩
    · exact ⟨fun _ => rfl, id, rfl, Nat.le_refl _⟩
    · exact ⟨id, fun _ => rfl, rfl, Nat.le_refl _⟩
  · refine Rendering.compose_behaves (fun hsource hused => ?_) _ _ _ _
    exact ⟨id, id, hsource, hused⟩

end parts

/-- Whether what was read is forgotten. -/
def Deed.forgets {ω : Type} : Deed ω → Bool
  | .forget => true
  | _ => false

/-- Whether nothing is done to the engine but a render that may reuse what was read. The source may
change at the same time, or fail. -/
def Deed.reuses {ω : Type} : Deed ω → Bool
  | .render _ request _ => request.reuse
  | .change _ => true
  | _ => false

/-- A deed that reuses what is kept forgets none of it. -/
theorem Deed.forgets_of_reuses {ω : Type} {deed : Deed ω} (h : deed.reuses = true) :
    deed.forgets = false := by
  cases deed with
  | forget => cases h
  | render name request arrangement => rfl
  | addHelper name helper => rfl
  | addPartial name source => rfl
  | change change => rfl

section sessions

variable {ω : Type} (reply : (q : Question) → ω → q.Answer × ω) {session : Session ω}

/-- Short of forgetting, what is kept stays. -/
theorem Session.step_advances (horderly : session.engine.Orderly) {deed : Deed ω}
    (hdeed : deed.forgets = false) :
    session.engine.Grows (session.step reply deed).engine ∧
      session.engine.Advances (session.step reply deed).engine := by
  cases deed with
  | render name request arrangement =>
    obtain ⟨-, hgrows⟩ := (render_orderly horderly name request arrangement).alone reply
      session.world
    exact ⟨hgrows, (render_advances name request arrangement _).alone reply session.world⟩
  | addHelper name helper => exact ⟨⟨rfl, id⟩, ⟨id, id, rfl, Nat.le_refl _⟩⟩
  | addPartial name source =>
    unfold Session.step addPartial
    dsimp only
    cases session.engine.registry.addPartial name source with
    | error err => exact ⟨.refl _, .refl _⟩
    | ok registry => exact ⟨⟨rfl, id⟩, ⟨id, id, rfl, Nat.le_refl _⟩⟩
  | forget => cases hdeed
  | change change => exact ⟨.refl _, .refl _⟩

/-- Through a session that does not forget, an orderly engine only grows. -/
theorem Session.run_advances (horderly : session.engine.Orderly) {deeds : List (Deed ω)}
    (hdeeds : ∀ deed ∈ deeds, deed.forgets = false) :
    session.engine.Grows (session.run reply deeds).engine ∧
      session.engine.Advances (session.run reply deeds).engine := by
  induction deeds generalizing session with
  | nil => exact ⟨.refl _, .refl _⟩
  | cons deed deeds ih =>
    obtain ⟨hdeed, hrest⟩ := List.forall_mem_cons.mp hdeeds
    obtain ⟨hgrows, hadvances⟩ := step_advances reply horderly hdeed
    obtain ⟨hgrows', hadvances'⟩ := ih (step_orderly horderly deed).1 hrest
    exact ⟨hgrows.trans hgrows', hadvances.trans hadvances'⟩

/-- Whatever is done, tokens are drawn from the same supply. -/
theorem Session.run_source (session : Session ω) (deeds : List (Deed ω)) :
    (session.run reply deeds).engine.tokens.source = session.engine.tokens.source := by
  have hstep : ∀ (session : Session ω) (deed : Deed ω),
      (session.step reply deed).engine.tokens.source = session.engine.tokens.source := by
    intro session deed
    cases deed with
    | render name request arrangement =>
      exact ((render_advances name request arrangement _).alone reply session.world).source
    | addPartial name source =>
      unfold Session.step addPartial
      dsimp only
      cases session.engine.registry.addPartial name source with
      | error err => rfl
      | ok registry => rfl
    | addHelper name helper => rfl
    | forget => rfl
    | change change => rfl
  induction deeds generalizing session with
  | nil => rfl
  | cons deed deeds ih => exact (ih (session.step reply deed)).trans (hstep session deed)

/-- Once what every render reads is kept, a cached render keeps the default layout. -/
theorem defaultLayout_render {e : Engine} (horderly : e.Orderly) (hstocked : e.Stocked)
    (name : String) {request : Request} (hreuse : request.reuse = true) (arrangement : Arrangement)
    (w : ω) : ((render name request arrangement).run.run reply e w).2.1.defaultLayout =
      e.defaultLayout := by
  have hloaded : (true && e.hasPartials) = true := hstocked.partials
  have hselect : ((select name request).run.run reply e w).2.1.defaultLayout =
      e.defaultLayout := by
    rw [run_select, hreuse, Rendering.run_bind, run_refreshPartials_of_loaded reply e w hloaded]
    dsimp only [selectLoaded]
    rw [hreuse, Rendering.run_bind, run_obtainDefault_of_stocked reply w horderly hstocked]
    refine ((Rendering.Behaves.flags (.bind ?_ fun template => .bind ?_ fun layout => .pure _)
      e).alone reply w).2
    · refine Rendering.obtain_behaves (fun _ => ?_) _
      exact ⟨rfl, rfl⟩
    · refine Rendering.layoutFor_behaves (fun _ => ?_) _ hreuse _
      exact ⟨rfl, rfl⟩
  rw [render_eq_compose, Rendering.run_bind]
  generalize (select name request).run.run reply e w = out at hselect
  obtain ⟨_ | ⟨template, layout⟩, e', w'⟩ := out
  · exact hselect
  · exact ((compose_same arrangement template layout _ e').alone reply w').defaultLayout.trans
      hselect

/-- Once what every render reads is kept, a cached render leaves the registry and the default layout
as they are. -/
theorem Session.step_reuses (horderly : session.engine.Orderly) (hstocked : session.engine.Stocked)
    {deed : Deed ω} (hdeed : deed.reuses = true) :
    (session.step reply deed).engine.registry = session.engine.registry ∧
      (session.step reply deed).engine.defaultLayout = session.engine.defaultLayout := by
  cases deed with
  | addHelper name helper => cases hdeed
  | addPartial name source => cases hdeed
  | forget => cases hdeed
  | change change => exact ⟨rfl, rfl⟩
  | render name request arrangement =>
    have hreuse : request.reuse = true := hdeed
    have hloaded : (request.reuse && session.engine.hasPartials) = true := by
      rw [hreuse]
      exact hstocked.partials
    refine ⟨?_, defaultLayout_render reply horderly hstocked name hreuse arrangement _⟩
    exact (registry_render reply _ _ name request arrangement).trans
      (registry_select_of_loaded reply _ _ hloaded name)

/-- Through a session that reuses what is kept, a stocked engine keeps its registry and its default
layout. -/
theorem Session.run_reuses (horderly : session.engine.Orderly) (hstocked : session.engine.Stocked)
    {deeds : List (Deed ω)} (hdeeds : ∀ deed ∈ deeds, deed.reuses = true) :
    (session.run reply deeds).engine.registry = session.engine.registry ∧
      (session.run reply deeds).engine.defaultLayout = session.engine.defaultLayout := by
  induction deeds generalizing session with
  | nil => exact ⟨rfl, rfl⟩
  | cons deed deeds ih =>
    obtain ⟨hdeed, hrest⟩ := List.forall_mem_cons.mp hdeeds
    obtain ⟨horderly', hsettings⟩ : (session.step reply deed).engine.Orderly ∧ _ :=
      step_orderly horderly deed
    obtain ⟨-, hadvances⟩ := step_advances reply horderly (Deed.forgets_of_reuses hdeed)
    obtain ⟨hregistry, hdefault⟩ := step_reuses reply horderly hstocked hdeed
    obtain ⟨hregistry', hdefault'⟩ := ih horderly' (hstocked.advances hsettings hadvances) hrest
    exact ⟨hregistry'.trans hregistry, hdefault'.trans hdefault⟩

end sessions

/-! ## The same call once more -/

section again

variable {ω : Type} {reply : (q : Question) → ω → q.Answer × ω}

/-- Making the page asks nothing of the source. -/
theorem compose_asks (arrangement : Arrangement) (template : LoadedTemplate)
    (layout : Option LoadedTemplate) (data : Value) :
    (compose arrangement template layout data).AsksOnly fun q => q.isForSource = false := by
  have hpass : ∀ (template : LoadedTemplate) (data : Value) (scope : PageScope),
      (pass template data scope).AsksOnly fun q => q.isForSource = false := by
    intro template data scope
    refine .bind (.get_bind fun e => .set_bind ?_) fun rendered => .bind ?_ fun _ => .pure _
    · split
      · exact .pure _
      · exact .throw _
    · unfold awaitValues
      dsimp only
      split
      · exact .pure _
      · exact .ask_bind rfl fun ends => .pure _
  refine .bind (hpass _ _ _) fun body => ?_
  cases layout with
  | none => exact .pure _
  | some layout => exact .bind (.bind (hpass _ _ _) fun _ => .pure _) fun _ => .pure _

/-- An engine that supplies a selection asks nothing of the source in a cached render. -/
theorem render_asks_of_supplies {e : Engine} (horderly : e.Orderly) {name : String}
    {request : Request} {template : LoadedTemplate} {layout : Option LoadedTemplate}
    (hreuse : request.reuse = true) (h : e.Supplies name request.layout template layout)
    (arrangement : Arrangement) (w : ω) :
    ∀ q ∈ (render name request arrangement).run.asked reply e w, q.isForSource = false := by
  obtain ⟨cache, hselect⟩ :=
    run_select_of_supplies (Script.recording reply) (w, []) horderly hreuse h
  rw [Script.run_recording] at hselect
  have hasked : (select name request).run.asked reply e w = [] :=
    congrArg (fun out => out.2.2.2) hselect
  have hrun : (select name request).run.run reply e w =
      (.ok (template, layout), { e with cache }, w) :=
    congrArg (fun out => (out.1, out.2.1, out.2.2.1)) hselect
  rw [render_eq_compose, Rendering.asked_bind, hasked, hrun]
  exact Script.AsksOnly.asked reply (compose_asks arrangement template layout request.data) _ _

/-- An engine that supplies a selection makes the page of it in a cached render. -/
theorem run_render_of_supplies {e : Engine} (horderly : e.Orderly) {name : String}
    {request : Request} {template : LoadedTemplate} {layout : Option LoadedTemplate}
    (hreuse : request.reuse = true) (h : e.Supplies name request.layout template layout)
    (arrangement : Arrangement) (w : ω) :
    ∃ cache, (render name request arrangement).run.run reply e w =
      (compose arrangement template layout request.data).run.run reply { e with cache } w := by
  obtain ⟨cache, hselect⟩ := run_select_of_supplies reply w horderly hreuse h
  refine ⟨cache, ?_⟩
  rw [render_eq_compose, Rendering.run_bind, hselect]

/-- The tokens that were given out are apart. -/
def Engine.TokensApart (e : Engine) : Prop := e.tokens.DistinctBelow e.tokens.used

/-- Tokens that are apart for a later engine are apart for an earlier one, whose draws come first.
-/
theorem Engine.TokensApart.of_advances {e e' : Engine} (h : e'.TokensApart)
    (hadvances : e.Advances e') : e.TokensApart :=
  (TokenSupply.DistinctBelow.mono h hadvances.used).of_source hadvances.source.symm

/-- Whatever order the jobs of deferred helpers end in, a page with tokens apart is what is written
at once with the same registry. -/
theorem compose_eq_directPage {e : Engine} {template : LoadedTemplate}
    {layout : Option LoadedTemplate} {data : Value}
    (hdelivers : ∀ batch w, Delivers batch (reply (.values batch) w).1)
    (hsteady : e.registry.Steady) (hpartials : e.registry.PartialsPrompt)
    (htemplate : template.template.isPrompt e.registry)
    (hlayout : ∀ l ∈ layout, l.template.isPrompt e.registry) (supply : TokenSupply)
    (calls : Assoc String Nat) (arrangement : Arrangement) (w : ω)
    (hapart : ((compose arrangement template layout data).run.run reply e w).2.1.TokensApart)
    (hclean : Unmarked e.registry { scope := some {}, tokens := supply, calls } template layout
      data) :
    ((compose arrangement template layout data).run.run reply e w).1 =
      directPage e.registry { scope := some {}, tokens := supply, calls } template layout data := by
  have hcalls : e.calls = calls ∨ e.registry.Steady := .inr hsteady
  have hends := compose_ensures data (Terms.alone_permits e.registry e.tokens.source) rfl
    hsteady.verbatim hpartials htemplate hlayout supply hcalls arrangement
  obtain ⟨-, -, hresult⟩ := hends.run (Terms.alone_allows hdelivers) (fun _ => rfl) w
  exact hresult hapart hclean

/-- A cached render that gives a text has selected a view and a layout, and leaves an engine that
supplies them to the same call, with the registry that it has selected them with. -/
theorem supplies_of_render {e₀ e : Engine} {w₀ w : ω} (horderly : e₀.Orderly) {name : String}
    {request : Request} (hreuse : request.reuse = true) {arrangement : Arrangement} {text : String}
    (hrun : (render name request arrangement).run.run reply e₀ w₀ = (.ok text, e, w)) :
    ∃ template layout e₁ w₁,
      (select name request).run.run reply e₀ w₀ = (.ok (template, layout), e₁, w₁) ∧
      (compose arrangement template layout request.data).run.run reply e₁ w₁ = (.ok text, e, w) ∧
      e.Supplies name request.layout template layout ∧ e.registry = e₁.registry := by
  rw [render_eq_compose] at hrun
  obtain ⟨⟨template, layout⟩, e₁, w₁, hselect, hcompose⟩ := Rendering.run_bind_ok hrun
  refine ⟨template, layout, e₁, w₁, hselect, hcompose, ?_⟩
  have hsupplies := (select_supplies horderly name hreuse).alone reply w₀
  have hsame := (compose_same arrangement template layout request.data e₁).alone reply w₁
  have hadvances := (compose_advances arrangement template layout request.data e₁).alone reply w₁
  have hregistry := Rendering.Behaves.registry reply e₁ w₁
    (Rendering.compose_behaves (fun _ _ => rfl) arrangement template layout request.data)
  have hcompose : (compose arrangement template layout request.data).run.run reply e₁ w₁ =
      (.ok text, e, w) := hcompose
  rw [hselect] at hsupplies
  rw [hcompose] at hsame hadvances hregistry
  have hselected : e₁.Supplies name request.layout template layout := hsupplies _ _ rfl
  obtain ⟨layout', hkept, hdefault⟩ := hselected.advances hsame.grows hadvances
  rw [hdefault hsame.defaultLayout] at hkept
  exact ⟨hkept, hregistry⟩

/-- The same selection with the same registry makes the same page from one engine and a later one,
if it does not hold the mark of tokens when it is written at once. -/
theorem compose_again {e₀ e₁ e₂ e₃ : Engine} {w₀ w₁ w₂ w₃ : ω} {name : String} {request : Request}
    {template : LoadedTemplate} {layout : Option LoadedTemplate} {arrangement again : Arrangement}
    {text : String}
    (hselect : (select name request).run.run reply e₀ w₀ = (.ok (template, layout), e₁, w₁))
    (hcompose : (compose arrangement template layout request.data).run.run reply e₁ w₁ =
      (.ok text, e₂, w₂))
    (hregistry : e₃.registry = e₁.registry) (hadvances : e₂.Advances e₃)
    (hsteady : e₀.registry.Steady)
    (hdelivers : ∀ batch w, Delivers batch (reply (.values batch) w).1)
    (hprompt : SelectsPrompt reply e₀ w₀ name request)
    (hbody : ∀ body layout scope, ((draftBody name request).run.run reply e₀.direct w₀).1 =
      .ok (body, layout, scope) → Token.isMarked body.raw = false)
    (hpage : ∀ page, ((render name request).run.run reply e₀.direct w₀).1 = .ok page →
      Token.isMarked page = false)
    (hapart : ((compose again template layout request.data).run.run reply e₃ w₃).2.1.TokensApart) :
    ((compose again template layout request.data).run.run reply e₃ w₃).1 = .ok text := by
  obtain ⟨hpartials, htemplate, hlayout⟩ := hprompt.of_select hselect
  have hclean := unmarked_of_direct hselect hsteady.verbatim hprompt hbody hpage
  have hsteady₁ : e₁.registry.Steady := by
    have hhelpers := (select_helpers name request e₀).alone reply w₀
    rw [hselect] at hhelpers
    unfold Registry.Steady
    rw [hhelpers]
    exact hsteady
  have hlast := (compose_advances again template layout request.data e₃).alone reply w₃
  have hapart₂ : e₂.TokensApart := (hapart.of_advances hlast).of_advances hadvances
  have hfirst := compose_eq_directPage hdelivers hsteady₁ hpartials htemplate hlayout
    e₀.tokens e₀.calls arrangement w₁ (by rw [hcompose]; exact hapart₂) hclean
  rw [← hregistry] at hclean hsteady₁ hpartials htemplate hlayout
  have hlater := compose_eq_directPage hdelivers hsteady₁ hpartials htemplate hlayout
    e₀.tokens e₀.calls again w₃ hapart hclean
  rw [hcompose] at hfirst
  rw [hlater, hregistry, ← hfirst]

/-- Once a cached render of a session has given a text, the same call asks the source for nothing,
whatever is done in between short of forgetting. If nothing but cached renders is done, it gives the
same text: provided that what comes of each helper depends on its arguments alone, no deferred
helper nor `block` is called within an expression, the tokens given out are apart and no mark of
tokens is in the body and the page that are written at once. -/
theorem render_again {settings : Settings} {sourceCheck : Except SetupError Unit}
    {registry : Registry} {helpers : List (String × Helper)} {partials : List (String × String)}
    {built : Engine} (hbuild : build settings sourceCheck registry helpers partials = .ok built)
    (tokens : TokenSupply) (world : ω) {earlier : List (Deed ω)} {session : Session ω}
    (hsession : session = .run reply { engine := { built with tokens }, world } earlier)
    {name : String} {request : Request} (hreuse : request.reuse = true) {arrangement : Arrangement}
    {text : String} (hfirst : ((render name request arrangement).run.run reply session.engine
      session.world).1 = .ok text)
    {between : List (Deed ω)} (hbetween : ∀ deed ∈ between, deed.forgets = false)
    {later : Session ω}
    (hlater : later = .run reply (session.step reply (.render name request arrangement)) between)
    (again : Arrangement) :
    let repeated := (render name request again).run
    (∀ q ∈ repeated.asked reply later.engine later.world, q.isForSource = false) ∧
      ((∀ deed ∈ between, deed.reuses = true) → session.engine.registry.Steady →
        (∀ batch w, Delivers batch (reply (.values batch) w).1) →
        SelectsPrompt reply session.engine session.world name request →
        (∀ body layout scope, ((draftBody name request).run.run reply session.engine.direct
          session.world).1 = .ok (body, layout, scope) → Token.isMarked body.raw = false) →
        (∀ page, ((render name request).run.run reply session.engine.direct session.world).1 =
          .ok page → Token.isMarked page = false) →
        tokens.DistinctBelow (repeated.run reply later.engine later.world).2.1.tokens.used →
        (repeated.run reply later.engine later.world).1 = .ok text) := by
  intro repeated
  obtain ⟨hcache, hdefault, -⟩ := build_new hbuild
  have horderly : session.engine.Orderly := by
    rw [hsession]
    exact (Session.run_orderly (.of_new hcache hdefault) earlier).1
  -- What the first call has selected is supplied to it then and whenever it is repeated.
  rcases hrun : (render name request arrangement).run.run reply session.engine session.world with
    ⟨r, e, w⟩
  have hstep : session.step reply (.render name request arrangement) =
      { engine := e, world := w } := by
    unfold Session.step
    dsimp only
    rw [hrun]
  have horderly₁ : (session.step reply (.render name request arrangement)).engine.Orderly :=
    (Session.step_orderly horderly _).1
  rw [hstep] at hlater horderly₁
  rw [hrun] at hfirst
  obtain rfl : r = .ok text := hfirst
  obtain ⟨template, layout, e₁, w₁, hselect, hcompose, hsupplies, hregistry⟩ :=
    supplies_of_render horderly hreuse hrun
  obtain ⟨hgrows, hadvances⟩ := Session.run_advances reply horderly₁ hbetween
  have horderly₂ : later.engine.Orderly := by
    rw [hlater]
    exact (Session.run_orderly horderly₁ between).1
  obtain ⟨layout', hsupplies', hdefault'⟩ := hsupplies.advances hgrows hadvances
  rw [← hlater] at hadvances hsupplies' hdefault'
  refine ⟨render_asks_of_supplies horderly₂ hreuse hsupplies' again later.world, ?_⟩
  intro hreuses hsteady hdelivers hprompt hbody hpage hdistinct
  obtain ⟨hregistry', hdefault⟩ := Session.run_reuses reply horderly₁ hsupplies.toStocked hreuses
  rw [← hlater] at hregistry' hdefault
  obtain rfl := hdefault' hdefault
  obtain ⟨cache, hrepeated⟩ :=
    run_render_of_supplies horderly₂ hreuse hsupplies' again later.world
  rw [hrepeated] at hdistinct ⊢
  have hlast := (compose_advances again template layout' request.data
    { later.engine with cache }).alone reply later.world
  have hsource : later.engine.tokens.source = tokens.source := by
    have hsource := Session.run_source reply session
      (.render name request arrangement :: between)
    have hsource₀ := Session.run_source reply { engine := { built with tokens }, world } earlier
    rw [← hsession] at hsource₀
    rw [hlater, ← hstep]
    exact hsource.trans hsource₀
  have hapart := hdistinct.of_source (hlast.source.trans hsource)
  have hadvances' : e.Advances { later.engine with cache } :=
    ⟨hadvances.partials, hadvances.standard, hadvances.source, hadvances.used⟩
  exact compose_again hselect hcompose (hregistry'.trans hregistry) hadvances' hsteady hdelivers
    hprompt hbody hpage hapart

end again

/-- The source of the sample, which can be read as long as the world is in order. -/
def brittleReply : (q : Question) → Bool → q.Answer × Bool
  | .values batch, w => (arrivals batch, w)
  | q, true => ((sampleReply q ()).1, true)
  | q, false => (faultyAnswers q, false)

/-- What is done once the page was rendered: the source fails, and so does a render that needs
it. -/
def afterFailure : List (Deed Bool) :=
  [.change fun _ => false, .render "other" { reuse := true } {}]

/-- What was rendered before. -/
def beforeFailure : Session Bool := { engine := steadyEngine, world := true }

/-- The page was rendered, and the source has failed since. -/
def failedSession : Session Bool :=
  .run brittleReply (beforeFailure.step brittleReply (.render "page" { reuse := true } {}))
    afterFailure

set_option maxRecDepth 20000 in
/-- The page with its layout and its deferred values is there although nothing can be read. -/
theorem render_after_failure :
    let repeated := (render "page" { reuse := true }).run
    failedSession.world = false ∧
      (∀ q ∈ repeated.asked brittleReply failedSession.engine failedSession.world,
        q.isForSource = false) ∧
      (repeated.run brittleReply failedSession.engine failedSession.world).1 =
        .ok "<b><HEY></b>(HEY)" := by
  have hbuild : build { defaultLayout := some "main" } (.ok ()) .standard steadyHelpers [] =
    .ok steadyEngine := rfl
  have hdelivers : ∀ batch w, Delivers batch (brittleReply (.values batch) w).1 :=
    fun batch _ => delivers_arrivals batch
  have hprompt : SelectsPrompt brittleReply beforeFailure.engine beforeFailure.world "page"
    { reuse := true } := by decide +kernel
  have hraw : ((draftBody "page" { reuse := true }).run.run brittleReply
      beforeFailure.engine.direct beforeFailure.world).1.toOption.map (fun d => d.1.raw) =
        some "[HEY]" := by decide +kernel
  have hdirect : ((render "page" { reuse := true }).run.run brittleReply
      beforeFailure.engine.direct beforeFailure.world).1 = .ok "<b><HEY></b>(HEY)" :=
    eq_ok_of_toOption (by decide +kernel)
  have hbody := unmarked_draft hraw (by decide +kernel)
  have hpage : ∀ page, ((render "page" { reuse := true }).run.run brittleReply
      beforeFailure.engine.direct beforeFailure.world).1 = .ok page →
        Token.isMarked page = false := fun page hpage => by
    cases hdirect.symm.trans hpage
    decide +kernel
  have hverbatim := steady_steadyEngine.verbatim
  have hselected : ((select "page" { reuse := true }).run.run brittleReply beforeFailure.engine
      beforeFailure.world).1.toOption.isSome := by decide +kernel
  -- The first render is computed through the direct engine: its own run would have to unfold the
  -- order in which values are put in.
  have hfirst : ((render "page" { reuse := true }).run.run brittleReply beforeFailure.engine
      beforeFailure.world).1 = .ok "<b><HEY></b>(HEY)" := by
    rcases hselect : (select "page" { reuse := true }).run.run brittleReply beforeFailure.engine
      beforeFailure.world with ⟨_ | ⟨template, layout⟩, e, w⟩
    · rw [hselect] at hselected
      cases hselected
    · have hclean := unmarked_of_direct hselect hverbatim hprompt hbody hpage
      rw [render_eq_directPage hselect {} hdelivers hverbatim hprompt
        (TokenSupply.distinctBelow_standard (by decide +kernel)) hclean,
        ← run_render_direct hselect hverbatim hprompt {}, hdirect]
  have hbetween : ∀ deed ∈ afterFailure, deed.reuses = true := by simp [afterFailure, Deed.reuses]
  have hsession : beforeFailure = Session.run brittleReply
    { engine := { steadyEngine with tokens := {} }, world := true } [] := rfl
  have hlater : failedSession = Session.run brittleReply (beforeFailure.step brittleReply
    (.render "page" { reuse := true } {})) afterFailure := rfl
  have hagain := render_again hbuild {} true hsession rfl hfirst
    (fun deed hdeed => Deed.forgets_of_reuses (hbetween deed hdeed)) hlater {}
  obtain ⟨hasked, hresult⟩ := hagain
  have hused : ((render "page" { reuse := true }).run.run brittleReply failedSession.engine
    failedSession.world).2.1.tokens.used ≤ 16 ^ Token.width := by decide +kernel
  refine ⟨by decide +kernel, hasked, hresult hbetween steady_steadyEngine hdelivers hprompt
    hbody hpage (TokenSupply.distinctBelow_standard hused)⟩

end Views
