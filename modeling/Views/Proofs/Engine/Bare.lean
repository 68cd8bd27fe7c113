import Views.Engine.Session
import Views.Proofs.Engine.Transparency
import Views.Proofs.Render.Alarms
/-!
# Views without a layout

A view without a layout is its template rendered by the registry that the engine was built with, but
for two settings: partials in the view are indented, and paths are not tried from enclosing blocks,
whatever the registry says (`Registry.forViews`). So it is what the registry makes of the source
exactly if these two settings do not matter: `render_bare`.

* **What a view is** (`render_bare`): what the registry with the two settings changed makes of the
  source, text or failure; and what the registry itself makes of it, if it has neither setting. The
  escape function, the strictness, the helpers and the partials of the registry may be any.
* **Why not always**: a template is compiled with default options, and rendered in a context of its
  own, so that what the registry says of indentation and of enclosing blocks is lost. Two sources
  show the difference (`settings_not_kept`).
* Views in which `contentFor`, `block` or a deferred helper is called have no counterpart in the
  registry alone. They are left out by `KeepsToPage`, which asks whether an alarm in the place of
  these helpers would show.
-/

namespace Views

open Engine

/-! ## What the registry makes of a source -/

namespace Registry

/-- The registry with the settings that views are rendered with, whatever the registry says:
partials are indented, and paths are not tried from enclosing blocks. -/
def forViews (r : Registry) : Registry :=
  { r with preventIndent := false, recursiveLookup := false }

/-- A registry that has neither setting is the one that views are rendered with. -/
theorem forViews_eq_self {r : Registry} (hindent : r.preventIndent = false)
    (hlookup : r.recursiveLookup = false) : r.forViews = r := by
  obtain ⟨helpers, partials, strict, preventIndent, recursiveLookup, escape⟩ := r
  cases hindent
  cases hlookup
  rfl

/-- A template source calls neither `contentFor` nor `block` nor a helper whose value is to come: if
each of them failed with some fault of its own, it would not show. -/
def KeepsToPage (r : Registry) (source : String) (data : Value) : Prop :=
  ∃ alarm, ∀ e,
    ((r.forViews.withContentBlocks.alarmed alarm).renderTemplate source data {}).1 = .error e →
      e.fault ≠ alarm

/-- A page keeps to itself if it gives a text where each of these helpers would raise the alarm. -/
theorem KeepsToPage.of_isSome {r : Registry} {source : String} {data : Value}
    (alarm : RenderFault)
    (h : ((r.forViews.withContentBlocks.alarmed alarm).renderTemplate source data
      {}).1.toOption.isSome) : r.KeepsToPage source data := by
  refine ⟨alarm, fun e he => ?_⟩
  rw [he] at h
  cases h

/-- The helpers for content blocks reach beyond the page. -/
theorem sameOnPage_withContentBlocks (r : Registry) : r.SameOnPage r.withContentBlocks where
  strict := rfl
  escape := rfl
  partials := rfl
  helpers name := by
    unfold withContentBlocks addHelper
    by_cases hblock : name = "block"
    · subst hblock
      exact .inr ⟨_, Assoc.find?_put_self _ _ _, rfl⟩
    · rw [Assoc.find?_put_of_ne hblock]
      by_cases hcontentFor : name = "contentFor"
      · subst hcontentFor
        exact .inr ⟨_, Assoc.find?_put_self _ _ _, rfl⟩
      · exact .inl (Assoc.find?_put_of_ne hcontentFor _ _)

/-- With the settings for views a source is compiled and rendered as views are. -/
theorem renderTemplate_forViews (r : Registry) (source : String) (data : Value)
    (around : Surroundings) :
    r.forViews.renderTemplate source data around = match Template.compile {} source with
      | .ok template => template.render { registry := r.forViews, data } around
      | .error e => (.error { fault := .unparsable e }, around) := rfl

/-- A source that keeps to the page is rendered by the registry with the helpers for content blocks
as by the registry without. -/
theorem KeepsToPage.render {r : Registry} {source : String} {data : Value} {template : Template}
    (h : r.KeepsToPage source data) (hcompile : Template.compile {} source = .ok template)
    (around within : Surroundings) :
    template.render { registry := r.withContentBlocks, data } within =
      ((r.forViews.renderTemplate source data around).1, within) := by
  have hrender : ∀ (other : Registry) (around : Surroundings),
      other.forViews.renderTemplate source data around =
        template.render { registry := other.forViews, data } around := fun other around => by
    rw [renderTemplate_forViews, hcompile]
  obtain ⟨alarm, hsilent⟩ := h
  have hsilent : ∀ e, (template.render
      { registry := r.forViews.withContentBlocks.alarmed alarm, data } {}).1 = .error e →
        e.fault ≠ alarm := fun e he =>
    hsilent e ((congrArg Prod.fst (hrender (r.withContentBlocks.alarmed alarm) {})).trans he)
  have hsame : r.withContentBlocks.SameOnPage r.forViews.withContentBlocks :=
    ⟨rfl, rfl, rfl, fun _ => .inl rfl⟩
  rw [hrender, hsame.render_eq hsilent within,
    (sameOnPage_withContentBlocks r.forViews).render_eq hsilent around]

end Registry

/-- Why a view could not be rendered, if that is what is wrong with its template. An engine names
the template as well, which the registry does not know; errors of the source and of the setup have
no counterpart in the registry. -/
def ViewError.failure? : ViewError → Option RenderFailure
  | failed _ e => some e
  | uncompilable e => some { fault := .unparsable e.error }
  | source _ => none
  | setup _ => none

/-! ## Selecting a view without a layout -/

namespace Source

variable {source : Source} {start : Engine} {name text : String} {request : Request}

/-- If there are no partials and no layout is chosen, a view is selected alone. -/
theorem selection_bare (hpartials : partialsOf source.partials = .ok [])
    {standard : Option LoadedTemplate} (hstandard : source.standard start = .ok standard)
    (htext : source.template (start.keyOf name) = .ok text)
    (hlayout : request.layout.decision text standard.isSome = .none) :
    source.selection start name request = match Template.compile {} text with
      | .ok template => .ok ({ id := start.keyOf name, source := text, template }, none)
      | .error error => .error (.uncompilable { name := (start.keyOf name).text, error }) := by
  have hproblem : source.problem? start.registry = none := by
    unfold problem?
    rw [hpartials]
    rfl
  have hfetch : source.fetch (start.keyOf name) = match Template.compile {} text with
      | .ok template => .ok { id := start.keyOf name, source := text, template }
      | .error error => .error (.uncompilable { name := (start.keyOf name).text, error }) := by
    unfold fetch LoadedTemplate.compile
    rw [htext]
    dsimp only
    cases Template.compile {} text <;> rfl
  unfold selection
  rw [hproblem, hstandard, hfetch]
  cases Template.compile {} text with
  | error error => rfl
  | ok template =>
    let view : LoadedTemplate := { id := start.keyOf name, source := text, template }
    have hnone : source.layoutOf start view request standard = .ok none := by
      unfold layoutOf
      rw [hlayout]
    show (source.layoutOf start view request standard >>= fun layout => pure (view, layout)) = _
    rw [hnone]
    rfl

/-- A source without partials adds nothing to a registry. -/
theorem extend_bare (hpartials : partialsOf source.partials = .ok []) (r : Registry) :
    source.extend r = r := by
  unfold extend
  rw [hpartials]
  rfl

end Source

/-! ## Sessions in which nothing is registered -/

/-- Whether a helper or a partial is registered. -/
def Deed.registers {ω : Type} : Deed ω → Bool
  | .addHelper _ _ | .addPartial _ _ => true
  | _ => false

section sessions

variable {ω : Type} {reply : (q : Question) → ω → q.Answer × ω} {source : Source} {start : Engine}

/-- Whatever its templates do, a render keeps what reading the source again would give. -/
theorem Source.AnsweredBy.kept (h : source.AnsweredBy reply) {e : Engine}
    (hkept : source.Kept start e) (name : String) (request : Request) (arrangement : Arrangement)
    (w : ω) :
    source.Kept start ((Engine.render name request arrangement).run.run reply e w).2.1 := by
  have hrender : (Engine.render name request arrangement).Ensures (source.terms start [])
      (fun _ _ => True) e := by
    rw [render_eq_compose]
    refine (Source.select_ensures name request hkept).bind ?_ fun _ _ _ => trivial
    rintro ⟨template, layout⟩ e' -
    exact (Rendering.compose_behaves Source.terms_draws _ _ _ _ e').mono fun _ _ _ => trivial
  have howes := hrender.run_owes reply h.hears (source.conduct start).refl w
  exact (Conduct.rely_of_writes howes).1 hkept

/-- What the engine keeps stays the source's own through a whole session in which nothing is
registered by hand. -/
theorem Session.run_kept (h : source.AnsweredBy reply) {session : Session ω}
    (hkept : source.Kept start session.engine) {deeds : List (Deed ω)}
    (hdeeds : ∀ deed ∈ deeds, deed.registers = false) :
    source.Kept start (session.run reply deeds).engine := by
  induction deeds generalizing session with
  | nil => exact hkept
  | cons deed rest ih =>
    have hstep : source.Kept start (session.step reply deed).engine := by
      have hdeed := hdeeds deed List.mem_cons_self
      cases deed with
      | render name request arrangement =>
        exact h.kept hkept name request arrangement session.world
      | addHelper name helper => cases hdeed
      | addPartial name source => cases hdeed
      | forget => exact hkept.forget
      | change change => exact hkept
    exact ih hstep fun deed hdeed => hdeeds deed (List.mem_cons_of_mem _ hdeed)

end sessions

/-! ## The page -/

section page

variable {ω : Type} {reply : (q : Question) → ω → q.Answer × ω} {source : Source}
  {start e : Engine}

/-- What a call alone selects is what the source has, and the partials are registered then. -/
theorem Source.AnsweredBy.run_select (h : source.AnsweredBy reply) (hkept : source.Kept start e)
    (name : String) (request : Request) (w : ω) :
    ∃ e' w', (select name request).run.run reply e w =
        (source.selection start name request, e', w') ∧
      ∀ selected, source.selection start name request = .ok selected →
        e'.registry = source.extend start.registry := by
  have hselect : (select name request).Ensures (source.terms start []) _ e :=
    Source.select_ensures name request hkept
  have hends := hselect.run h.hears (source.conduct start).refl w
  rcases hrun : (select name request).run.run reply e w with ⟨r, e', w'⟩
  rw [hrun] at hends
  obtain ⟨hr | ⟨fault, hfault, -⟩, hready⟩ := hends
  · refine ⟨e', w', by rw [← hr], fun selected hselected => ?_⟩
    exact (hready selected (hr.trans hselected)).extended
  · cases hfault

/-- A view without a layout is what its template is rendered to, if nothing beyond the page
changes. -/
theorem run_compose_bare (reply : (q : Question) → ω → q.Answer × ω) {template : LoadedTemplate}
    {data : Value} {result : Except RenderFailure String}
    (hrender : template.render e.registry data (e.around {}) = (result, e.around {}))
    (arrangement : Arrangement) (w : ω) :
    ((compose arrangement template none data).run.run reply e w).1 =
      result.mapError (.failed template.id) := by
  unfold compose
  rw [Rendering.run_bind, Engine.pass, Rendering.run_bind, run_renderIn w hrender]
  cases result with
  | error e => rfl
  | ok text =>
    have hsettled : ((e.around {}).scope.getD {}).deferrals.pending = [] := rfl
    dsimp only
    rw [Rendering.run_bind, run_awaitValues hsettled]
    exact congrArg Except.ok (text_of_no_values text arrangement.outer_perm)

end page

/-- A view without a layout is what the registry given to the builder makes of its source, as if the
registry had the settings for views; or it fails for the same reason. So it is what that registry
makes of it if it has them. This is so for a source that keeps to the page, whatever was rendered
before, if there are no partials to be read and the default layout, if there is one, can be. -/
theorem render_bare {settings : Settings} {sourceCheck : Except SetupError Unit}
    {registry : Registry} {built : Engine}
    (hbuild : build settings sourceCheck registry [] [] = .ok built) (tokens : TokenSupply)
    {ω : Type} {reply : (q : Question) → ω → q.Answer × ω} {source : Source}
    (hreply : source.AnsweredBy reply) (hpartials : partialsOf source.partials = .ok [])
    {world : ω} {earlier : List (Deed ω)} (hearlier : ∀ deed ∈ earlier, deed.registers = false)
    {session : Session ω}
    (hsession : session = .run reply { engine := { built with tokens }, world } earlier)
    {name text : String} (htext : source.template (built.keyOf name) = .ok text)
    {standard : Option LoadedTemplate} (hstandard : source.standard built = .ok standard)
    {request : Request} (hlayout : request.layout.decision text standard.isSome = .none)
    (hpage : registry.KeepsToPage text request.data) (arrangement : Arrangement)
    (around : Surroundings) :
    let result := ((render name request arrangement).run.run reply session.engine session.world).1
    result.mapError ViewError.failure? =
        (registry.forViews.renderTemplate text request.data around).1.mapError some ∧
      (registry.preventIndent = false → registry.recursiveLookup = false →
        result.mapError ViewError.failure? =
          (registry.renderTemplate text request.data around).1.mapError some) := by
  intro result
  suffices hviews : result.mapError ViewError.failure? =
      (registry.forViews.renderTemplate text request.data around).1.mapError some by
    refine ⟨hviews, fun hindent hlookup => ?_⟩
    rw [hviews, Registry.forViews_eq_self hindent hlookup]
  obtain ⟨hcache, hdefault, hloaded⟩ := build_new hbuild
  have hregistry : built.registry = registry.withContentBlocks := by
    obtain ⟨r, hr, rfl⟩ := eq_of_build hbuild
    cases hr
    rfl
  have hkept : source.Kept built session.engine := by
    rw [hsession]
    refine Session.run_kept hreply ?_ hearlier
    exact .of_new rfl rfl hcache hdefault hloaded
  have hresult : result = ((render name request arrangement).run.run reply session.engine
    session.world).1 := rfl
  -- What was done earlier has kept nothing but the source's own answers, so the view is selected as
  -- from the source itself.
  obtain ⟨e, w, hselect, hextended⟩ := hreply.run_select hkept name request session.world
  rw [render_eq_compose, Rendering.run_bind, hselect] at hresult
  rw [Source.selection_bare hpartials hstandard htext hlayout] at hresult hextended
  cases hcompile : Template.compile {} text with
  | error error =>
    rw [hresult, Registry.renderTemplate_forViews, hcompile]
    rfl
  | ok template =>
    rw [hcompile] at hresult hextended
    have he : e.registry = registry.withContentBlocks := by
      rw [hextended _ rfl, Source.extend_bare hpartials, hregistry]
    have hrender : LoadedTemplate.render { id := built.keyOf name, source := text, template }
        e.registry request.data (e.around {}) =
          ((registry.forViews.renderTemplate text request.data around).1, e.around {}) := by
      rw [he]
      exact hpage.render hcompile around _
    rw [hresult, run_compose_bare reply hrender]
    cases (registry.forViews.renderTemplate text request.data around).1 with
    | ok page => rfl
    | error failure => rfl

/-- A failure that is passed on as a view's own failure leaves the text of a success as it is. -/
theorem toOption_of_mapError {r : Except ViewError String} {page : String}
    (h : r.mapError ViewError.failure? = .ok page) : r.toOption = some page := by
  cases r with
  | ok other =>
    cases h
    rfl
  | error e => cases h

/-! ## A view of its own registry -/

/-- A source with a page, a default layout and no partials. -/
def bareSource (page : String) : Source where
  template id :=
    if id.text = "page.hbs" then .ok page
    else if id.text = "main.hbs" then .ok "<b>{{{body}}}</b>"
    else .error (.notFound id.text)
  partials := .error (.notFound "partials")

/-- What the source and the jobs answer. -/
def bareReply (page : String) : (q : Question) → Unit → q.Answer × Unit
  | .partials, w => ((bareSource page).partials, w)
  | .template id, w => ((bareSource page).template id, w)
  | .values batch, w => (arrivals batch, w)

/-- The bare reply answers every question as the bare source has it. -/
theorem answeredBy_bareReply (page : String) : (bareSource page).AnsweredBy (bareReply page) where
  partials _ := rfl
  template _ _ := rfl
  values batch _ := delivers_arrivals batch

/-- A strict registry with two helpers of its own, of which one writes its body backwards, one whose
value comes later, a partial, and an escape function of its own. -/
def ownRegistry : Registry :=
  { ((Registry.standard.addHelper "greet" (.writer fun _ => .ok "hi ")).addHelper "mirror"
      (.changing backwards)).addHelper "later"
        (.deferred "later" fun _ _ => ⟨.value "late", 0⟩) with
    strict := true
    partials := [("item", .mk (some "item") [(none, .text "one\ntwo")])]
    escape := fun text => "<" ++ text ++ ">" }

/-- An engine that is built with it, with a default layout. -/
def ownEngine : Engine :=
  { settings := { defaultLayout := some "main" }, registry := ownRegistry.withContentBlocks }

/-- A view that uses them. -/
def ownText : String :=
  "{{greet}}" ++ tagText "#mirror" ++ "uoy" ++ tagText "/mirror" ++ "{{this}}\n  {{> item}}"

/-- A request without a layout. -/
def ownRequest : Request := { reuse := true, layout := .disabled, data := .string "me" }

/-- The view was rendered before. -/
def ownSession : Session Unit :=
  .run (bareReply ownText) { engine := ownEngine, world := () } [.render "page" ownRequest {}]

/-- The view without its layout is what the registry makes of it. -/
theorem render_own :
    ((render "page" ownRequest).run.run (bareReply ownText) ownSession.engine
      ownSession.world).1.toOption = some "hi you<me>\n  one\n  two" := by
  have hbuild : build { defaultLayout := some "main" } (.ok ()) ownRegistry [] [] =
    .ok ownEngine := rfl
  have hearlier : ∀ deed ∈ ([.render "page" ownRequest {}] : List (Deed Unit)),
      deed.registers = false := by simp [Deed.registers]
  have hsession : ownSession = .run (bareReply ownText)
    { engine := { ownEngine with tokens := {} }, world := () } [.render "page" ownRequest {}] := rfl
  have htext : (bareSource ownText).template (ownEngine.keyOf "page") = .ok ownText := by
    decide +kernel
  have hread : ((bareSource ownText).standard ownEngine).toOption.isSome := by decide +kernel
  obtain ⟨standard, hstandard⟩ := Option.isSome_iff_exists.mp hread
  have hlayout : ∀ isSome, ownRequest.layout.decision ownText isSome = .none := by decide +kernel
  have hpage : ownRegistry.KeepsToPage ownText ownRequest.data :=
    .of_isSome (.other "called") (by decide +kernel)
  obtain ⟨-, hresult⟩ := render_bare hbuild {} (answeredBy_bareReply ownText) rfl hearlier hsession
    htext (eq_ok_of_toOption hstandard) (hlayout _) hpage {} {}
  have hregistry : (ownRegistry.renderTemplate ownText ownRequest.data {}).1 =
    .ok "hi you<me>\n  one\n  two" := eq_ok_of_toOption (by decide +kernel)
  have hown := hresult rfl rfl
  rw [hregistry] at hown
  exact toOption_of_mapError hown

/-! ## Settings that are not kept -/

/-- An engine renders its view as the registry that it was built with would, whatever the view and
the data are, if the view neither calls helpers that reach beyond it nor names a layout. -/
def Registry.RendersViews (r : Registry) : Prop :=
  ∀ built text data, build {} (.ok ()) r [] [] = .ok built → r.KeepsToPage text data →
    Directive.find? text = none →
    ((render "page" { data }).run.run (bareReply text) built ()).1.mapError ViewError.failure? =
      (r.renderTemplate text data {}).1.mapError some

/-- A registry does not render a view as an engine does if they make different pages of it. -/
theorem Registry.not_rendersViews {r : Registry} {text own : String} {data : Value}
    (hpage : r.KeepsToPage text data) (hplain : Directive.find? text = none)
    (hown : (r.renderTemplate text data {}).1.toOption = some own)
    (hview : ((render "page" { data }).run.run (bareReply text)
      { settings := {}, registry := r.withContentBlocks } ()).1.toOption ≠ some own) :
    ¬ r.RendersViews := by
  intro h
  have hsame := h _ text data rfl hpage hplain
  rw [eq_ok_of_toOption hown] at hsame
  exact hview (toOption_of_mapError hsame)

/-- A registry in which paths are tried from enclosing blocks. -/
def outwardRegistry : Registry := { Registry.standard with recursiveLookup := true }

/-- A registry in which partials are included without indentation. -/
def flushRegistry : Registry :=
  { Registry.standard with
    preventIndent := true
    partials := [("item", .mk (some "item") [(none, .text "one\ntwo")])] }

/-- A view with a path that leads nowhere but from outside its block. -/
def outwardText : String := "\x7b\x7b#with a\x7d\x7d{{b}}{{/with}}"

/-- Neither that paths are tried from enclosing blocks nor that partials are included without
indentation is kept of the settings of a registry. -/
theorem settings_not_kept :
    (¬ ∀ r : Registry, r.preventIndent = false → r.RendersViews) ∧
      ¬ ∀ r : Registry, r.recursiveLookup = false → r.RendersViews := by
  constructor
  · intro h
    let data : Value := .object [("a", .object [("c", .ofNat 1)]), ("b", .string "x")]
    have hpage : outwardRegistry.KeepsToPage outwardText data :=
      .of_isSome (.other "called") (by decide +kernel)
    have hown : (outwardRegistry.renderTemplate outwardText data {}).1.toOption = some "x" := by
      decide +kernel
    exact Registry.not_rendersViews hpage (by decide +kernel) hown (by decide +kernel)
      (h outwardRegistry rfl)
  · intro h
    have hpage : flushRegistry.KeepsToPage "  {{> item}}" .null :=
      .of_isSome (.other "called") (by decide +kernel)
    have hown : (flushRegistry.renderTemplate "  {{> item}}" .null {}).1.toOption =
      some "  one\ntwo" := by decide +kernel
    exact Registry.not_rendersViews hpage (by decide +kernel) hown (by decide +kernel)
      (h flushRegistry rfl)

end Views
