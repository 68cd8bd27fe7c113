import Views.Proofs.Engine.Scripts
import Views.Proofs.Render.Pages
/-!
# Passes of a render

`rendered` and `directPage` say what a view and its layout make if helpers write their values at
once; nothing is waited for. `pass_ensures` says what one pass of a render leaves when it waits for
values and others go on meanwhile, and `compose_ensures` that in the end, with the tokens apart
and no mark of tokens in what is written at once, the page is what is written at once.

A page with a layout takes two passes, and the second one begins in the scope that the first one has
left. Fragments that were captured in the first keep their tokens, so their values are needed for
the page as well; a passage keeps the values that are known already apart from those of the batch
that the pass itself leaves (`Passed`). Tokens are numbered by one supply, through both passes and
all renders that go on meanwhile, hence no token is known twice (`Passed.nodup`).
-/

namespace Views

open Engine

/-! ## Pages written at once -/

/-- What a template makes, and the surroundings after. -/
def rendered (registry : Registry) (around : Surroundings) (template : LoadedTemplate)
    (data : Value) : Except ViewError (String × Surroundings) :=
  match template.render registry data around with
  | (.ok text, around) => .ok (text, around)
  | (.error e, _) => .error (.failed template.id e)

/-- The page that a view makes with its layout, if values are written at once. It is computed from
the registry alone: there is no engine in it, no source and no arrangement. -/
def directPage (registry : Registry) (around : Surroundings) (template : LoadedTemplate)
    (layout : Option LoadedTemplate) (data : Value) : Except ViewError String :=
  match rendered registry.direct around template data with
  | .error e => .error e
  | .ok (body, around) => match layout with
    | none => .ok body
    | some layout =>
      (rendered registry.direct around layout (data.withField "body" (.string body))).map Prod.fst

/-- Neither the body nor the page that is written at once holds the mark of tokens. The body counts
by itself, since it is filled before it is handed to the layout, which may leave it out. -/
structure Unmarked (registry : Registry) (around : Surroundings) (template : LoadedTemplate)
    (layout : Option LoadedTemplate) (data : Value) : Prop where
  body : ∀ {text after}, rendered registry.direct around template data = .ok (text, after) →
    Token.isMarked text = false
  page : ∀ {text}, directPage registry around template layout data = .ok text →
    Token.isMarked text = false

/-! ## Terms of rendering -/

/-- Terms under which templates of one registry may be rendered: others leave the registry as it is
and give no token back, tallies change only where they do not matter, and tokens may be drawn. -/
structure Terms.Permits (terms : Terms Engine) (registry : Registry) (source : Nat → Token) :
    Prop where
  rely : ∀ {e e'}, e.registry = registry → e.tokens.source = source → terms.rely e e' →
    e'.registry = registry ∧ e'.tokens.source = source ∧ e.tokens.used ≤ e'.tokens.used ∧
      (e'.calls = e.calls ∨ registry.Steady)
  owes : ∀ {e : Engine} {tokens calls}, e.registry = registry → e.tokens.source = source →
    tokens.source = source → e.tokens.used ≤ tokens.used → terms.owes e { e with tokens, calls }
  allows : ∀ {batch ends}, terms.allows (.values batch) ends → Delivers batch ends

/-- What a render in this scope reaches beyond its template. -/
def Engine.around (engine : Engine) (scope : PageScope) : Surroundings :=
  { scope := some scope, tokens := engine.tokens, calls := engine.calls }

namespace Passage

variable {p : Passage} {terms : Terms Engine} {values : TokenValues} {e : Engine}

/-- The passage after a pass, in which some values are known. -/
def after (p : Passage) (values : TokenValues) (e : Engine) : Passage :=
  { p with known := values, base := e.tokens.used }

/-- What a pass leaves, beside what is written at once: the text means that text, and the scope
waits for nothing. If the tokens are apart, the values are those of the jobs. -/
structure Passed (p : Passage) (draft : Draft) (scope : PageScope) (e : Engine) (text : String)
    (around : Surroundings) (batch : List Pending) : Prop where
  registry_eq : e.registry = p.registry
  base_le : p.base ≤ e.tokens.used
  means : Denotes (p.known ++ batch.map Pending.shown) draft.raw text
  arounds : (p.after (p.known ++ batch.map Pending.shown) e).Arounds
    (p.known ++ batch.map Pending.shown) (e.around scope) around
  values_eq : e.tokens.DistinctBelow e.tokens.used → draft.values = batch.map Pending.shown

/-- How a pass ends, beside what is written at once. -/
def Ends (p : Passage) (direct : Except ViewError (String × Surroundings)) :
    Except ViewError (Draft × PageScope) → Engine → Prop
  | .ok (draft, scope), e => ∃ batch text around, direct = .ok (text, around) ∧
      p.Passed draft scope e text around batch
  | .error err, e => e.tokens.source = p.source ∧ p.base ≤ e.tokens.used ∧ direct = .error err

/-! ## Tokens that were drawn -/

/-- A passage drawn by some point is drawn by every later one. -/
theorem Drawn.later {used later : Nat} (h : p.Drawn values used) (hle : used ≤ later) :
    p.Drawn values later :=
  ⟨h.1.trans hle, h.2.later rfl hle⟩

/-- Tokens that are apart were drawn once each. -/
theorem Drawn.nodup {supply : TokenSupply} {used : Nat} (h : p.Drawn values used)
    (hsource : supply.source = p.source) (hdistinct : supply.DistinctBelow used) :
    (values.map Prod.fst).Nodup :=
  h.2.nodup (hdistinct.of_source hsource.symm)

/-- What was drawn then has the form of tokens. -/
theorem Drawn.wellFormed {supply : TokenSupply} {used : Nat} (h : p.Drawn values used)
    (hsource : supply.source = p.source) (hdistinct : supply.DistinctBelow used) :
    ∀ q ∈ values, Token.WellFormed q.1 :=
  fun _ hq => h.2.wellFormed (hdistinct.of_source hsource.symm) _ (List.mem_map_of_mem hq)

/-- With the tokens apart, putting the values in by any order gives what is meant. -/
theorem Drawn.substitute {supply : TokenSupply} {used : Nat} (h : p.Drawn values used)
    (hsource : supply.source = p.source) (hdistinct : supply.DistinctBelow used)
    {order : TokenValues} (horder : order.Perm values) {raw text : String}
    (hmeans : Denotes values raw text) (hmark : Token.isMarked text = false) :
    Views.substitute raw order = text := by
  refine substitute_of_denotes (fun q hq => ?_) ?_ (fun q hq => horder.mem_iff.mpr hq) hmeans hmark
  · exact h.wellFormed hsource hdistinct q (horder.mem_iff.mp hq)
  · exact (horder.map Prod.fst).nodup_iff.mpr (h.nodup hsource hdistinct)

/-- The text that is made once the values are there: what is meant, in whatever order they are put
in. -/
theorem Passed.substitute {draft : Draft} {scope : PageScope} {text : String}
    {around : Surroundings} {batch : List Pending} (h : p.Passed draft scope e text around batch)
    (hdistinct : e.tokens.DistinctBelow e.tokens.used) {order : TokenValues}
    (horder : order.Perm (p.known ++ draft.values)) (hmark : Token.isMarked text = false) :
    Views.substitute draft.raw order = text := by
  rw [h.values_eq hdistinct] at horder
  exact h.arounds.drawn.substitute h.arounds.source_eq hdistinct horder h.means hmark

/-- The tokens known before a pass and the tokens it drew are all different, as the supply gives
none out twice. -/
theorem Passed.nodup {draft : Draft} {scope : PageScope} {text : String} {around : Surroundings}
    {batch : List Pending} (h : p.Passed draft scope e text around batch)
    (hdistinct : e.tokens.DistinctBelow e.tokens.used) :
    ((p.known ++ draft.values).map Prod.fst).Nodup := by
  rw [h.values_eq hdistinct]
  exact h.arounds.drawn.nodup h.arounds.source_eq hdistinct

/-! ## One pass -/

/-- How a template ends that was rendered in a scope, beside what is written at once. -/
def Renders.Ends (p : Passage) (direct : Except ViewError (String × Surroundings)) :
    Except ViewError (String × PageScope) → Engine → Prop
  | .ok (raw, scope), e => e.registry = p.registry ∧ ∃ more text around,
      direct = .ok (text, around) ∧ Denotes more raw text ∧ p.Arounds more (e.around scope) around
  | .error err, e => e.tokens.source = p.source ∧ p.base ≤ e.tokens.used ∧ direct = .error err

/-- A pass over a prompt template writes the draft that the arrangement's passage describes,
whatever other renders do to the engine meanwhile. -/
theorem renderIn_ensures (hterms : terms.Permits p.registry p.source) (hplain : p.plain = false)
    (hother : p.other = none) (hpartials : p.registry.PartialsPrompt)
    (hregistry : e.registry = p.registry)
    (hbase : p.base = e.tokens.used) {template : LoadedTemplate}
    (hprompt : template.template.isPrompt p.registry) {scope : PageScope} {around : Surroundings}
    (haround : p.Arounds values (e.around scope) around) (data : Value) :
    (renderIn template data scope).Ensures terms
      (Renders.Ends p (rendered p.registry.direct around template data)) e := by
  obtain ⟨more, -, hafter, hends⟩ := render_follows data false hplain hpartials hprompt haround
  have hstart : template.render e.registry data
      { scope := some scope, tokens := e.tokens, calls := e.calls } =
      template.template.render (p.withTokens data false) (e.around scope) := by
    rw [hregistry]
    rfl
  have hdirect : rendered p.registry.direct around template data =
      match template.template.render (p.inOther data false) around with
      | (.ok text, around) => .ok (text, around)
      | (.error e, _) => .error (.failed template.id e) := by
    rw [inOther_direct hother]
    rfl
  rw [hdirect]
  generalize template.template.render (p.withTokens data false) (e.around scope) = left
    at hstart hafter hends
  generalize template.template.render (p.inOther data false) around = right at hafter hends
  obtain ⟨r, after⟩ := left
  obtain ⟨r', after'⟩ := right
  -- All that the pass writes to the engine is the supply and the tallies.
  have howes : terms.owes e { e with tokens := after.tokens, calls := after.calls } :=
    hterms.owes hregistry haround.source_eq hafter.source_eq (hbase ▸ hafter.drawn.1)
  unfold renderIn
  rw [Rendering.ensures_get_bind]
  rw [hstart]
  refine .set_bind howes ?_
  cases hends with
  | @ok raw text hmeans =>
    obtain ⟨s, d, hs, hd, hscopes⟩ := hafter.scope
    refine .pure ⟨hregistry, more, text, after', rfl, hmeans, ?_⟩
    have hscope : after.scope.getD scope = s := by
      have hs : after.scope = some s := hs
      rw [hs]
      rfl
    rw [hscope]
    exact ⟨⟨s, d, rfl, hd, hscopes⟩, hafter.source_eq, hafter.drawn, hafter.beside, hafter.calls⟩
  | error err => exact .throw ⟨hafter.source_eq, hafter.drawn.1, rfl⟩

/-- Once the values are there, the scope waits for nothing and the values are known. -/
theorem Arounds.settled {scope : PageScope} {around : Surroundings} (hother : p.other = none)
    (h : p.Arounds values (e.around scope) around) {e' : Engine}
    (hsource : e'.tokens.source = p.source) (hused : e.tokens.used ≤ e'.tokens.used)
    (hcalls : e'.calls = e.calls ∨ p.registry.Steady) :
    (p.after values e').Arounds values (e'.around { scope with deferrals := {} }) around := by
  obtain ⟨s, d, hs, hd, hscopes⟩ := h.scope
  cases hs
  refine ⟨⟨_, d, rfl, hd, hscopes.fragments, ?_⟩, hsource, ?_, h.beside, ?_⟩
  · unfold Waits after
    dsimp only
    rw [hother]
    exact ⟨(List.append_nil values).symm, hscopes.settled hother⟩
  · exact ⟨Nat.le_refl _, h.drawn.2.later rfl hused⟩
  · rcases hcalls with hcalls | hsteady
    · exact h.calls.imp_left fun h => hcalls.trans h
    · exact .inr hsteady

/-- One pass ends as what is written at once does, and leaves what `Passed` says. -/
theorem pass_ensures (hterms : terms.Permits p.registry p.source) (hplain : p.plain = false)
    (hother : p.other = none) (hpartials : p.registry.PartialsPrompt)
    (hregistry : e.registry = p.registry)
    (hbase : p.base = e.tokens.used) {template : LoadedTemplate}
    (hprompt : template.template.isPrompt p.registry) {scope : PageScope} {around : Surroundings}
    (haround : p.Arounds values (e.around scope) around) (data : Value) :
    (pass template data scope).Ensures terms
      (p.Ends (rendered p.registry.direct around template data)) e := by
  have hrendered := renderIn_ensures hterms hplain hother hpartials hregistry hbase hprompt haround
    data
  refine hrendered.bind ?_ fun err e' h => h
  rintro ⟨raw, scope⟩ e' ⟨hregistry', more, text, around', hdirect, hmeans, haround'⟩
  obtain ⟨s, d, hs, -, hscopes⟩ := haround'.scope
  cases hs
  have hmore : more = p.known ++ scope.deferrals.pending.map Pending.shown :=
    hscopes.values_eq hother
  subst hmore
  -- However the jobs end, the pass leaves what it is to leave.
  have hpassed : ∀ e'' ends, Delivers scope.deferrals.pending ends →
      e''.registry = p.registry → e''.tokens.source = p.source →
      e'.tokens.used ≤ e''.tokens.used → (e''.calls = e'.calls ∨ p.registry.Steady) →
      p.Passed { raw, values := settle scope.deferrals.pending ends }
        { scope with deferrals := {} } e'' text around' scope.deferrals.pending := by
    intro e'' ends hdelivers hregistry'' hsource'' hused hcalls
    refine ⟨hregistry'', haround'.drawn.1.trans hused, hmeans,
      haround'.settled hother hsource'' hused hcalls, fun hdistinct => ?_⟩
    have hnodup := (haround'.drawn.later hused).nodup hsource'' hdistinct
    rw [List.map_append, List.nodup_append] at hnodup
    have hkeys : (scope.deferrals.pending.map Pending.shown).map Prod.fst =
        scope.deferrals.pending.map Pending.token := by
      rw [List.map_map]
      rfl
    exact settle_eq_shown hdelivers (hkeys ▸ hnodup.2.1)
  unfold awaitValues Deferrals.take
  dsimp only
  split
  · rename_i hempty
    have hnil : scope.deferrals.pending = [] := List.isEmpty_iff.mp hempty
    refine .pure ⟨scope.deferrals.pending, text, around', hdirect, ?_⟩
    have hscope : { scope with deferrals := {} } = scope := by
      obtain ⟨blocks, ⟨pending⟩⟩ := scope
      obtain rfl : pending = [] := hnil
      rfl
    have h := hpassed e' [] (fun place hplace => by simp [hnil] at hplace) hregistry'
      haround'.source_eq (Nat.le_refl _) (.inl rfl)
    rw [hscope, hnil] at h
    rw [hnil]
    exact h
  · refine .ask_bind fun ends hends e'' hrely => ?_
    obtain ⟨hregistry'', hsource'', hused, hcalls⟩ :=
      hterms.rely hregistry' haround'.source_eq hrely
    refine .pure ⟨scope.deferrals.pending, text, around', hdirect, ?_⟩
    exact hpassed e'' ends (hterms.allows hends) hregistry'' hsource'' hused hcalls

end Passage

/-! ## The page -/

section page

variable {terms : Terms Engine} {registry : Registry} {source : Nat → Token} {e : Engine}
  {template : LoadedTemplate} {layout : Option LoadedTemplate} {data : Value}
  {around : Surroundings}

/-- How a page ends: no token was given back, and with the tokens apart and no mark in what is
written at once, the text is what is written at once. -/
def PageEnds (source : Nat → Token) (used : Nat) (clean : Prop) (direct : Except ViewError String)
    (r : Except ViewError String) (e : Engine) : Prop :=
  e.tokens.source = source ∧ used ≤ e.tokens.used ∧
    (e.tokens.DistinctBelow e.tokens.used → clean → r = direct)

/-- A render selects a view and a layout, and composes the page. -/
theorem render_eq_compose (name : String) (request : Request) (arrangement : Arrangement) :
    render name request arrangement =
      select name request >>= fun (template, layout) =>
        compose arrangement template layout request.data := by
  unfold render draft draftBody compose
  simp only [bind_assoc, pure_bind]
  refine bind_congr fun selected => bind_congr fun passed => ?_
  obtain ⟨template, layout⟩ := selected
  cases layout with
  | none => rfl
  | some layout => rfl

/-- The passage of a body: nothing is known and nothing captured. -/
theorem arounds_start {registry : Registry} (verbatim : registry.Verbatim)
    {calls : Assoc String Nat} (hcalls : e.calls = calls ∨ registry.Steady) (tokens : TokenSupply) :
    ({ registry, verbatim, source := e.tokens.source, base := e.tokens.used } : Passage).Arounds []
      (e.around {}) { scope := some {}, tokens, calls } := by
  refine ⟨⟨{}, {}, rfl, rfl, ?_⟩, rfl, ?_, Passage.drawnBeside_of_none rfl _ _, hcalls⟩
  · exact ⟨fun name => .nil, rfl, rfl⟩
  · exact ⟨Nat.le_refl _, TokenSupply.hasGiven_nil _⟩

/-- A draft becomes a text, in whatever order its values are put in. That there is one such text is
what makes the order of a map of no account. -/
def Engine.Draft.Gives (draft : Draft) (text : String) : Prop :=
  ∀ order : TokenValues, order.Perm draft.values → substitute draft.raw order = text

/-- How the draft of a layout around a body ends, given that the body is what is written at once. -/
def DraftEnds (p : Passage) (clean : Prop) (direct : Except ViewError String) :
    Except ViewError Draft → Engine → Prop :=
  fun r e => e.tokens.source = p.source ∧ p.base ≤ e.tokens.used ∧
    (e.tokens.DistinctBelow e.tokens.used → clean → match r with
      | .ok draft => ∃ page, direct = .ok page ∧ (Token.isMarked page = false → draft.Gives page)
      | .error err => direct = .error err)

/-- And so do the passes of a layout around a body, which begins where the body's own passage ended.
-/
theorem draftAround_ensures {p : Passage} (hterms : terms.Permits p.registry p.source)
    (hplain : p.plain = false) (hother : p.other = none)
    (hpartials : p.registry.PartialsPrompt) (hknown : p.known = [])
    {body : Draft} {scope : PageScope} {text : String} {batch : List Pending}
    (hpassed : p.Passed body scope e text around batch) {layout : LoadedTemplate}
    (hlayout : layout.template.isPrompt p.registry) (arrangement : Arrangement) :
    (draftAround arrangement data body layout scope).Ensures terms
      (DraftEnds p (Token.isMarked text = false)
        ((rendered p.registry.direct around layout (data.withField "body" (.string text))).map
          Prod.fst)) e := by
  have hbody : e.tokens.DistinctBelow e.tokens.used → Token.isMarked text = false →
      body.text arrangement.inner = text := fun hdistinct hmark =>
    hpassed.substitute hdistinct (by rw [hknown]; exact arrangement.inner_perm _) hmark
  have hvalues := hpassed.values_eq
  -- The pass of the layout starts where the body's has ended, with the body's values known.
  let q := p.after (p.known ++ batch.map Pending.shown) e
  refine .bind (Passage.pass_ensures (p := q) hterms hplain hother hpartials
    hpassed.registry_eq rfl hlayout hpassed.arounds _) ?_ ?_
  · rintro ⟨draft, scope'⟩ e' ⟨batch', page, around', hdirect, hpassed'⟩
    have hsource : e'.tokens.source = p.source := hpassed'.arounds.source_eq
    have hused : e.tokens.used ≤ e'.tokens.used := hpassed'.base_le
    refine .pure ⟨hsource, hpassed.base_le.trans hused, fun hdistinct hmark => ?_⟩
    have hdistinctBody : e.tokens.DistinctBelow e.tokens.used :=
      (hdistinct.mono hused).of_source (hpassed.arounds.source_eq.trans hsource.symm)
    have hdirect : rendered p.registry.direct around layout
        (data.withField "body" (.string text)) = .ok (page, around') := by
      rw [← hbody hdistinctBody hmark]
      exact hdirect
    refine ⟨page, by rw [hdirect]; rfl, fun hpage order horder => ?_⟩
    -- With the tokens apart, the values of both passes come one after the other in one map.
    have hqknown : q.known = body.values := by
      rw [hvalues hdistinctBody]
      show p.known ++ _ = _
      rw [hknown]
      rfl
    have hnodup := hpassed'.nodup hdistinct
    rw [hqknown] at hnodup
    rw [TokenValues.extend_eq_append hnodup] at horder
    exact hpassed'.substitute hdistinct (by rw [hqknown]; exact horder) hpage
  · rintro err e' ⟨hsource, hused, hdirect⟩
    refine ⟨hsource, hpassed.base_le.trans hused, fun hdistinct hmark => ?_⟩
    have hdistinctBody : e.tokens.DistinctBelow e.tokens.used :=
      (hdistinct.mono hused).of_source (hpassed.arounds.source_eq.trans hsource.symm)
    have hdirect : rendered p.registry.direct around layout
        (data.withField "body" (.string text)) = .error err := by
      rw [← hbody hdistinctBody hmark]
      exact hdirect
    rw [hdirect]
    rfl

/-- Whatever goes on meanwhile, a page that is composed is what is written at once. -/
theorem compose_ensures (data : Value) (hterms : terms.Permits registry e.tokens.source)
    (hregistry : e.registry = registry) (verbatim : registry.Verbatim)
    (hpartials : registry.PartialsPrompt)
    (htemplate : template.template.isPrompt registry)
    (hlayout : ∀ l ∈ layout, l.template.isPrompt registry) (tokens : TokenSupply)
    {calls : Assoc String Nat} (hcalls : e.calls = calls ∨ registry.Steady)
    (arrangement : Arrangement) :
    (compose arrangement template layout data).Ensures terms
      (PageEnds e.tokens.source e.tokens.used
        (Unmarked registry { scope := some {}, tokens, calls } template layout data)
        (directPage registry { scope := some {}, tokens, calls } template layout data)) e := by
  let p : Passage := { registry, verbatim, source := e.tokens.source, base := e.tokens.used }
  have hstart := arounds_start verbatim hcalls tokens
  refine .bind (Passage.pass_ensures (p := p) hterms rfl rfl hpartials hregistry rfl htemplate
    hstart data) ?_ ?_
  · rintro ⟨body, scope⟩ e₁ ⟨batch, text, around₁, hdirect, hpassed⟩
    have hsource₁ : e₁.tokens.source = e.tokens.source := hpassed.arounds.source_eq
    cases layout with
    | none =>
      refine .pure ⟨hsource₁, hpassed.base_le, fun hdistinct hclean => ?_⟩
      have htext : body.text arrangement.outer = text :=
        hpassed.substitute hdistinct (arrangement.outer_perm body.values) (hclean.body hdirect)
      rw [directPage, hdirect, htext]
    | some l =>
      have hpage : directPage registry { scope := some {}, tokens, calls } template (some l) data =
          (rendered registry.direct around₁ l (data.withField "body" (.string text))).map
            Prod.fst := by
        rw [directPage, hdirect]
      refine .bind
        (draftAround_ensures (p := p) hterms rfl rfl hpartials rfl hpassed (hlayout l rfl)
          arrangement) ?_ ?_
      · rintro draft e₂ ⟨hsource, hused, hends⟩
        refine .pure ⟨hsource, hused, fun hdistinct hclean => ?_⟩
        obtain ⟨page, hpage', hgives⟩ := hends hdistinct (hclean.body hdirect)
        have hmark := hclean.page (hpage.trans hpage')
        rw [hpage, hpage', Draft.text, hgives hmark _ (arrangement.outer_perm _)]
      · rintro err e₂ ⟨hsource, hused, hends⟩
        refine ⟨hsource, hused, fun hdistinct hclean => ?_⟩
        rw [hpage, hends hdistinct (hclean.body hdirect)]
  · rintro err e₁ ⟨hsource, hused, hdirect⟩
    exact ⟨hsource, hused, fun _ _ => by rw [directPage, hdirect]⟩

end page
end Views
