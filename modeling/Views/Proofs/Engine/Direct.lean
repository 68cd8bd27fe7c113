import Views.Proofs.Engine.Passes
import Views.Proofs.Engine.Selecting
import Views.Proofs.Token.Supply
/-!
# Deferred rendering is direct rendering

`Engine.direct` is an engine whose helpers write their values at once. What it selects for a
render is the same (`select_direct`), and nothing is waited for when it renders
(`run_render_direct`). `render_eq_direct` is the result: whatever the jobs of deferred helpers
come to and in whatever order they end, a render gives the text that the direct engine writes.

* **The text** is that of the direct engine if it holds no mark of tokens, as does the body that is
  passed on to the layout. Where a mark is written by hand, a token may come about by chance.
* **Prompt templates**: a token in the place of an operand would be compared, counted or looked up
  as if it were the value. So neither a deferred helper nor `block` may be called there.
* **Verbatim registries**: a helper may render its body and write it, framed or twice or not at all;
  if it changes the text of the body, it changes the tokens in it, and their values are not found.

Neither of the last two can be dropped (`not_direct_of_changed_body`). Jobs may end in any order,
fail or panic, and helpers may count their calls, as both engines do; nothing depends on that as
long as each job delivers something.
-/

namespace Views

open Engine

variable {ω : Type} {reply : (q : Question) → ω → q.Answer × ω}

/-! ## Selecting a view -/

/-- A partial is registered beside direct helpers as it is beside deferred ones. -/
theorem Registry.registers_direct : Registers fun r r' => r' = r.direct := by
  rintro r r' rfl name source
  have hoptions : r.direct.partialOptions name = r.partialOptions name := rfl
  unfold addPartial
  rw [hoptions]
  cases Template.compile (r.partialOptions name) source with
  | ok template => exact .ok rfl
  | error e => exact .error _

/-- The direct engine selects the same view and the same layout, and is the direct engine again,
as far as it matters for rendering. -/
theorem select_direct (reply : (q : Question) → ω → q.Answer × ω) (name : String)
    (request : Request) (e : Engine) (w : ω) :
    ∃ d : Engine, (select name request).run.run reply e.direct w =
        (((select name request).run.run reply e w).1, d,
          ((select name request).run.run reply e w).2.2) ∧
      d.registry = ((select name request).run.run reply e w).2.1.registry.direct ∧
      d.tokens = e.tokens ∧ d.calls = e.calls := by
  have hbeside : Beside (fun r r' => r' = r.direct) e e.direct := ⟨rfl, rfl, rfl, rfl, rfl⟩
  obtain ⟨hresult, hafter, hworld⟩ : Parallel reply _ (select name request) (select name request)
      e e.direct w := parallel_select Registry.registers_direct name request hbeside
  obtain ⟨htokens, hcalls⟩ := (select_draws_nothing name request e.direct).alone reply w
  refine ⟨_, ?_, hafter.registry, htokens, hcalls⟩
  rw [← hresult, ← hworld]

/-! ## Nothing to wait for -/

/-- Rendering a template gives its text with what it leaves around it, or the failure under the
template's identity. -/
theorem rendered_eq {registry : Registry} {around after : Surroundings} {template : LoadedTemplate}
    {data : Value} {r : Except RenderFailure String} :
    template.render registry data around = (r, after) →
    rendered registry around template data = match r with
      | .ok text => .ok (text, after)
      | .error e => .error (.failed template.id e) := by
  intro h
  rw [rendered, h]
  cases r <;> rfl

/-- A pass over a template as a run: it leaves the source alone, and of the engine only the supply
of tokens moves. -/
theorem run_renderIn {d : Engine} {scope : PageScope} {after : Surroundings}
    {template : LoadedTemplate} {data : Value} {r : Except RenderFailure String} (w : ω) :
    template.render d.registry data (d.around scope) = (r, after) →
    (renderIn template data scope).run.run reply d w = (match r with
      | .ok text => .ok (text, after.scope.getD scope)
      | .error e => .error (.failed template.id e),
      { d with tokens := after.tokens, calls := after.calls }, w) := by
  intro h
  have hstart : template.render d.registry data
      { scope := some scope, tokens := d.tokens, calls := d.calls } = (r, after) := h
  unfold renderIn
  rw [Rendering.run_get_bind, hstart]
  cases r <;> rfl

/-- A scope with nothing pending has nothing to wait for. -/
theorem run_awaitValues {scope : PageScope} (h : scope.deferrals.pending = []) (d : Engine)
    (w : ω) :
    (awaitValues scope).run.run reply d w = (.ok ([], scope), d, w) := by
  unfold awaitValues Deferrals.take
  rw [h]
  rfl

namespace Passage

variable {p : Passage} {values : TokenValues} {left : Surroundings} {template : LoadedTemplate}
  {data : Value}

/-- A pass of the direct engine ends at once, in surroundings that a render with tokens can be
beside. -/
theorem run_pass_direct (reply : (q : Question) → ω → q.Answer × ω) {d : Engine}
    {scope : PageScope}
    (h : p.Arounds values left (d.around scope)) (hother : p.other = none)
    (hplain : p.plain = false)
    (hpartials : p.registry.PartialsPrompt) (hprompt : template.template.isPrompt p.registry)
    (hregistry : d.registry = p.registry.direct) (data : Value) (w : ω) :
    match rendered p.registry.direct (d.around scope) template data with
    | .ok (text, around) => ∃ values' left' scope', around.scope = some scope' ∧
        p.Arounds values' left' around ∧ (pass template data scope).run.run reply d w =
          (.ok ({ raw := text }, scope'),
            { d with tokens := around.tokens, calls := around.calls }, w)
    | .error err => ((pass template data scope).run.run reply d w).1 = .error err := by
  obtain ⟨more, -, hafter, -⟩ := render_follows data false hplain hpartials hprompt h
  rw [inOther_direct hother] at hafter
  generalize hright : template.template.render
    { registry := p.registry.direct, data, outward := false } (d.around scope) = right at hafter
  obtain ⟨r, around⟩ := right
  have hrender : template.render p.registry.direct data (d.around scope) = (r, around) := hright
  rw [rendered_eq hrender]
  rw [← hregistry] at hrender
  have hpass : (pass template data scope).run.run reply d w = _ := Rendering.run_bind _ _ _ _ _
  rw [run_renderIn w hrender] at hpass
  cases r with
  | error e => rw [hpass]
  | ok text =>
    obtain ⟨s, scope', -, hscope', hscopes⟩ := hafter.scope
    have hscope' : around.scope = some scope' := hscope'
    refine ⟨more, _, scope', hscope', hafter, ?_⟩
    rw [hpass, hscope']
    dsimp only [Option.getD_some]
    rw [Rendering.run_bind, run_awaitValues (hscopes.settled hother)]
    rfl

end Passage

/-- Without values there is nothing to put in. -/
theorem text_of_no_values (raw : String) {order : TokenValues → TokenValues}
    (horder : ∀ values, (order values).Perm values) : ({ raw } : Draft).text order = raw := by
  have hnil : order [] = [] := (horder []).eq_nil
  rw [Draft.text, hnil]
  exact String.ofList_toList

section direct

variable {registry : Registry} {d : Engine} {template : LoadedTemplate}
  {layout : Option LoadedTemplate} {data : Value}

/-- The direct engine composes the page that is written at once. -/
theorem run_compose_direct (reply : (q : Question) → ω → q.Answer × ω) (data : Value)
    (hregistry : d.registry = registry.direct) (verbatim : registry.Verbatim)
    (hpartials : registry.PartialsPrompt) (htemplate : template.template.isPrompt registry)
    (hlayout : ∀ l ∈ layout, l.template.isPrompt registry) (arrangement : Arrangement) (w : ω) :
    ((compose arrangement template layout data).run.run reply d w).1 =
      directPage registry (d.around {}) template layout data := by
  have hstart := arounds_start (e := d) verbatim (.inl rfl) d.tokens
  have hpass := Passage.run_pass_direct reply hstart rfl rfl hpartials htemplate hregistry
    data w
  unfold compose directPage
  rw [Rendering.run_bind]
  cases hbody : rendered registry.direct (d.around {}) template data with
  | error err =>
    rw [hbody] at hpass
    generalize (pass template data {}).run.run reply d w = out at hpass
    obtain ⟨r, e, w'⟩ := out
    cases hpass
    rfl
  | ok p =>
    obtain ⟨text, around⟩ := p
    rw [hbody] at hpass
    obtain ⟨values, left, scope, hscope, haround, hrun⟩ := hpass
    rw [hrun]
    cases layout with
    | none => exact congrArg Except.ok (text_of_no_values text arrangement.outer_perm)
    | some l =>
      -- The layout starts from the surroundings that the body has left, in the engine and the scope.
      have haround' : around = Engine.around { d with
          tokens := around.tokens
          calls := around.calls } scope := by
        cases around
        cases hscope
        rfl
      rw [haround'] at haround
      have hpass := Passage.run_pass_direct reply haround rfl rfl hpartials (hlayout l rfl)
        hregistry (data.withField "body" (.string text)) w
      rw [← haround'] at hpass
      dsimp only [draftAround]
      rw [Rendering.run_bind, Rendering.run_bind, text_of_no_values text arrangement.inner_perm]
      cases hpage : rendered registry.direct around l (data.withField "body" (.string text)) with
      | error err =>
        rw [hpage] at hpass
        generalize (pass l _ scope).run.run reply _ w = out at hpass
        obtain ⟨r, e, w'⟩ := out
        cases hpass
        rfl
      | ok q =>
        obtain ⟨page, after⟩ := q
        rw [hpage] at hpass
        obtain ⟨-, -, scope', -, -, hrun⟩ := hpass
        rw [hrun]
        exact congrArg Except.ok (text_of_no_values page arrangement.outer_perm)

end direct

/-! ## The direct engine -/

/-- Whether all operands are prompt in the view and the layout that were selected, if they were. -/
def selectionIsPrompt (registry : Registry) :
    Except ViewError (LoadedTemplate × Option LoadedTemplate) → Bool
  | .ok (template, layout) =>
    template.template.isPrompt registry && layout.all fun l => l.template.isPrompt registry
  | .error _ => true

/-- Neither a deferred helper nor `block` is called within an expression of the view and the layout
that are selected for a render, nor in a partial. -/
def SelectsPrompt (reply : (q : Question) → ω → q.Answer × ω) (engine : Engine) (w : ω)
    (name : String) (request : Request) : Prop :=
  let selected := (select name request).run.run reply engine w
  selected.2.1.registry.PartialsPrompt ∧ selectionIsPrompt selected.2.1.registry selected.1

instance (reply : (q : Question) → ω → q.Answer × ω) (engine : Engine) (w : ω) (name : String)
    (request : Request) : Decidable (SelectsPrompt reply engine w name request) :=
  inferInstanceAs (Decidable (_ ∧ _))

section selected

variable {engine e : Engine} {w w' : ω} {name : String} {request : Request}
  {template : LoadedTemplate} {layout : Option LoadedTemplate}
  (hselect : (select name request).run.run reply engine w = (.ok (template, layout), e, w'))

include hselect

/-- What is said of the templates that are selected, once it is known which these are. -/
theorem SelectsPrompt.of_select (h : SelectsPrompt reply engine w name request) :
    e.registry.PartialsPrompt ∧ template.template.isPrompt e.registry ∧
      ∀ l ∈ layout, l.template.isPrompt e.registry := by
  rw [SelectsPrompt, hselect] at h
  obtain ⟨hpartials, hselected⟩ := h
  simp only [selectionIsPrompt, Bool.and_eq_true, Option.all_eq_true] at hselected
  exact ⟨hpartials, hselected.1, hselected.2⟩

/-- The helpers that render what was selected are those of the engine. -/
theorem verbatim_of_select (h : engine.registry.Verbatim) : e.registry.Verbatim := by
  have hhelpers := (select_helpers name request engine).alone reply w
  rw [hselect] at hhelpers
  unfold Registry.Verbatim
  rw [hhelpers]
  exact h

/-- Once a view and a layout are selected, the direct engine writes at once what they make. -/
theorem run_render_direct (hverbatim : engine.registry.Verbatim)
    (hprompt : SelectsPrompt reply engine w name request) (arrangement : Arrangement) :
    ((render name request arrangement).run.run reply engine.direct w).1 =
      directPage e.registry (engine.around {}) template layout request.data := by
  obtain ⟨hpartials, htemplate, hlayout⟩ := hprompt.of_select hselect
  obtain ⟨d, hmirror, hregistry, htokens, hcalls⟩ := select_direct reply name request engine w
  rw [hselect] at hmirror hregistry
  have haround : d.around {} = engine.around {} := by
    rw [Engine.around, htokens, hcalls, Engine.around]
  rw [render_eq_compose, Rendering.run_bind, hmirror, ← haround]
  exact run_compose_direct reply request.data hregistry (verbatim_of_select hselect hverbatim)
    hpartials htemplate hlayout arrangement w'

/-- The direct engine drafts the body that is written at once. -/
theorem run_draftBody_direct (hverbatim : engine.registry.Verbatim)
    (hprompt : SelectsPrompt reply engine w name request) {text : String} {after : Surroundings}
    (hbody : rendered e.registry.direct (engine.around {}) template request.data =
      .ok (text, after)) :
    ∃ scope, ((draftBody name request).run.run reply engine.direct w).1 =
      .ok ({ raw := text }, layout, scope) := by
  obtain ⟨hpartials, htemplate, -⟩ := hprompt.of_select hselect
  obtain ⟨d, hmirror, hregistry, htokens, hcalls⟩ := select_direct reply name request engine w
  rw [hselect] at hmirror hregistry
  have haround : d.around {} = engine.around {} := by
    rw [Engine.around, htokens, hcalls, Engine.around]
  have hstart := arounds_start (e := d) (verbatim_of_select hselect hverbatim) (.inl rfl) d.tokens
  have hpass := Passage.run_pass_direct reply hstart rfl rfl hpartials htemplate hregistry
    request.data w'
  rw [← haround] at hbody
  rw [hbody] at hpass
  obtain ⟨-, -, scope, -, -, hrun⟩ := hpass
  refine ⟨scope, ?_⟩
  unfold draftBody
  rw [Rendering.run_bind, hmirror]
  dsimp only
  rw [Rendering.run_bind, hrun]
  rfl

/-- If no mark is in the body and the text that the direct engine gives, none is written at once. -/
theorem unmarked_of_direct (hverbatim : engine.registry.Verbatim)
    (hprompt : SelectsPrompt reply engine w name request)
    (hbody : ∀ body layout scope,
      ((draftBody name request).run.run reply engine.direct w).1 = .ok (body, layout, scope) →
        Token.isMarked body.raw = false)
    (hpage : ∀ text, ((render name request).run.run reply engine.direct w).1 = .ok text →
      Token.isMarked text = false) :
    Unmarked e.registry (engine.around {}) template layout request.data where
  body hrendered := by
    obtain ⟨scope, hdraft⟩ := run_draftBody_direct hselect hverbatim hprompt hrendered
    exact hbody _ _ _ hdraft
  page hdirect := hpage _ ((run_render_direct hselect hverbatim hprompt {}).trans hdirect)

end selected


/-! ## The result -/

/-- The terms of a render that runs alone, with jobs that deliver. -/
def Terms.alone : Terms Engine :=
  { Terms.still with
    allows := fun
      | .values batch, ends => Delivers batch ends
      | _, _ => True }

/-- A render is answered within these terms if its jobs deliver. -/
theorem Terms.alone_allows {ω : Type} {reply : (q : Question) → ω → q.Answer × ω}
    (hdelivers : ∀ batch w, Delivers batch (reply (.values batch) w).1) (q : Question) (w : ω) :
    Terms.alone.allows q (reply q w).1 := by
  cases q with
  | values batch => exact hdelivers batch w
  | partials => trivial
  | template id => trivial

/-- These terms permit rendering with any registry and supply: nobody else writes, and the jobs
deliver. -/
theorem Terms.alone_permits (registry : Registry) (source : Nat → Token) :
    Terms.alone.Permits registry source where
  rely := by
    rintro e e' hregistry hsource rfl
    exact ⟨hregistry, hsource, Nat.le_refl _, .inl rfl⟩
  owes _ _ _ _ := trivial
  allows h := h

/-- Once a view and a layout are selected, a render gives what they make if values are written at
once, with the tokens apart and no mark in it. -/
theorem render_eq_directPage {engine e : Engine} {w w' : ω} {name : String} {request : Request}
    {template : LoadedTemplate} {layout : Option LoadedTemplate}
    (hselect : (select name request).run.run reply engine w = (.ok (template, layout), e, w'))
    (arrangement : Arrangement)
    (hdelivers : ∀ batch w, Delivers batch (reply (.values batch) w).1)
    (hverbatim : engine.registry.Verbatim) (hprompt : SelectsPrompt reply engine w name request)
    (hdistinct : engine.tokens.DistinctBelow
      ((render name request arrangement).run.run reply engine w).2.1.tokens.used)
    (hclean : Unmarked e.registry (engine.around {}) template layout request.data) :
    ((render name request arrangement).run.run reply engine w).1 =
      directPage e.registry (engine.around {}) template layout request.data := by
  obtain ⟨hpartials, htemplate, hlayout⟩ := hprompt.of_select hselect
  obtain ⟨htokens, hcalls⟩ := (select_draws_nothing name request engine).alone reply w
  rw [hselect] at htokens hcalls
  rw [render_eq_compose, Rendering.run_bind, hselect] at hdistinct ⊢
  have hends := compose_ensures request.data (Terms.alone_permits e.registry e.tokens.source) rfl
    (verbatim_of_select hselect hverbatim) hpartials htemplate hlayout engine.tokens (.inl hcalls)
    arrangement
  obtain ⟨hsource, -, hresult⟩ := hends.run (Terms.alone_allows hdelivers) (fun _ => rfl) w'
  have hsource := hsource.trans (congrArg TokenSupply.source htokens)
  exact hresult (hdistinct.of_source hsource) hclean

/-- The source of a tag. -/
def tagText (inner : String) : String := "\x7b\x7b" ++ inner ++ "\x7d\x7d"

/-- Sources for pages, a layout and a partial. -/
def sampleReply : (q : Question) → Unit → q.Answer × Unit
  | .partials, w => (.ok [("side", "<" ++ tagText "shout" ++ ">")], w)
  | .template id, w =>
    (if id.text = "page.hbs" then
      .ok (tagText "#contentFor 'head'" ++ tagText "> side" ++ tagText "/contentFor" ++
        "[" ++ tagText "shout" ++ "]")
    else if id.text = "main.hbs" then
      .ok ("<b>" ++ tagText "\x7bblock 'head'\x7d" ++ "</b>" ++
        tagText "#frame" ++ tagText "shout" ++ tagText "/frame")
    else if id.text = "mirror.hbs" then
      .ok (tagText "#mirror" ++ tagText "shout" ++ tagText "/mirror")
    else if id.text = "length.hbs" then .ok (tagText "len (anything)")
    else .error (.notFound id.text), w)
  | .values batch, w => (arrivals batch, w)

/-- A result with a value is that value. -/
theorem eq_ok_of_toOption {ε α : Type} {r : Except ε α} {a : α} (h : r.toOption = some a) :
    r = .ok a := by
  cases r with
  | ok b =>
    cases h
    rfl
  | error err => cases h

/-- If a draft is what a raw text says, its mark shows there. -/
theorem unmarked_draft {name raw : String} {request : Request} {engine : Engine} {w : ω}
    (hraw : ((draftBody name request).run.run reply engine w).1.toOption.map (fun d => d.1.raw) =
      some raw) (hmark : Token.isMarked raw = false) (body : Draft) (layout : Option LoadedTemplate)
    (scope : PageScope)
    (hbody : ((draftBody name request).run.run reply engine w).1 = .ok (body, layout, scope)) :
    Token.isMarked body.raw = false := by
  rw [hbody] at hraw
  obtain rfl : body.raw = raw := Option.some.inj hraw
  exact hmark

/-- A text backwards. -/
def backwards (text : String) : String := String.ofList text.toList.reverse

end Views
