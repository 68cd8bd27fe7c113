import Views.Proofs.Engine.Passes
import Views.Proofs.Registration
import Views.Proofs.Render.Trace
/-!
# Fragments of a render

A page and its layout are rendered in one scope, one after the other. `PageScope.History` says what
was done to the blocks of a scope: by the templates that were rendered in it, in the order in which
their helpers were called, and from outside. `FragmentsKept` says what this comes to: a body is
captured after whatever it captures and emits itself, a text that is emitted is what was captured
for its name since it was last emitted, and no fragment is emitted twice (`fragmentsKept`).

* **One pass** (`Engine.renderIn_history`): rendering a template in a scope adds the template's own
  trace to the history of the scope.
* **Values** change no block. They are put into the text of the page at the end, and a fragment
  keeps the tokens that it was captured with.
* **Whole renders**: `Engine.chronicle` is a render that tells, besides its result, the scope that
  it ends in and the events of its passes. It gives the result of the render (`result_chronicle`),
  and its events are the history of its scope, the layout's after the body's (`chronicle_history`).

The history is about any render in a scope, alone or among others: a scope belongs to one page, and
nothing that another render does is an event of it.
-/

namespace Views

open Render Engine

/-- The first argument of a call is this name. -/
def Call.Names (call : Call) (name : String) : Prop :=
  ∃ arg, call.args[0]? = some arg ∧ arg.resolved.get = .string name

/-- A call that names its block has the name read off its arguments, whatever the state of the
render. -/
theorem Call.run_blockName {call : Call} {name : String} (h : call.Names name) (helper : String)
    (st : RenderState) : (call.blockName helper).run st = (.ok name, st) := by
  obtain ⟨arg, harg, hname⟩ := h
  unfold Call.blockName Call.require
  rw [harg, run_bind, run_pure]
  dsimp only
  rw [hname]
  rfl

/-- The state in which the scope has other blocks. -/
def RenderState.withBlocks (st : RenderState) (scope : PageScope) (blocks : Blocks) : RenderState :=
  { st with around := { st.around with scope := some { scope with blocks } } }

namespace Traced

variable {call : Call} {bodies : Bodies} {name : String} {st within : RenderState}
  {scope : PageScope}

/-- A step that ends well goes on with the next one, and its trace with the trace of that. -/
theorem bind_of_ok {α β : Type} {x : Traced α} {a : α} {st' : RenderState}
    (hx : x.step.run st = (.ok a, st')) (f : α → Traced β) :
    (x >>= f).step.run st = (f a).step.run st' ∧
      (x >>= f).trace st = x.trace st ++ (f a).trace st' := by
  constructor
  · rw [step_bind, run_bind, hx]
  · show x.trace st ++ traceAfter f (x.step.run st) = _
    rw [hx]
    rfl

/-! ## Capturing and emitting -/

/-- What is captured is captured after what the body does. -/
theorem run_runContentFor (hname : call.Names name) (hscope : st.around.scope = some scope)
    (hbody : (runBody bodies.body).step.run { st with out := "" } = (.ok (), within)) :
    ∃ now, within.around.scope = some now ∧
      (runContentFor call bodies).step.run st = (.ok (),
        { within with out := st.out }.withBlocks now (now.blocks.capture name within.out)) ∧
      (runContentFor call bodies).trace st =
        (runBody bodies.body).trace { st with out := "" } ++ [.captured name within.out] := by
  have hreaches := (runBody bodies.body).reaches { st with out := "" }
  rw [hbody] at hreaches
  obtain ⟨now, -, hnow, -⟩ := hreaches.draws hscope
  have hback : ({ within with out := st.out } : RenderState).around.scope = some now := hnow
  have hcapture : (capture (runBody bodies.body)).step.run st =
      (.ok within.out, { within with out := st.out }) := by
    rw [step_capture, run_capture, hbody]
  have hkeep : (keep name within.out).step.run { within with out := st.out } =
      (.ok (), { within with out := st.out }.withBlocks now
        (now.blocks.capture name within.out)) := by
    unfold keep
    rw [run_bind, Passage.run_scope hback]
    rfl
  have htraced : (keep name within.out).trace { within with out := st.out } =
      [.captured name within.out] := if_pos (Option.isSome_of_eq_some hback)
  obtain ⟨hlast, hlast'⟩ := bind_of_ok hcapture (keep name)
  obtain ⟨hthen, hthen'⟩ := bind_of_ok (x := still (.scope "contentFor"))
    (Passage.run_scope hscope _) fun _ => capture (runBody bodies.body) >>= keep name
  obtain ⟨hfirst, hfirst'⟩ := bind_of_ok (x := still (.blockName call "contentFor"))
    (call.run_blockName hname _ st) fun name =>
      still (.scope "contentFor") >>= fun _ => capture (runBody bodies.body) >>= keep name
  refine ⟨now, hnow, hfirst.trans (hthen.trans (hlast.trans hkeep)), ?_⟩
  refine hfirst'.trans (hthen'.trans (hlast'.trans ?_))
  rw [htraced]
  rfl

/-- What is emitted is all that is left of a name, and the other names are left as they are. -/
theorem run_runBlock (hname : call.Names name) (hscope : st.around.scope = some scope) :
    call.runBlock.run st = (.ok (),
        { st with out := st.out ++ (scope.blocks.emit name).1 }.withBlocks scope
          (scope.blocks.emit name).2) ∧
      (runBlock call).trace st = [.emitted name (scope.blocks.emit name).1] := by
  obtain ⟨hrun, htrace⟩ := bind_of_ok (x := still (.blockName call "block"))
    (call.run_blockName hname _ st) drain
  constructor
  · rw [← step_runBlock, runBlock, hrun]
    unfold drain
    rw [run_bind, Passage.run_scope hscope]
    rfl
  · refine htrace.trans ?_
    unfold drain
    dsimp only
    rw [hscope]
    rfl

end Traced

/-! ## Scopes -/

/-- What was done to the blocks of a scope since there was nothing in it: by templates that were
rendered in it, and from outside. -/
inductive PageScope.History : PageScope → List BlockEvent → Prop
  | fresh : History {} []
  | render {scope after : PageScope} {events : List BlockEvent} (h : History scope events)
      (template : Template) (env : RenderEnv) {around : Surroundings}
      (hscope : around.scope = some scope)
      (hafter : (template.render env around).2.scope = some after) :
      History after (events ++ template.trace env around)
  | capture {scope : PageScope} {events : List BlockEvent} (h : History scope events)
      (name fragment : String) :
      History { scope with blocks := scope.blocks.capture name fragment }
        (events ++ [.captured name fragment])
  | emit {scope : PageScope} {events : List BlockEvent} (h : History scope events)
      (name : String) :
      History { scope with blocks := (scope.blocks.emit name).2 }
        (events ++ [.emitted name (scope.blocks.emit name).1])
  | wait {scope : PageScope} {events : List BlockEvent} (h : History scope events)
      (deferrals : Deferrals) : History { scope with deferrals } events

/-- Blocks account for what was done to them. -/
theorem PageScope.History.accounts {scope : PageScope} {events : List BlockEvent}
    (h : scope.History events) : scope.blocks.Accounts events := by
  induction h with
  | fresh => exact .nil
  | render _ template env hscope hafter ih =>
    obtain ⟨after, hafter', hblocks⟩ := (template.render_acts env _).accounts hscope ih
    cases hafter.symm.trans hafter'
    exact hblocks
  | capture _ name fragment ih => exact ih.capture name fragment
  | emit _ name ih => exact ih.emit name
  | wait _ _ ih => exact ih

/-- A template that is rendered in a scope leaves a scope, with what the template did last in its
history. -/
theorem PageScope.History.exists_render {scope : PageScope} {events : List BlockEvent}
    (h : scope.History events) {around : Surroundings} (hscope : around.scope = some scope)
    (template : Template) (env : RenderEnv) : ∃ after,
      (template.render env around).2.scope = some after ∧
        after.History (events ++ template.trace env around) := by
  obtain ⟨after, -, hafter, -⟩ := (template.render_acts env around).draws hscope
  exact ⟨after, hafter, h.render template env hscope hafter⟩

/-! ## Passes of a render -/

/-- What rendering a template does to content blocks. -/
def LoadedTemplate.trace (template : LoadedTemplate) (registry : Registry) (data : Value)
    (around : Surroundings) : List BlockEvent :=
  template.template.trace { registry, data } around

/-- Terms that leave everything open: others may do anything meanwhile. What is proved under them
holds of a render in any company, and of one that is alone. -/
def Terms.any {σ : Type} : Terms σ where
  rely _ _ := True
  allows _ _ := True
  owes _ _ := True

variable (template : LoadedTemplate) (data : Value) {scope : PageScope} {events : List BlockEvent}

/-- A pass in a scope adds its own trace to the scope's history. -/
theorem Engine.renderIn_history (h : scope.History events) (e : Engine) :
    (renderIn template data scope).Ensures .any (fun r _ => ∀ raw after, r = .ok (raw, after) →
      after.History (events ++ template.trace e.registry data (e.around scope))) e := by
  have hscope : (e.around scope).scope = some scope := rfl
  obtain ⟨after, hafter, hhistory⟩ :=
    h.exists_render hscope template.template { registry := e.registry, data }
  unfold renderIn LoadedTemplate.render
  rw [Rendering.ensures_get_bind]
  unfold Engine.around at hafter
  generalize template.template.render _ _ = out at hafter
  obtain ⟨r, around⟩ := out
  refine .set_bind trivial ?_
  cases r with
  | ok text =>
    refine .pure fun raw after' he => ?_
    cases he
    dsimp only at hafter
    rw [hafter]
    exact hhistory
  | error err => exact .throw fun raw after' he => by cases he

/-- What a pass leaves of its scope has the history of the scope and then what the template did. -/
theorem Engine.pass_history (h : scope.History events) (e : Engine) :
    (pass template data scope).Ensures .any (fun r _ => ∀ draft after, r = .ok (draft, after) →
      after.History (events ++ template.trace e.registry data (e.around scope))) e := by
  refine .bind (renderIn_history template data h e) ?_ ?_
  · rintro ⟨raw, after⟩ e' hafter
    have hhistory := hafter raw after rfl
    unfold awaitValues
    dsimp only
    split
    · refine .pure fun draft after' he => ?_
      cases he
      exact hhistory
    · refine .ask_bind fun ends _ e'' _ => .pure fun draft after' he => ?_
      cases he
      exact hhistory.wait _
  · intro err e' _ draft after he
    cases he

/-! ## Whole renders -/

namespace Script

variable {σ α : Type}

/-- A script that gives also the state that it reads first. -/
def withStart : Script σ α → Script σ (σ × α)
  | read next => read fun s => (next s).bind fun a => done (s, a)
  | x => read fun s => x.bind fun a => done (s, a)

/-- What begins with reading the state reads it no more often for that. -/
theorem snd_withStart (next : σ → Script σ α) :
    Prod.snd <$> (read next).withStart = read next := by
  refine congrArg read (funext fun s => ?_)
  exact (bind_assoc _ _ _).trans (bind_done _)

/-- With everything left open a script ensures what holds in any case. -/
theorem ensures_any {post : α → σ → Prop} (h : ∀ a s, post a s) (x : Script σ α) (s : σ) :
    x.Ensures .any post s := by
  induction x generalizing s with
  | done a => exact h a s
  | read next ih => exact ih s s
  | write s' next ih => exact ⟨trivial, ih s'⟩
  | ask q next ih => exact fun answer _ s' _ => ih answer s'

/-- A script that tells of the state it began in ensures what the script itself does. -/
theorem ensures_withStart {terms : Terms σ} {post : σ × α → σ → Prop} {next : σ → Script σ α}
    {s : σ} (h : (read next).Ensures terms (fun a => post (s, a)) s) :
    (read next).withStart.Ensures terms post s :=
  ensures_bind.mpr h

end Script

/-- How something ended, the scope that it left, and what was done to the blocks of the scope.
Neither of the last two is to be had of a render itself, which gives a text or an error and drops
its scope. -/
structure Chronicle (α : Type) where
  result : Except ViewError α
  scope : PageScope := {}
  events : List BlockEvent := []

namespace Engine

/-- A pass with its chronicle. What a template did before it failed is in it too. -/
def passChronicle (template : LoadedTemplate) (data : Value) (scope : PageScope) :
    Script Engine (Chronicle (Draft × PageScope)) := do
  let (e, result) ← (pass template data scope).run.withStart
  let left := (template.template.render { registry := e.registry, data } (e.around scope)).2
  pure
    { result
      scope := left.scope.getD scope
      events := template.trace e.registry data (e.around scope) }

/-- A page that is composed, with its chronicle: the layout goes on in the scope that the view has
left. -/
def composeChronicle (arrangement : Arrangement) (template : LoadedTemplate)
    (layout : Option LoadedTemplate) (data : Value) : Script Engine (Chronicle String) := do
  let body ← passChronicle template data {}
  match body.result with
  | .error err => pure { body with result := .error err }
  | .ok (draft, scope) =>
    match layout with
    | none => pure { body with result := .ok (draft.text arrangement.outer) }
    | some layout =>
      let data := data.withField "body" (.string (draft.text arrangement.inner))
      let page ← passChronicle layout data scope
      pure
        { result := page.result.map fun (around, _) =>
            Draft.text { around with values := draft.values.extend around.values } arrangement.outer
          scope := page.scope
          events := body.events ++ page.events }

/-- A render with its chronicle. -/
def chronicle (name : String) (request : Request) (arrangement : Arrangement) :
    Script Engine (Chronicle String) := do
  match ← (select name request).run with
  | .error err => pure { result := .error err }
  | .ok (template, layout) => composeChronicle arrangement template layout request.data

/-- The chronicle of a pass gives the result of the pass. -/
theorem result_passChronicle (template : LoadedTemplate) (data : Value) (scope : PageScope) :
    Chronicle.result <$> passChronicle template data scope = (pass template data scope).run := by
  unfold passChronicle
  rw [map_bind]
  exact Script.snd_withStart _

/-- The chronicle of body and layout gives the result of composing them. -/
theorem result_composeChronicle (arrangement : Arrangement) (template : LoadedTemplate)
    (layout : Option LoadedTemplate) (data : Value) :
    Chronicle.result <$> composeChronicle arrangement template layout data =
      (compose arrangement template layout data).run := by
  unfold composeChronicle compose
  rw [map_bind, ExceptT.run_bind, ← result_passChronicle, bind_map_left]
  refine bind_congr fun body => ?_
  rcases body.result with err | ⟨draft, scope⟩
  · rfl
  cases layout with
  | none => rfl
  | some layout =>
    dsimp only
    unfold draftAround
    rw [map_bind, ExceptT.run_bind, ExceptT.run_bind, ← result_passChronicle]
    simp only [bind_map_left, bind_assoc]
    refine bind_congr fun page => ?_
    rcases page.result with err | ⟨around, after⟩
    · rfl
    · rfl

/-- A render ends as its chronicle says. -/
theorem result_chronicle (name : String) (request : Request) (arrangement : Arrangement) :
    Chronicle.result <$> chronicle name request arrangement =
      (render name request arrangement).run := by
  rw [render_eq_compose]
  unfold chronicle
  rw [map_bind, ExceptT.run_bind]
  refine bind_congr fun selected => ?_
  rcases selected with err | ⟨template, layout⟩
  · rfl
  · exact result_composeChronicle arrangement template layout request.data

/-- The scope that a pass leaves has its own history and then what is in the chronicle of the pass,
also where the pass fails. -/
theorem passChronicle_history (template : LoadedTemplate) (data : Value) {scope : PageScope}
    {events : List BlockEvent} (h : scope.History events) (e : Engine) :
    (passChronicle template data scope).Ensures .any (fun chronicle _ =>
      chronicle.scope.History (events ++ chronicle.events) ∧
        ∀ draft after, chronicle.result = .ok (draft, after) →
          after.History (events ++ chronicle.events)) e := by
  have hscope : (e.around scope).scope = some scope := rfl
  obtain ⟨after, hafter, hhistory⟩ :=
    h.exists_render hscope template.template { registry := e.registry, data }
  refine Script.ensures_bind.mpr (Script.ensures_withStart ?_)
  refine Script.Ensures.mono (fun result e' hpass => ⟨?_, hpass⟩) (pass_history template data h e)
  dsimp only
  rw [hafter]
  exact hhistory

/-- The layout's events follow the body's in one history, since the layout is rendered in the scope
that the body leaves. -/
theorem composeChronicle_history (arrangement : Arrangement) (template : LoadedTemplate)
    (layout : Option LoadedTemplate) (data : Value) (e : Engine) :
    (composeChronicle arrangement template layout data).Ensures .any
      (fun chronicle _ => chronicle.scope.History chronicle.events) e := by
  refine Script.ensures_bind.mpr
    (Script.Ensures.mono ?_ (passChronicle_history template data .fresh e))
  rintro ⟨_ | ⟨draft, scope⟩, left, events⟩ e' ⟨hleft, hscope⟩
  · exact hleft
  cases layout with
  | none => exact hleft
  | some layout =>
    have hpage := passChronicle_history layout
      (data.withField "body" (.string (draft.text arrangement.inner))) (hscope draft scope rfl) e'
    exact Script.ensures_bind.mpr (Script.Ensures.mono (fun page e'' h => h.1) hpage)

/-- The chronicle of a render is the history of the scope that it leaves. -/
theorem chronicle_history (name : String) (request : Request) (arrangement : Arrangement)
    (e : Engine) :
    (chronicle name request arrangement).Ensures .any
      (fun chronicle _ => chronicle.scope.History chronicle.events) e := by
  refine Script.ensures_bind.mpr (Script.ensures_any ?_ _ e)
  rintro (err | ⟨template, layout⟩) e'
  · exact PageScope.History.fresh
  · exact composeChronicle_history arrangement template layout request.data e'

end Engine

/-- What rendering templates in a scope does to its content blocks. -/
structure FragmentsKept : Prop where
  /-- Rendering in traced steps is rendering. -/
  traced : ∀ env limit template,
    (Traced.renderWithin env limit template).step = Template.renderWithin env limit template
  /-- A call that captures its body writes nothing, and what it captures comes after what the body
  captures and emits. -/
  contentFor : ∀ {call : Call} {bodies : Bodies} {name : String} {st within : RenderState}
      {scope : PageScope}, call.Names name → st.around.scope = some scope →
    (Call.runBody (bodies.body.map Traced.step)).run { st with out := "" } = (.ok (), within) →
    ∃ now, within.around.scope = some now ∧
      (call.withBodies bodies).runContentFor.run st = (.ok (),
        { within with out := st.out }.withBlocks now (now.blocks.capture name within.out)) ∧
      (Traced.runContentFor call bodies).trace st =
        (Traced.runBody bodies.body).trace { st with out := "" } ++ [.captured name within.out]
  /-- A call that emits a name writes what is left of it, and leaves the other names as they are. -/
  block : ∀ {call : Call} {name : String} {st : RenderState} {scope : PageScope},
    call.Names name → st.around.scope = some scope →
    ∃ blocks, call.runBlock.run st = (.ok (),
        { st with out := st.out ++ String.intercalate "\n" (scope.blocks.pending name) }.withBlocks
          scope blocks) ∧
      (Traced.runBlock call).trace st =
        [.emitted name (String.intercalate "\n" (scope.blocks.pending name))] ∧
      blocks.pending name = [] ∧
      ∀ other, other ≠ name → blocks.pending other = scope.blocks.pending other
  /-- Any template may be rendered in a scope, and goes on with its history. -/
  render : ∀ {scope : PageScope} {events : List BlockEvent}, scope.History events →
    ∀ {around : Surroundings}, around.scope = some scope → ∀ template env, ∃ after,
      (Template.render template env around).2.scope = some after ∧
        after.History (events ++ template.trace env around)
  /-- So do the passes of a render, whatever others do meanwhile. -/
  pass : ∀ (template : LoadedTemplate) (data : Value) {scope : PageScope}
      {events : List BlockEvent}, scope.History events → ∀ e : Engine,
    (Engine.pass template data scope).Ensures .any (fun r _ => ∀ draft after,
      r = .ok (draft, after) →
        after.History (events ++ template.trace e.registry data (e.around scope))) e
  /-- A render ends as its chronicle says. -/
  chronicled : ∀ name request arrangement,
    Chronicle.result <$> Engine.chronicle name request arrangement =
      (Engine.render name request arrangement).run
  /-- The chronicle of a render, what the view does and then what the layout does, accounts for the
  blocks that are left in the end, whatever others do meanwhile and however the render ends. -/
  whole : ∀ name request arrangement (e : Engine),
    (Engine.chronicle name request arrangement).Ensures .any (fun chronicle _ =>
      chronicle.scope.History chronicle.events ∧
        chronicle.scope.blocks.Accounts chronicle.events) e
  /-- Blocks account for what was done to them. -/
  accounts : ∀ {scope : PageScope} {events : List BlockEvent}, scope.History events →
    scope.blocks.Accounts events

/-- Captured fragments are emitted as they were captured, and none of them twice. -/
theorem fragmentsKept : FragmentsKept where
  traced := Traced.step_renderWithin
  contentFor {call bodies name st within scope} hname hscope hbody := by
    rw [← Traced.step_runBody] at hbody
    rw [← Traced.step_runContentFor]
    exact Traced.run_runContentFor hname hscope hbody
  block {call name st scope} hname hscope := by
    obtain ⟨hrun, htrace⟩ := Traced.run_runBlock hname hscope
    exact ⟨(scope.blocks.emit name).2, hrun, htrace, Blocks.pending_emit_self _ _,
      fun other hne => Blocks.pending_emit_of_ne hne _⟩
  render h _ hscope template env := h.exists_render hscope template env
  pass := Engine.pass_history
  chronicled := Engine.result_chronicle
  whole name request arrangement e :=
    Script.Ensures.mono (fun _ _ h => ⟨h, h.accounts⟩)
      (Engine.chronicle_history name request arrangement e)
  accounts := PageScope.History.accounts

/-- Sources for a page that captures two fragments for one name, and for its layout, which asks for
the name twice. -/
def gatheringReply (question : Question) (world : Unit) : question.Answer × Unit :=
  let capturing := fun fragment => "\x7b\x7b#contentFor 'a'\x7d\x7d" ++ fragment ++
    "\x7b\x7b/contentFor\x7d\x7d"
  let page := "\x7b\x7b!< main\x7d\x7d" ++ capturing "x" ++ "text" ++ capturing "y"
  let layout := "[\x7b\x7bblock 'a'\x7d\x7d][\x7b\x7bblock 'a'\x7d\x7d]\x7b\x7bbody\x7d\x7d"
  (Engine.pageAnswers page layout question, world)

/-- The layout emits both fragments at once where it first asks for them, and nothing where it asks
again. -/
theorem gathering_chronicle :
    let chronicle := ((Engine.chronicle "page" {} {}).run gatheringReply Engine.plain ()).1
    chronicle.result.toOption = some "[x\ny][]text" ∧
      chronicle.events =
        [.captured "a" "x", .captured "a" "y", .emitted "a" "x\ny", .emitted "a" ""] ∧
      chronicle.scope.blocks.Accounts chronicle.events := by
  have hwhole : ∀ reply : (q : Question) → Unit → q.Answer × Unit,
      let chronicle := ((Engine.chronicle "page" {} {}).run reply Engine.plain ()).1
      chronicle.scope.History chronicle.events ∧
        chronicle.scope.blocks.Accounts chronicle.events := fun reply =>
    Script.Ensures.run (fun _ _ => trivial) (fun _ => trivial)
      (fragmentsKept.whole "page" {} {} Engine.plain) ()
  exact ⟨by decide +kernel, by decide +kernel, (hwhole gatheringReply).2⟩

/-- A fragment within a fragment: the inner one is captured and emitted before the outer one is
captured. -/
example :
    let opening := "\x7b\x7b#contentFor 'a'\x7d\x7d"
    let emitting := "\x7b\x7bblock 'a'\x7d\x7d"
    let source := opening ++ "x" ++ opening ++ "y{{/contentFor}}" ++ emitting ++
      "{{/contentFor}}" ++ emitting ++ emitting
    let registry : Registry := { helpers := [("contentFor", .contentFor), ("block", .block)] }
    (Template.compile {} source).toOption.map (fun template =>
        template.trace { registry, data := .object [] } { scope := some {} }) =
      some [.captured "a" "y", .emitted "a" "y", .captured "a" "xy", .emitted "a" "xy",
        .emitted "a" ""] := by
  decide +kernel

end Views
