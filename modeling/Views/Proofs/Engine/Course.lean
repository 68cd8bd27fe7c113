import Views.Proofs.Engine.Hearing
/-!
# The course of a render

A render consists of parts that come one after the other: the partials, the default layout, the view
and its layout are read, the view is rendered, and the layout around it. `Engine.course` is a render
with its parts named, and `Course.reports` what happens in each of them when the render runs alone.
A render goes well just if nothing is wrong in any part that it consists of; else it ends in the
first part in which something is wrong, right there, and with that as its error
(`render_ends_at_first_problem`).

* **What is done** (`Engine.render_eq_course`): a render is its course, for every engine, source and
  arrangement. Nothing that is said of a course leaves a part of the render out, or adds one.
* **In which order**: `Course.Keeps` says which parts there are, one after the other; a part that
  fails is the last one, as the next is a function of what it gives.
* **With which end** (`Report.Tells`): a report lists what happened in a part, questions with their
  answers and templates with what rendering them gives, and what is wrong in these
  (`Happening.problem?`) is the error of the part, if anything is.

All parts that read come before the parts that render, so a layout that is missing keeps its view
from being rendered at all.
-/

namespace Views

/-! ## Parts and what happens in them -/

/-- The parts that a render may have. The first four read, the last two render; the last one is
there only if a layout was selected. -/
inductive Phase where
  | partials
  /-- The default layout is read. -/
  | standard
  | view
  /-- The layout that goes around the view is found. -/
  | layout
  /-- The view is rendered. -/
  | body
  /-- The layout is rendered around the body. -/
  | page
  deriving DecidableEq, Repr

/-- The parts of a render that goes well, in their order. -/
def Phase.plan (hasLayout : Bool) : List Phase :=
  [.partials, .standard, .view, .layout, .body] ++ if hasLayout then [.page] else []

/-- Whether a template may be read in a part. -/
def Phase.looksUp : Phase → Bool
  | .standard | .view | .layout => true
  | .partials | .body | .page => false

/-- What happens in a part of a render: a question is answered, or a template is rendered. That a
part writes to the engine is no happening, since nothing can go wrong with it. -/
inductive Happening where
  | asked (exchange : Exchange)
  | rendered (id : TemplateKey) (result : Except RenderFailure String)

/-- What is wrong with it. -/
def Happening.problem? (registry : Registry) : Happening → Option ViewError
  | asked exchange => exchange.problem? registry
  | rendered _ (.ok _) => none
  | rendered id (.error failure) => some (.failed id failure)

/-- The exchange in which a question was answered. -/
def Happening.exchange? : Happening → Option Exchange
  | asked exchange => some exchange
  | rendered _ _ => none

/-- The identity of a template that was rendered. -/
def Happening.rendered? : Happening → Option TemplateKey
  | asked _ => none
  | rendered id _ => some id

/-- What happened in a part of a render: the engine in which it began, the template that it was
about, if any, and the events in their order. -/
structure Report where
  phase : Phase
  engine : Engine
  subject : Option LoadedTemplate
  events : List Happening

namespace Report

/-- The exchanges of the part. -/
def exchanges (report : Report) : List Exchange := report.events.filterMap Happening.exchange?

/-- The questions of the part. -/
def questions (report : Report) : List Question := report.exchanges.map Exchange.question

/-- The templates that the part rendered. -/
def rendered (report : Report) : List TemplateKey := report.events.filterMap Happening.rendered?

/-- Nothing was wrong. -/
def Succeeds (registry : Registry) (report : Report) : Prop :=
  ∀ event ∈ report.events, event.problem? registry = none

/-- Something was wrong, and nothing happened after it. So a report that fails has a last happening,
and all those before it have no problem. -/
def Fails (registry : Registry) (report : Report) (err : ViewError) : Prop :=
  ∃ before last, report.events = before ++ [last] ∧ last.problem? registry = some err ∧
    ∀ event ∈ before, event.problem? registry = none

end Report

/-- What is asked in a part of a render, which is about some template if it comes after the view was
found: what the part needs and is not kept, or may not be reused. -/
inductive Phase.Asks (name : String) (request : Request) (e : Engine) :
    Phase → Option LoadedTemplate → List Question → Prop
  | partials : Asks name request e .partials none
      (if request.reuse && e.hasPartials then [] else [.partials])
  | noStandard (h : e.settings.defaultLayout = none) : Asks name request e .standard none []
  | keptStandard (hreuse : request.reuse = true) (hkept : e.defaultLayout.isSome) :
      Asks name request e .standard none []
  | standard {layout : String} (hname : e.settings.defaultLayout = some layout)
      (h : (request.reuse && e.defaultLayout.isSome) = false) :
      Asks name request e .standard none (e.asksFor request.reuse (e.keyOf layout))
  | view : Asks name request e .view none (e.asksFor request.reuse (e.keyOf name))
  /-- A layout is noted with the template. -/
  | noted {template : LoadedTemplate} (hreuse : request.reuse = true)
      (hnoted : (e.cache.layoutOf template.id).isSome) :
      Asks name request e .layout (some template) []
  /-- The template names a layout, or the request does. -/
  | named {template : LoadedTemplate} {layout : String}
      (hnoted : request.reuse = true → e.cache.layoutOf template.id = none)
      (hnames : Directive.find? template.source = some layout ∨
        Directive.find? template.source = none ∧ request.layout = .named layout) :
      Asks name request e .layout (some template)
        (e.asksFor request.reuse (.resolve template.id.directory layout e.settings.extname))
  | unnamed {template : LoadedTemplate} (hfind : Directive.find? template.source = none)
      (hlayout : ∀ layout, request.layout ≠ .named layout) :
      Asks name request e .layout (some template) []
  | settled {phase : Phase} {template : LoadedTemplate} (h : phase = .body ∨ phase = .page) :
      Asks name request e phase (some template) []
  | values {phase : Phase} {template : LoadedTemplate} (h : phase = .body ∨ phase = .page)
      (batch : List Pending) : Asks name request e phase (some template) [.values batch]

/-- What is rendered in a part of a render that is about some template: nothing before the layout
was found. -/
def Phase.renders (subject : Option LoadedTemplate) : Phase → List TemplateKey
  | .body | .page => (subject.map LoadedTemplate.id).toList
  | .partials | .standard | .view | .layout => []

/-! ## Renders with their parts named -/

/-- A part of a render, with the template that it is about, if there is one, and what it renders in
an engine before it asks anything. -/
structure Part (α : Type) where
  phase : Phase
  subject : Option LoadedTemplate := none
  rendering : Rendering α
  renders : Engine → List (TemplateKey × Except RenderFailure String) := fun _ => []

namespace Part

/-- A template is rendered, and the values of its tokens are waited for. -/
def passing (phase : Phase) (template : LoadedTemplate) (data : Value) (scope : PageScope) :
    Part (Engine.Draft × PageScope) where
  phase
  subject := some template
  rendering := Engine.pass template data scope
  renders e := [(template.id, (template.render e.registry data (e.around scope)).1)]

/-- What happens in the part, given what it hears. -/
def events {α : Type} (part : Part α) (e : Engine) (heard : List Exchange) : List Happening :=
  (part.renders e).map (fun p => .rendered p.1 p.2) ++ heard.map .asked

/-- What happens in the part when it runs alone. -/
def report {α ω : Type} (reply : (q : Question) → ω → q.Answer × ω) (part : Part α) (e : Engine)
    (w : ω) : Report where
  phase := part.phase
  engine := e
  subject := part.subject
  events := part.events e (part.rendering.run.heard reply e w)

end Part

/-- A render with its parts named. What comes after a part is a function of what the part gives, so
nothing comes after one that fails. -/
inductive Course (α : Type) : Type 1 where
  | done (result : α)
  | next {β : Type} (part : Part β) (rest : β → Course α)

namespace Course

variable {α ω : Type}

/-- The render itself. -/
def rendering : Course α → Rendering α
  | done result => pure result
  | next part rest => part.rendering >>= fun b => (rest b).rendering

/-- What happens in each part, up to one that fails. -/
def reports (reply : (q : Question) → ω → q.Answer × ω) : Course α → Engine → ω → List Report
  | done _, _, _ => []
  | next part rest, e, w => part.report reply e w ::
    match part.rendering.run.run reply e w with
    | (.ok b, e', w') => (rest b).reports reply e' w'
    | (.error _, _, _) => []

end Course

namespace Engine

/-- A render of a view with its parts named. -/
def course (arrangement : Arrangement) (name : String) (request : Request) (e : Engine) :
    Course String :=
  .next { phase := .partials, rendering := refreshPartials request.reuse } fun _ =>
  .next { phase := .standard, rendering := obtainDefault request.reuse } fun standard =>
  .next { phase := .view, rendering := obtain (e.keyOf name) request.reuse } fun template =>
  .next { phase := .layout, subject := some template,
          rendering := layoutFor template request standard } fun layout =>
  .next (.passing .body template request.data {}) fun (body, scope) =>
  match layout with
  | none => .done (body.text arrangement.outer)
  | some layout =>
    let data := request.data.withField "body" (.string (body.text arrangement.inner))
    .next (.passing .page layout data scope) fun (draft, _) =>
      let draft := { draft with values := body.values.extend draft.values }
      .done (draft.text arrangement.outer)

/-- The course of a render is the render. -/
theorem render_eq_course (arrangement : Arrangement) (name : String) (request : Request) :
    render name request arrangement =
      get >>= fun e => (course arrangement name request e).rendering := by
  rw [render_eq_compose]
  unfold select compose draftAround course
  simp only [bind_assoc, pure_bind, Course.rendering, Part.passing]
  refine bind_congr fun e => bind_congr fun _ => bind_congr fun standard => ?_
  refine bind_congr fun template => bind_congr fun layout => bind_congr fun passed => ?_
  cases layout with
  | none => rfl
  | some layout => rfl

end Engine

/-! ## Reports that tell how a render ends -/

section told

variable {α β ω : Type}

/-- A sequence of events explains an outcome where its first part ends well and its second part
explains the outcome. -/
theorem Explains.append {ps qs : List (Option ViewError)} {a : α} {r : Except ViewError β}
    (hps : Explains ps (.ok a)) (hqs : Explains qs r) : Explains (ps ++ qs) r := by
  cases r with
  | ok b => exact List.forall_mem_append.mpr ⟨hps, hqs⟩
  | error err =>
    obtain ⟨before, rfl, hbefore⟩ := hqs
    exact ⟨ps ++ before, by simp, List.forall_mem_append.mpr ⟨hps, hbefore⟩⟩

/-- How a part ends, given its report. -/
def Report.Tells (registry : Registry) (report : Report) : Except ViewError α → Prop
  | .ok _ => report.Succeeds registry
  | .error err => report.Fails registry err

/-- Reports of parts that come one after the other tell how the last one ends: all have succeeded,
or the last one has failed and those before it have succeeded. -/
def Told (registry : Registry) (reports : List Report) : Except ViewError α → Prop
  | .ok _ => ∀ report ∈ reports, report.Succeeds registry
  | .error err => ∃ before last, reports = before ++ [last] ∧ last.Fails registry err ∧
      ∀ report ∈ before, report.Succeeds registry

/-- A report tells of an outcome that its own happenings explain. -/
theorem Report.tells_of_explains {registry : Registry} {report : Report} {r : Except ViewError α}
    (h : Explains (report.events.map (Happening.problem? registry)) r) :
    report.Tells registry r := by
  cases r with
  | ok a => exact List.forall_mem_map.mp h
  | error err =>
    obtain ⟨before, hevents, hbefore⟩ := h
    obtain ⟨events, rest, hsplit, rfl, hrest⟩ := List.map_eq_append_iff.mp hevents
    obtain ⟨last, rfl, hlast⟩ := List.map_eq_singleton_iff.mp hrest
    exact ⟨events, last, hsplit, hlast, List.forall_mem_map.mp hbefore⟩

/-- One report more at the front, of a part that has succeeded. -/
theorem Told.cons {registry : Registry} {report : Report} {reports : List Report}
    {r : Except ViewError α} (hreport : report.Succeeds registry) (h : Told registry reports r) :
    Told registry (report :: reports) r := by
  cases r with
  | ok a => exact List.forall_mem_cons.mpr ⟨hreport, h⟩
  | error err =>
    obtain ⟨before, last, rfl, hlast, hbefore⟩ := h
    exact ⟨report :: before, last, rfl, hlast, List.forall_mem_cons.mpr ⟨hreport, hbefore⟩⟩

end told

/-! ## Courses that account for what happens in them -/

section sound

variable {α ω : Type} {start : Engine} {name : String} {request : Request}

/-- Wherever it begins, a part renders and asks what its phase does, and ends with what is wrong
with what happens in it. -/
structure Part.Sound (start : Engine) (name : String) (request : Request) (part : Part α) :
    Prop where
  renders : ∀ e, (part.renders e).map Prod.fst = part.phase.renders part.subject
  ends : ∀ e, start.SameRules e → part.rendering.Ends e fun heard r e' =>
    start.SameRules e' ∧
      Phase.Asks name request e part.phase part.subject (heard.map Exchange.question) ∧
      Explains ((part.events e heard).map (Happening.problem? start.registry)) r

/-- Each part of a course does so. -/
def Course.Sound (start : Engine) (name : String) (request : Request) : Course α → Prop
  | done _ => True
  | next part rest => part.Sound start name request ∧ ∀ b, (rest b).Sound start name request

/-- The report of a part records the questions the part asks, in order. -/
theorem Part.exchanges_report (reply : (q : Question) → ω → q.Answer × ω) (part : Part α)
    (e : Engine) (w : ω) :
    (part.report reply e w).exchanges = part.rendering.run.heard reply e w := by
  simp [Report.exchanges, report, events, List.filterMap_map, Function.comp_def,
    Happening.exchange?]

/-- And the templates it renders, where it renders any. -/
theorem Part.rendered_report (reply : (q : Question) → ω → q.Answer × ω) (part : Part α)
    (e : Engine) (w : ω) :
    (part.report reply e w).rendered = (part.renders e).map Prod.fst := by
  simp [Report.rendered, report, events, List.filterMap_map, Function.comp_def,
    Happening.rendered?, List.filterMap_eq_map']

/-- What a course hears is what its parts hear. -/
theorem Course.heard_eq (reply : (q : Question) → ω → q.Answer × ω) (course : Course α)
    (e : Engine) (w : ω) :
    course.rendering.run.heard reply e w =
      (course.reports reply e w).flatMap Report.exchanges := by
  induction course generalizing e w with
  | done result => rfl
  | next part rest ih =>
    rw [rendering, Rendering.heard_bind, reports, List.flatMap_cons, Part.exchanges_report]
    generalize part.rendering.run.run reply e w = out
    obtain ⟨r, e', w'⟩ := out
    cases r with
    | ok b => exact congrArg _ (ih b e' w')
    | error err => rfl

/-- The reports of a course of sound parts say what was asked and rendered and tell how it ends. -/
theorem Course.Sound.told {course : Course α} (h : course.Sound start name request)
    (reply : (q : Question) → ω → q.Answer × ω) {e : Engine} (hsame : start.SameRules e) (w : ω) :
    (∀ report ∈ course.reports reply e w,
        Phase.Asks name request report.engine report.phase report.subject report.questions ∧
          report.rendered = report.phase.renders report.subject) ∧
      Told start.registry (course.reports reply e w) (course.rendering.run.run reply e w).1 := by
  induction course generalizing e w with
  | done result => exact ⟨List.forall_mem_nil _, List.forall_mem_nil _⟩
  | next part rest ih =>
    obtain ⟨hpart, hrest⟩ := h
    obtain ⟨hsame', hasks, hexplains⟩ := hpart.ends e hsame ω reply w
    rw [← Part.exchanges_report] at hasks
    have hrenders := (part.rendered_report reply e w).trans (hpart.renders e)
    have htells : (part.report reply e w).Tells start.registry
        (part.rendering.run.run reply e w).1 := Report.tells_of_explains hexplains
    rw [rendering, Rendering.run_bind, reports, List.forall_mem_cons]
    generalize part.rendering.run.run reply e w = out at hsame' htells ⊢
    obtain ⟨r, e', w'⟩ := out
    cases r with
    | ok b =>
      obtain ⟨hreports, htold⟩ := ih b (hrest b) hsame' w'
      exact ⟨⟨⟨hasks, hrenders⟩, hreports⟩, htold.cons htells⟩
    | error err =>
      exact ⟨⟨⟨hasks, hrenders⟩, List.forall_mem_nil _⟩, [], _, rfl, htells, List.forall_mem_nil _⟩

/-! ### The parts of a render -/

open Engine

/-- A part that renders nothing is sound where its questions are those of its phase. -/
theorem Part.Sound.of_reads {phase : Phase} {subject : Option LoadedTemplate} {x : Rendering α}
    (hphase : phase.renders subject = [])
    (h : ∀ e, start.SameRules e →
      x.Ends e (Reads start (Phase.Asks name request e phase subject))) :
    Part.Sound start name request { phase, subject, rendering := x } := by
  refine ⟨fun _ => hphase.symm, fun e hsame => ?_⟩
  refine (h e hsame).mono fun heard r e' hreads => ⟨hreads.same, hreads.asks, ?_⟩
  rw [Part.events, List.map_nil, List.nil_append, List.map_map]
  exact hreads.explains

/-- A template is rendered without a question, and that is all that can go wrong. -/
theorem renderIn_ends {e : Engine} (hsame : start.SameRules e) (template : LoadedTemplate)
    (data : Value) (scope : PageScope) :
    (renderIn template data scope).Ends e fun heard r e' => heard = [] ∧ start.SameRules e' ∧
      Explains [Happening.problem? start.registry
        (.rendered template.id (template.render e.registry data (e.around scope)).1)] r := by
  unfold renderIn
  refine .get_bind ?_
  have haround : e.around scope =
    { scope := some scope, tokens := e.tokens, calls := e.calls } := rfl
  rw [← haround]
  generalize template.render e.registry data (e.around scope) = out
  obtain ⟨result, around⟩ := out
  have hsame' : start.SameRules { e with tokens := around.tokens, calls := around.calls } :=
    ⟨hsame.settings, hsame.preventIndent⟩
  cases result with
  | ok text => exact fun _ _ _ => ⟨rfl, hsame', List.forall_mem_singleton.mpr rfl⟩
  | error failure => exact fun _ _ _ => ⟨rfl, hsame', .error_singleton _⟩

/-- Nothing goes wrong while values are waited for. -/
theorem awaitValues_ends (scope : PageScope) (e : Engine) :
    (awaitValues scope).Ends e fun heard r e' => e' = e ∧ (∃ a, r = .ok a) ∧
      (heard = [] ∨ ∃ batch ends, heard = [⟨.values batch, ends⟩]) := by
  unfold awaitValues
  generalize scope.deferrals.take = taken
  obtain ⟨batch, deferrals⟩ := taken
  dsimp only
  cases batch.isEmpty with
  | true => exact fun _ _ _ => ⟨rfl, ⟨_, rfl⟩, .inl rfl⟩
  | false => exact fun _ _ _ => ⟨rfl, ⟨_, rfl⟩, .inr ⟨batch, _, rfl⟩⟩

/-- A pass over a template is sound: it asks nothing, and renders what its phase names. -/
theorem Part.Sound.passing {phase : Phase} (hphase : phase = .body ∨ phase = .page)
    (template : LoadedTemplate) (data : Value) (scope : PageScope) :
    (Part.passing phase template data scope).Sound start name request := by
  refine ⟨fun _ => by rcases hphase with rfl | rfl <;> rfl, fun e hsame => ?_⟩
  unfold Part.passing Engine.pass
  refine (renderIn_ends hsame template data scope).bind ?_ ?_
  · rintro _ ⟨raw, scope'⟩ e' ⟨rfl, hsame', hrendered⟩
    refine (awaitValues_ends scope' e').bind ?_ ?_
    · rintro heard ⟨values, scope''⟩ e'' ⟨rfl, -, hheard⟩
      refine .pure ⟨hsame', ?_⟩
      rw [List.nil_append, List.append_nil]
      obtain rfl | ⟨batch, ends, rfl⟩ := hheard
      · exact ⟨.settled hphase, hrendered⟩
      · exact ⟨.values hphase batch, hrendered.append (List.forall_mem_singleton.mpr rfl)⟩
    · rintro heard err e'' ⟨-, ⟨a, h⟩, -⟩
      cases h
  · rintro _ err e' ⟨rfl, hsame', hrendered⟩
    exact ⟨hsame', .settled hphase, hrendered⟩

/-- A render is sound part by part. -/
theorem Engine.sound_course (arrangement : Arrangement) (name : String) (request : Request)
    (e : Engine) : (course arrangement name request e).Sound e name request := by
  refine ⟨.of_reads rfl fun e' hsame => refreshPartials_ends hsame .partials, fun _ => ?_⟩
  refine ⟨.of_reads rfl fun e' hsame =>
    obtainDefault_ends hsame .noStandard .keptStandard .standard, fun standard => ?_⟩
  refine ⟨.of_reads rfl fun e' hsame => obtain_ends hsame ?_, fun template => ?_⟩
  · rw [← hsame.keyOf]
    exact .view
  refine ⟨.of_reads rfl fun e' hsame =>
    layoutFor_ends hsame .noted .named .unnamed standard, fun layout => ?_⟩
  refine ⟨.passing (.inl rfl) _ _ _, fun passed => ?_⟩
  cases layout with
  | none => exact trivial
  | some layout => exact ⟨.passing (.inr rfl) _ _ _, fun _ => trivial⟩

end sound

/-! ## Which parts a render has -/

section plan

variable {α ω : Type} {reply : (q : Question) → ω → q.Answer × ω} {e : Engine} {w : ω}

/-- A course keeps to a plan: its parts come in that order, and it goes well only after the last. -/
def Course.Keeps (reply : (q : Question) → ω → q.Answer × ω) (plan : List Phase)
    (course : Course α) (e : Engine) (w : ω) : Prop :=
  (course.reports reply e w).map Report.phase <+: plan ∧
    ((course.rendering.run.run reply e w).1.isOk →
      (course.reports reply e w).map Report.phase = plan)

theorem Course.Keeps.done (result : α) : (Course.done result).Keeps reply [] e w :=
  ⟨List.nil_prefix, fun _ => rfl⟩

/-- A course keeps to a plan where its first part has the plan's first phase and every way of going
on keeps to the rest. -/
theorem Course.Keeps.next {β : Type} {plan : List Phase} {part : Part β} {rest : β → Course α}
    (h : ∀ b e' w', part.rendering.run.run reply e w = (.ok b, e', w') →
      (rest b).Keeps reply plan e' w') :
    (Course.next part rest).Keeps reply (part.phase :: plan) e w := by
  unfold Keeps
  rw [rendering, Rendering.run_bind, reports, List.map_cons]
  rcases hrun : part.rendering.run.run reply e w with ⟨_ | b, e', w'⟩
  · exact ⟨by simp [Part.report], fun hok => by cases hok⟩
  · obtain ⟨horder, hall⟩ := h b e' w' hrun
    exact ⟨List.cons_prefix_cons.mpr ⟨rfl, horder⟩, fun hok => congrArg _ (hall hok)⟩

namespace Engine

/-- Whether a render that runs alone selects a layout. -/
def selectsLayout (reply : (q : Question) → ω → q.Answer × ω) (name : String) (request : Request)
    (e : Engine) (w : ω) : Bool :=
  match ((select name request).run.run reply e w).1 with
  | .ok (_, layout) => layout.isSome
  | .error _ => false

/-- A render keeps to the plan that goes with the layout that it selects, if it selects one. -/
theorem keeps_course (reply : (q : Question) → ω → q.Answer × ω) (arrangement : Arrangement)
    (name : String) (request : Request) (e : Engine) (w : ω) :
    (course arrangement name request e).Keeps reply
      (Phase.plan (selectsLayout reply name request e w)) e w := by
  refine .next fun _ e₁ w₁ hpartials => .next fun standard e₂ w₂ hstandard => ?_
  refine .next fun template e₃ w₃ hview => .next fun layout e₄ w₄ hlayout => ?_
  dsimp only at hpartials hstandard hview hlayout
  have hselects : selectsLayout reply name request e w = layout.isSome := by
    unfold selectsLayout
    rw [run_select, Rendering.run_bind, hpartials]
    dsimp only [selectLoaded]
    rw [Rendering.run_bind, hstandard]
    dsimp only
    rw [Rendering.run_bind, hview]
    dsimp only
    rw [Rendering.run_bind, hlayout]
    rfl
  rw [hselects]
  refine .next fun passed e₅ w₅ _ => ?_
  cases layout with
  | none => exact .done _
  | some layout => exact .next fun _ _ _ _ => .done _

end Engine

end plan

/-! ## How a render ends -/

/-- What the reports of a render say about its result. -/
structure Engine.Reported (e : Engine) (name : String) (request : Request) (hasLayout : Bool)
    (reports : List Report) (result : Except ViewError String) : Prop where
  /-- The parts come in their order. -/
  order : reports.map Report.phase <+: Phase.plan hasLayout
  /-- Each part asks for what it needs, and for nothing else. -/
  asks : ∀ report ∈ reports,
    Phase.Asks name request report.engine report.phase report.subject report.questions
  /-- The view and the layout are rendered in parts of their own. -/
  renders : ∀ report ∈ reports, report.rendered = report.phase.renders report.subject
  /-- The render goes well just if all parts of it do. -/
  ok_iff : (∃ page, result = .ok page) ↔
    reports.map Report.phase = Phase.plan hasLayout ∧
      ∀ report ∈ reports, report.Succeeds e.registry
  /-- An error is that of the first part that fails, and nothing happens after it. -/
  error_iff : ∀ err, result = .error err ↔ ∃ before last, reports = before ++ [last] ∧
    last.Fails e.registry err ∧ ∀ report ∈ before, report.Succeeds e.registry
  /-- Something is said not to be there just if the source said so of a template that was looked
  up. -/
  notFound_iff : ∀ err, result = .error err → (err.isNotFound = true ↔
    ∃ last ∈ reports.getLast?, last.phase.looksUp = true ∧ ∃ id missing,
      last.events.getLast? = some (.asked ⟨.template id, .error (.notFound missing)⟩))
  /-- That a source has no partials at all is no error. -/
  noPartials : ∀ err, result = .error err → ∀ last ∈ reports.getLast?, ∀ missing,
    last.events.getLast? ≠ some (.asked ⟨.partials, .error (.notFound missing)⟩)
  /-- A render finds nothing wrong with the set-up. -/
  not_setup : ∀ problem, result ≠ .error (.setup problem)

/-- What is wrong is said not to be there just if a source says so of a template, and it is never a
set-up. -/
theorem Happening.problem?_cases {registry : Registry} {event : Happening} {err : ViewError}
    (h : event.problem? registry = some err) :
    (∃ id missing, event = .asked ⟨.template id, .error (.notFound missing)⟩ ∧
      err = .source (.notFound missing)) ∨
    err.isNotFound = false ∧ ∀ problem, err ≠ .setup problem := by
  have huncompilable : ∀ broken, (ViewError.uncompilable broken).isNotFound = false ∧
      ∀ problem, ViewError.uncompilable broken ≠ .setup problem :=
    fun broken => ⟨rfl, fun _ h => by cases h⟩
  cases event with
  | rendered id result => cases result with
    | ok text => cases h
    | error failure =>
      cases h
      exact .inr ⟨rfl, fun _ h => by cases h⟩
  | asked exchange =>
    obtain ⟨question, answer⟩ := exchange
    cases question with
    | partials => cases answer with
      | ok partials =>
        obtain ⟨broken, -, rfl⟩ := Option.map_eq_some_iff.mp h
        exact .inr (huncompilable broken)
      | error fault => cases fault with
        | notFound id => cases h
        | unreadable id cause =>
          cases h
          exact .inr ⟨rfl, fun _ h => by cases h⟩
    | template id => cases answer with
      | ok text =>
        unfold problem? Exchange.problem? at h
        dsimp only at h
        split at h
        · cases h
        · cases h
          exact .inr (huncompilable _)
      | error fault => cases fault with
        | notFound missing =>
          cases h
          exact .inl ⟨id, missing, rfl, rfl⟩
        | unreadable missing cause =>
          cases h
          exact .inr ⟨rfl, fun _ h => by cases h⟩
    | values batch => cases h

/-- A report does not fail and succeed at once. -/
theorem Report.Fails.not_succeeds {registry : Registry} {report : Report} {err : ViewError}
    (h : report.Fails registry err) : ¬ report.Succeeds registry := by
  obtain ⟨before, last, hevents, hlast, -⟩ := h
  intro hsucceeds
  have hnone := hsucceeds last (by simp [hevents])
  rw [hlast] at hnone
  cases hnone

/-- A report fails with one error: the first problem it meets. -/
theorem Report.Fails.unique {registry : Registry} {report : Report} {err err' : ViewError}
    (h : report.Fails registry err) (h' : report.Fails registry err') : err = err' := by
  obtain ⟨before, last, hevents, hlast, -⟩ := h
  obtain ⟨before', last', hevents', hlast', -⟩ := h'
  rw [hevents] at hevents'
  obtain ⟨-, hsame⟩ := List.append_inj' hevents' rfl
  obtain rfl := List.singleton_inj.mp hsame
  exact Option.some.inj (hlast.symm.trans hlast')

/-- A template is asked for only where one is looked up. -/
theorem Phase.Asks.looksUp {name : String} {request : Request} {e : Engine} {phase : Phase}
    {subject : Option LoadedTemplate} {questions : List Question}
    (h : phase.Asks name request e subject questions) {id : TemplateKey}
    (hmem : .template id ∈ questions) : phase.looksUp = true := by
  cases h with
  | partials =>
    split at hmem
    · cases hmem
    · cases List.mem_singleton.mp hmem
  | noStandard | keptStandard | standard | view | noted | named | unnamed => rfl
  | settled => cases hmem
  | values => cases List.mem_singleton.mp hmem

/-- Reports that tell how a render ends say all about its result. -/
theorem Engine.Reported.of_told {e : Engine} {name : String} {request : Request} {hasLayout : Bool}
    {reports : List Report} {result : Except ViewError String}
    (horder : reports.map Report.phase <+: Phase.plan hasLayout)
    (hall : result.isOk → reports.map Report.phase = Phase.plan hasLayout)
    (hdoes : ∀ report ∈ reports,
      Phase.Asks name request report.engine report.phase report.subject report.questions ∧
        report.rendered = report.phase.renders report.subject)
    (htold : Told e.registry reports result) :
    e.Reported name request hasLayout reports result where
  order := horder
  asks report hmem := (hdoes report hmem).1
  renders report hmem := (hdoes report hmem).2
  ok_iff := by
    constructor
    · rintro ⟨page, rfl⟩
      exact ⟨hall rfl, htold⟩
    · rintro ⟨-, hsucceeds⟩
      cases result with
      | ok page => exact ⟨page, rfl⟩
      | error err =>
        obtain ⟨before, last, rfl, hlast, -⟩ := htold
        exact absurd (hsucceeds last (by simp)) hlast.not_succeeds
  error_iff err := by
    constructor
    · rintro rfl
      exact htold
    · rintro ⟨before, last, rfl, hlast, -⟩
      cases result with
      | ok page => exact absurd (htold last (by simp)) hlast.not_succeeds
      | error err' =>
        obtain ⟨before', last', heq, hlast', -⟩ := htold
        obtain ⟨-, hsame⟩ := List.append_inj' heq rfl
        obtain rfl := List.singleton_inj.mp hsame
        rw [hlast.unique hlast']
  notFound_iff := by
    rintro err rfl
    obtain ⟨before, last, rfl, ⟨events, event, hevents, hproblem, -⟩, -⟩ := htold
    have hevent : last.events.getLast? = some event := by rw [hevents, List.getLast?_concat]
    rw [List.getLast?_concat]
    -- The last thing that happened was either a template that is not found, or it was not.
    rcases Happening.problem?_cases hproblem with ⟨id, missing, rfl, rfl⟩ | ⟨hfound, hne⟩
    · have hmem : .template id ∈ last.questions := by
        simp [Report.questions, Report.exchanges, hevents, Happening.exchange?]
      refine iff_of_true rfl ⟨last, rfl, ?_, id, missing, hevent⟩
      exact (hdoes last (by simp)).1.looksUp hmem
    · refine iff_of_false (by simp [hfound]) ?_
      rintro ⟨_, ⟨⟩, -, id, missing, hmissing⟩
      rw [hevent] at hmissing
      cases hmissing
      cases hproblem
      cases hfound
  noPartials := by
    rintro err rfl
    obtain ⟨before, last, rfl, ⟨events, event, hevents, hproblem, -⟩, -⟩ := htold
    simp only [List.getLast?_concat, Option.mem_some_iff]
    rintro _ rfl missing hmissing
    rw [hevents, List.getLast?_concat] at hmissing
    cases hmissing
    cases hproblem
  not_setup := by
    rintro problem rfl
    obtain ⟨before, last, -, ⟨events, event, -, hproblem, -⟩, -⟩ := htold
    rcases Happening.problem?_cases hproblem with ⟨id, missing, -, herr⟩ | ⟨-, hne⟩
    · cases herr
    · exact hne problem rfl

/-- A render is its course: parts one after the other, each of which goes on from the engine that
the one before has left, and none of which follows one that fails. Alone it hears what its parts
hear. It goes well just if all of its parts do, and else it ends in the first part that fails, with
what was wrong there. -/
theorem render_ends_at_first_problem {ω : Type} (reply : (q : Question) → ω → q.Answer × ω)
    (arrangement : Arrangement) (name : String) (request : Request) (e : Engine) (w : ω) :
    let script := (Engine.render name request arrangement).run
    let reports := (Engine.course arrangement name request e).reports reply e w
    (Engine.render name request arrangement =
      get >>= fun e => (Engine.course arrangement name request e).rendering) ∧
    script.heard reply e w = reports.flatMap Report.exchanges ∧
      e.Reported name request (Engine.selectsLayout reply name request e w) reports
        (script.run reply e w).1 := by
  intro script reports
  have hheard : script.heard reply e w =
      (Engine.course arrangement name request e).rendering.run.heard reply e w := by
    unfold script
    rw [Engine.render_eq_course]
    rfl
  have hrun : script.run reply e w =
      (Engine.course arrangement name request e).rendering.run.run reply e w := by
    unfold script
    rw [Engine.render_eq_course]
    rfl
  rw [hheard, hrun]
  refine ⟨Engine.render_eq_course arrangement name request, Course.heard_eq _ _ _ _, ?_⟩
  obtain ⟨horder, hall⟩ := Engine.keeps_course reply arrangement name request e w
  obtain ⟨hdoes, htold⟩ :=
    (Engine.sound_course arrangement name request e).told reply (.refl e) w
  exact .of_told horder hall hdoes htold

/-- A render ends in the part in which the layout is missing that the view names. -/
example : ((Engine.course {} "page" {} Engine.plain).reports
    (fun question w => (Engine.pageAnswers "\x7b\x7b!< away\x7d\x7d" "" question, w)) Engine.plain
    ()).map Report.phase = [.partials, .standard, .view, .layout] := by decide +kernel

end Views
