import Views.Proofs.Engine.Selecting
import Views.Proofs.Engine.Passes
/-!
# Uncached renders

What an uncached render does to what the engine keeps: the templates kept and the mark that the
partials are registered stay as they are (`uncached_frame`), and so does the default layout unless
the render reads one, which is kept although it may not be reused. `uncached_keeps_iff` says when
nothing at all changes, and that then later renders select what they would have selected.

* **The exception** is the default layout: it is read in every render that has one configured, and
  is put in its own place whether the render may reuse it or not. A later cached render finds it
  there and does not read again (`uncached_default_stays`).
* **The criterion** is exact: `readDefault` is what the render reads of the default layout, and
  nothing changes just if that is nothing or what is kept already.
* **Later renders**: `SelectsAlike` compares what any later call selects, with any source, so that
  nothing that is kept in the one engine and not in the other can make a difference.

Engines that agree in all that an uncached render looks at (`Engine.Kindred`) are compared part by
part; their uncached renders read the same.
-/

namespace Views

open Engine

/-- What an engine keeps from one render to the next is the same: the entries of the cache, the
default layout and the mark that partials are registered. Registered partials and counters are no
part of it. -/
structure KeepsCached (e e' : Engine) : Prop where
  entries : e'.cache.entries = e.cache.entries
  defaultLayout : e'.defaultLayout = e.defaultLayout
  hasPartials : e'.hasPartials = e.hasPartials

/-- Whatever the sources answer, any render selects the same view and the same layout, or fails
alike. Two engines of which this holds cannot be told apart by what they keep. -/
def SelectsAlike (e e' : Engine) : Prop :=
  ∀ (ω : Type) (reply : (q : Question) → ω → q.Answer × ω) (w : ω) (name : String)
    (request : Request), ((select name request).run.run reply e' w).1 =
      ((select name request).run.run reply e w).1

/-- Registries that compile partials in the same way. -/
def SameIndent (r r' : Registry) : Prop := r'.preventIndent = r.preventIndent

/-- A partial is compiled in the same way, or refused for the same reason, and then both registries
have it. -/
theorem registers_sameIndent : Registers SameIndent := by
  intro r r' h name source
  have hoptions : r'.partialOptions name = r.partialOptions name := by
    unfold Registry.partialOptions
    rw [h]
  unfold Registry.addPartial
  rw [hoptions]
  cases Template.compile (r.partialOptions name) source with
  | ok template => exact .ok h
  | error e => exact .error _

/-- What is the same after one part of a render and after the next is the same after both. -/
theorem beside_trans {e₁ e₂ e₃ : Engine} (h : Beside SameIndent e₁ e₂)
    (h' : Beside SameIndent e₂ e₃) : Beside SameIndent e₁ e₃ where
  settings := h'.settings.trans h.settings
  entries := h'.entries.trans h.entries
  defaultLayout := h'.defaultLayout.trans h.defaultLayout
  hasPartials := h'.hasPartials.trans h.hasPartials
  registry := h'.registry.trans h.registry

/-- The terms of a part of a render that changes nothing that is kept. -/
def Terms.keeping : Terms Engine where
  rely := Eq
  allows _ _ := True
  owes := Beside SameIndent

/-- What may not be reused is not kept. -/
theorem Terms.keeping_reads : Terms.keeping.Reads false where
  partials := ⟨rfl, rfl, rfl, rfl, rfl⟩
  cache h := ⟨rfl, h rfl, rfl, rfl, rfl⟩
  hasPartials h := by cases h

/-- To draw tokens and to count calls changes nothing that is kept. -/
theorem Terms.keeping_draws : Terms.keeping.Draws :=
  fun _ _ => ⟨rfl, rfl, rfl, rfl, rfl⟩

/-- Engines with the same settings and the same registry that go on with the same tokens and the
same tallies, whatever each of them keeps. -/
structure Engine.Kindred (e d : Engine) : Prop where
  settings : d.settings = e.settings
  registry : d.registry = e.registry
  tokens : d.tokens = e.tokens
  calls : d.calls = e.calls

/-! ## Reading without reuse -/

section reading

variable {ω : Type} {reply : (q : Question) → ω → q.Answer × ω} {e d : Engine} {w : ω}

/-- The same partials are registered, up to one that is broken. -/
theorem kindred_register (partials : Partials) (h : e.Kindred d) :
    Parallel reply Kindred (register partials) (register partials) e d w := by
  refine .get_bind ?_
  rw [h.registry]
  generalize registerAll e.registry partials = registered
  obtain ⟨problem, registry⟩ := registered
  have h' : Kindred { e with registry } { d with registry } := { h with registry := rfl }
  refine .set_bind (s := { e with registry }) (t := { d with registry }) ?_
  cases problem with
  | none => exact .pure h' ()
  | some err => exact .throw h' _

/-- The partials are read in both engines, whether or not they are marked as registered. -/
theorem kindred_refreshPartials (h : e.Kindred d) :
    Parallel reply Kindred (refreshPartials false) (refreshPartials false) e d w := by
  refine .get_bind (.ask_bind fun answer w => .bind (.ofExcept h _) fun partials e d w h => ?_)
  exact .bind (kindred_register partials h) fun _ e d w h => .pure h ()

/-- What an answer comes to does not depend on what is kept. -/
theorem Cache.receive_result (cache cache' : Cache) (id : TemplateKey) (reuse : Bool)
    (answer : Except SourceError String) :
    (cache'.receive id reuse answer).1 = (cache.receive id reuse answer).1 := by
  unfold Cache.receive
  cases answer with
  | error e => rfl
  | ok text =>
    dsimp only
    cases LoadedTemplate.compile id text with
    | error e => rfl
    | ok template => rfl

/-- A template is read in both engines, whether or not it is kept. -/
theorem kindred_obtain (id : TemplateKey) (h : e.Kindred d) :
    Parallel reply Kindred (obtain id false) (obtain id false) e d w := by
  refine .get_bind ?_
  have hfound : (e.cache.consult id false).1 = none := rfl
  have hfound' : (d.cache.consult id false).1 = none := rfl
  generalize e.cache.consult id false = left at hfound
  generalize d.cache.consult id false = right at hfound'
  obtain ⟨_, cache⟩ := left
  obtain ⟨_, cache'⟩ := right
  cases hfound
  cases hfound'
  refine .set_bind (s := { e with cache }) (t := { d with cache := cache' }) ?_
  refine .ask_bind fun answer w => .get_bind ?_
  have hresult := Cache.receive_result cache cache' id false answer
  generalize cache.receive id false answer = left at hresult
  generalize cache'.receive id false answer = right at hresult
  obtain ⟨result, cache⟩ := left
  obtain ⟨result', cache'⟩ := right
  obtain rfl : result' = result := hresult
  exact .set_bind (s := { e with cache }) (t := { d with cache := cache' })
    (.ofExcept { h with } _)

theorem kindred_obtainDefault (h : e.Kindred d) :
    Parallel reply Kindred (obtainDefault false) (obtainDefault false) e d w := by
  refine .get_bind ?_
  unfold keyOf
  rw [h.settings]
  cases e.settings.defaultLayout with
  | none => exact .pure h none
  | some name =>
    refine .bind (kindred_obtain _ h) fun layout e d w h => ?_
    exact .bind (.modify { h with }) fun _ e d w h => .pure h _

end reading

variable {ω : Type} (reply : (q : Question) → ω → q.Answer × ω)

/-- A part of a render that owes to keep what is kept does so when it runs alone. -/
theorem Rendering.Behaves.keeps {α : Type} {x : Rendering α}
    (h : Rendering.Behaves Terms.keeping x) (e : Engine) (w : ω) :
    Beside SameIndent e (x.run.run reply e w).2.1 := by
  have howes := Script.Ensures.run_owes reply (fun _ _ => trivial) (fun _ => rfl) (h e) w
  generalize (x.run.run reply e w).2.1 = e' at howes
  induction howes with
  | refl => exact ⟨rfl, rfl, rfl, rfl, rfl⟩
  | tail _ hstep ih => exact beside_trans ih hstep

/-! ## The parts of an uncached render -/

/-- What is read before the view: the partials and the default layout. -/
def readDefaults (reuse : Bool) : Rendering (Option LoadedTemplate) := do
  refreshPartials reuse
  obtainDefault reuse

/-- What follows once the default layout is read. -/
def renderWith (arrangement : Arrangement) (id : TemplateKey) (request : Request)
    (standard : Option LoadedTemplate) : Rendering String := do
  let template ← obtain id request.reuse
  let layout ← layoutFor template request standard
  compose arrangement template layout request.data

/-- A render reads the defaults, and then does the rest. -/
theorem render_eq_renderWith (name : String) (request : Request) (arrangement : Arrangement) :
    render name request arrangement = get >>= fun e =>
      readDefaults request.reuse >>= renderWith arrangement (e.keyOf name) request := by
  rw [render_eq_compose]
  unfold select readDefaults renderWith
  simp only [bind_assoc, pure_bind]

/-- An engine that keeps another default layout, if there is one. -/
def keepingDefault (e : Engine) (layout : Option LoadedTemplate) : Engine :=
  { e with defaultLayout := layout.or e.defaultLayout }

/-- To keep a default layout leaves alone what is the same otherwise. -/
theorem beside_keepingDefault {e e' : Engine} (h : Beside SameIndent e e')
    (layout : Option LoadedTemplate) :
    Beside SameIndent (keepingDefault e layout) (keepingDefault e' layout) :=
  { h with defaultLayout := congrArg layout.or h.defaultLayout }

/-- The default layout is kept once it is read, even if it may not be reused. -/
theorem obtainDefault_keeps (e : Engine) (w : ω) :
    let out := (obtainDefault false).run.run reply e w
    Beside SameIndent (keepingDefault e out.1.toOption.join) out.2.1 := by
  unfold obtainDefault
  rw [Rendering.run_get_bind]
  cases e.settings.defaultLayout with
  | none => exact ⟨rfl, rfl, rfl, rfl, rfl⟩
  | some name =>
    dsimp only
    have hreuse : (false && e.defaultLayout.isSome) = false := rfl
    rw [hreuse, if_neg Bool.false_ne_true, Rendering.run_bind]
    have hobtain := (Rendering.obtain_behaves Terms.keeping_reads.cache (e.keyOf name)).keeps reply
      e w
    generalize (obtain (e.keyOf name) false).run.run reply e w = out at hobtain
    obtain ⟨r, e', w'⟩ := out
    cases r with
    | error err => exact hobtain
    | ok layout => exact beside_keepingDefault hobtain (some layout)

/-- The default layout that an uncached render reads, if it comes to that and there is one. It does
not come to that if the partials cannot be read or do not compile. -/
def readDefault (e : Engine) (w : ω) :
    Option LoadedTemplate :=
  ((readDefaults false).run.run reply e w).1.toOption.join

/-- It does not depend on what is kept, the default layout that is kept included. -/
theorem readDefault_eq_of_kindred {e d : Engine} (h : e.Kindred d) (w : ω) :
    readDefault reply d w = readDefault reply e w := by
  have hdefaults : Parallel reply Kindred (readDefaults false) (readDefaults false) e d w :=
    .bind (kindred_refreshPartials h) fun _ e d w h => kindred_obtainDefault h
  unfold readDefault
  rw [hdefaults.1]

/-- Reading the defaults for an uncached render changes what is kept in one respect: a default
layout that is read is kept. -/
theorem readDefaults_keeps (e : Engine) (w : ω) :
    Beside SameIndent (keepingDefault e (readDefault reply e w))
      ((readDefaults false).run.run reply e w).2.1 := by
  unfold readDefault readDefaults
  rw [Rendering.run_bind]
  have hrefresh := (Rendering.refreshPartials_behaves Terms.keeping_reads.partials
    Terms.keeping_reads.hasPartials).keeps reply e w
  generalize (refreshPartials false).run.run reply e w = out at hrefresh
  obtain ⟨r, e', w'⟩ := out
  cases r with
  | error err => exact hrefresh
  | ok _ => exact beside_trans (beside_keepingDefault hrefresh _) (obtainDefault_keeps reply e' w')

/-- What an uncached render does to what is kept: a default layout that it reads is kept, and
nothing else changes, however the render ends. -/
theorem uncached_frame {request : Request} (hreuse : request.reuse = false) (name : String)
    (arrangement : Arrangement) (e : Engine) (w : ω) :
    Beside SameIndent (keepingDefault e (readDefault reply e w))
      ((render name request arrangement).run.run reply e w).2.1 := by
  have hrun : (render name request arrangement).run.run reply e w =
      (readDefaults false >>= renderWith arrangement (e.keyOf name) request).run.run reply e w := by
    rw [render_eq_renderWith, hreuse]
    rfl
  rw [hrun, Rendering.run_bind]
  have hdefaults := readDefaults_keeps reply e w
  unfold readDefault at hdefaults ⊢
  generalize (readDefaults false).run.run reply e w = out at hdefaults ⊢
  obtain ⟨r, e', w'⟩ := out
  cases r with
  | error err => exact hdefaults
  | ok standard =>
    have hrest : Rendering.Behaves Terms.keeping
        (renderWith arrangement (e.keyOf name) request standard) := by
      unfold renderWith
      rw [hreuse]
      refine .bind (Rendering.obtain_behaves Terms.keeping_reads.cache _) fun template => ?_
      refine .bind (Rendering.layoutFor_behaves Terms.keeping_reads.cache _ hreuse _)
        fun layout => ?_
      exact Rendering.compose_behaves Terms.keeping_draws _ _ _ _
    exact beside_trans hdefaults (hrest.keeps reply e' w')

/-- An uncached render leaves what is kept exactly as it was, and later renders select what they
would have selected, if and only if it reads no default layout other than the one that is kept. -/
theorem uncached_keeps_iff {request : Request} (hreuse : request.reuse = false) (name : String)
    (arrangement : Arrangement) (e : Engine) (w : ω) :
    (KeepsCached e ((render name request arrangement).run.run reply e w).2.1 ∧
      SelectsAlike e ((render name request arrangement).run.run reply e w).2.1) ↔
      ∀ layout, readDefault reply e w = some layout → e.defaultLayout = some layout := by
  have hframe := uncached_frame reply hreuse name arrangement e w
  generalize ((render name request arrangement).run.run reply e w).2.1 = after at hframe
  have hslot : after.defaultLayout = (readDefault reply e w).or e.defaultLayout :=
    hframe.defaultLayout
  constructor
  · rintro ⟨hkeeps, -⟩ layout hread
    rw [← hkeeps.defaultLayout, hslot, hread]
    rfl
  · intro hread
    have hsame : after.defaultLayout = e.defaultLayout := by
      rw [hslot]
      cases hdefault : readDefault reply e w with
      | none => rfl
      | some layout => exact (hread layout hdefault).symm
    have hbeside : Beside SameIndent e after := { hframe with defaultLayout := hsame }
    refine ⟨⟨hframe.entries, hsame, hframe.hasPartials⟩, fun ω' reply' w' name' request' => ?_⟩
    exact (parallel_select registers_sameIndent name' request' hbeside).1

/-! A page and a layout of which there are two editions. -/

/-- Sources for a page and for an edition of its layout. -/
def editionReply (layout : String) : (q : Question) → Unit → q.Answer × Unit
  | .partials, w => (.ok [], w)
  | .template id, w =>
    (if id.text = "page.hbs" then .ok "text"
    else if id.text = "main.hbs" then .ok layout
    else .error (.notFound id.text), w)
  | .values batch, w => (arrivals batch, w)

/-- An engine that has read nothing yet, with a default layout if one is given. -/
def newEngine (defaultLayout : Option String) : Engine :=
  { settings := { defaultLayout }, registry := .standard }

/-- An engine that keeps the first edition as its default layout. -/
def keptEngine : Engine :=
  keepingDefault (newEngine (some "main"))
    (readDefault (editionReply "first") (newEngine (some "main")) ())

/-- An uncached render that reads the very default layout that is kept leaves all that is kept as
it was. -/
theorem uncached_keeps_same_default :
    keptEngine.defaultLayout.map LoadedTemplate.source = some "first" ∧
      (readDefault (editionReply "first") keptEngine ()).isSome ∧
      KeepsCached keptEngine
        ((render "page" {}).run.run (editionReply "first") keptEngine ()).2.1 ∧
      SelectsAlike keptEngine
        ((render "page" {}).run.run (editionReply "first") keptEngine ()).2.1 := by
  refine ⟨by decide +kernel, by decide +kernel, ?_⟩
  refine (uncached_keeps_iff (editionReply "first") rfl "page" {} keptEngine ()).mpr
    fun layout hread => ?_
  have hkindred : (newEngine (some "main")).Kindred keptEngine := ⟨rfl, rfl, rfl, rfl⟩
  rw [readDefault_eq_of_kindred (editionReply "first") hkindred] at hread
  unfold keptEngine keepingDefault
  rw [hread]
  rfl

/-- An uncached render keeps the first edition of the layout, and a later cached one takes that
where it would have read the second. -/
theorem uncached_default_stays :
    ¬ KeepsCached (newEngine (some "main"))
        ((render "page" {}).run.run (editionReply "first") (newEngine (some "main")) ()).2.1 ∧
      (((select "page" { reuse := true }).run.run (editionReply "second")
        ((render "page" {}).run.run (editionReply "first") (newEngine (some "main")) ()).2.1
        ()).1.toOption.bind Prod.snd).map LoadedTemplate.source = some "first" ∧
      (((select "page" { reuse := true }).run.run (editionReply "second")
        (newEngine (some "main")) ()).1.toOption.bind Prod.snd).map LoadedTemplate.source =
        some "second" := by
  refine ⟨fun hkeeps => ?_, by decide +kernel, by decide +kernel⟩
  have hsome : ((render "page" {}).run.run (editionReply "first") (newEngine (some "main"))
      ()).2.1.defaultLayout.isSome := by decide +kernel
  rw [hkeeps.defaultLayout] at hsome
  cases hsome

end Views
