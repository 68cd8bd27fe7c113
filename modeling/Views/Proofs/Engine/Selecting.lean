import Views.Proofs.Engine.Passes
import Views.Proofs.Engine.Rules
import Views.Proofs.Render.Trace
/-!
# Selecting a view and a layout

What is read before a render goes into the registry, the cache and the default layout; `Terms.Reads`
lists these writes and `Rendering.select_behaves` says that there are no others. What is selected
depends on what is kept and not on the helpers: `parallel_select` says that engines which keep
the same select the same, and keep the same afterwards.

The second half is about helpers. Whether helpers write tokens or values does not matter for what is
read, as nothing is rendered before everything is read; the registries of two engines need only be
related in a way that registering partials preserves (`Registers`). The direct engine is the main
case.
-/

namespace Views

open Engine

/-- Terms that let a render write what it reads; what may not be reused is not kept. The default
layout is the exception: it is kept in its own place whether it may be reused or not. -/
structure Terms.Reads (terms : Terms Engine) (reuse : Bool) : Prop where
  partials : ∀ {e : Engine} {partials},
    terms.owes e { e with registry := { e.registry with partials } }
  cache : ∀ {e : Engine} {cache : Cache}, (reuse = false → cache.entries = e.cache.entries) →
    terms.owes e { e with cache }
  hasPartials : ∀ {e : Engine}, reuse = true → terms.owes e { e with hasPartials := true }

/-- Terms that let a render draw tokens and count calls. -/
def Terms.Draws (terms : Terms Engine) : Prop :=
  ∀ {e : Engine} {tokens : TokenSupply} {calls : Assoc String Nat},
    tokens.source = e.tokens.source → e.tokens.used ≤ tokens.used →
      terms.owes e { e with tokens, calls }

/-- Registering partials changes nothing else in a registry. -/
theorem registerAll_eq (r : Registry) (partials : Partials) :
    (registerAll r partials).2 = { r with partials := (registerAll r partials).2.partials } := by
  induction partials generalizing r with
  | nil => rfl
  | cons p rest ih =>
    obtain ⟨name, source⟩ := p
    unfold registerAll Registry.addPartial
    cases Template.compile (r.partialOptions name) source with
    | error e => rfl
    | ok template => exact ih { r with partials := r.partials.put name template }

namespace Rendering

variable {terms : Terms Engine} {e : Engine}

/-- Under some terms a part of a render owes nothing that it does not keep to, wherever it starts
and however it ends. -/
def Behaves {α : Type} (terms : Terms Engine) (x : Rendering α) : Prop :=
  ∀ e, x.Ensures terms (fun _ _ => True) e

namespace Behaves

variable {α β : Type}

theorem pure (a : α) : Behaves terms (pure a) := fun _ => trivial

/-- Parts that keep to the terms do so one after the other. -/
theorem bind {x : Rendering α} {f : α → Rendering β} (hx : Behaves terms x)
    (hf : ∀ a, Behaves terms (f a)) : Behaves terms (x >>= f) :=
  fun e => (hx e).bind (fun a e _ => hf a e) fun _ _ _ => trivial

/-- A part that begins with a look at the engine keeps to the terms if it does so in each engine. -/
theorem get_bind {f : Engine → Rendering β}
    (h : ∀ e, (f e).Ensures terms (fun _ _ => True) e) : Behaves terms (get >>= f) := h

/-- To ask a question writes nothing. -/
theorem ask (q : Question) : Behaves terms (ExceptT.lift (Script.question q)) :=
  fun _ _ _ _ _ => trivial

/-- What every write of a part of a render leaves related, the part leaves related if nothing
happens while it waits. -/
theorem frame {rel : Engine → Engine → Prop} (hrefl : ∀ e, rel e e)
    (htrans : ∀ {e e' e''}, rel e e' → rel e' e'' → rel e e'') {x : Rendering α}
    (h : Behaves { Terms.still with owes := rel } x) (e : Engine) :
    x.Ensures .still (fun _ e' => rel e e') e := by
  have hrely : ∀ {e e' : Engine}, e' = e → rel e e' := by
    rintro _ e rfl
    exact hrefl e
  have hwithin := (h e).within hrefl htrans id hrely
  exact (hwithin.mono fun _ _ h => h.2).of_terms id id fun _ => trivial

end Behaves

section select

variable {reuse : Bool}

/-- Registering partials keeps to terms that allow a registry to be written. -/
theorem register_behaves
    (hpartials : ∀ {e : Engine} {partials},
      terms.owes e { e with registry := { e.registry with partials } })
    (partials : Partials) : Behaves terms (register partials) := by
  intro e
  refine .register ?_ trivial
  rw [registerAll_eq]
  exact hpartials

/-- So does reading them, if the terms allow the mark to be set where it is set. -/
theorem refreshPartials_behaves
    (hpartials : ∀ {e : Engine} {partials},
      terms.owes e { e with registry := { e.registry with partials } })
    (hflag : ∀ {e : Engine}, reuse = true → terms.owes e { e with hasPartials := true }) :
    Behaves terms (refreshPartials reuse) := by
  intro e
  refine .refreshPartials (fun _ => trivial) fun _ answer _ e' _ => ⟨fun _ _ => trivial, ?_⟩
  intro set _
  refine (register_behaves hpartials set e').mono fun r e'' _ => ?_
  cases r with
  | error err => trivial
  | ok _ => exact ⟨fun hreuse => ⟨hflag hreuse, trivial⟩, fun _ => trivial⟩

variable (hcache : ∀ {e : Engine} {cache : Cache},
  (reuse = false → cache.entries = e.cache.entries) → terms.owes e { e with cache })

include hcache

/-- Obtaining a template writes the cache, and nothing else. -/
theorem obtain_behaves (id : TemplateKey) : Behaves terms (obtain id reuse) := by
  intro e
  refine .obtain (fun entry _ _ => ⟨hcache fun _ => rfl, trivial⟩) fun _ => ?_
  refine ⟨hcache fun _ => rfl, fun answer _ e' _ => ⟨hcache fun hreuse => ?_, trivial⟩⟩
  rw [hreuse]
  exact Cache.receive_entries _ _ _

/-- Obtaining the default layout writes the cache and the default layout. -/
theorem obtainDefault_behaves
    (hdefault : ∀ {e : Engine} {layout}, terms.owes e { e with defaultLayout := some layout }) :
    Behaves terms (obtainDefault reuse) := by
  intro e
  refine .obtainDefault (fun _ => trivial) (fun _ _ _ => trivial) fun name _ => ?_
  refine (obtain_behaves hcache _ e).mono fun r e' _ => ?_
  cases r with
  | error err => trivial
  | ok layout => exact ⟨hdefault, trivial⟩

/-- Finding the layout of a view writes the cache: an entry, or a layout noted with one. -/
theorem layoutFor_behaves (template : LoadedTemplate) {request : Request}
    (hrequest : request.reuse = reuse) (standard : Option LoadedTemplate) :
    Behaves terms (layoutFor template request standard) := by
  subst hrequest
  intro e
  refine .layoutFor (fun _ _ _ => trivial) (fun name _ => ?directive) (fun name _ _ => ?named)
    (fun _ _ => trivial) fun _ _ => trivial
  case directive =>
    refine (obtain_behaves hcache _ e).mono fun r e' _ => ?_
    cases r with
    | error err => trivial
    | ok layout =>
      refine ⟨fun hreuse => ⟨hcache fun hfresh => ?_, trivial⟩, fun _ => trivial⟩
      rw [hreuse] at hfresh
      cases hfresh
  case named => exact (obtain_behaves hcache _ e).mono fun _ _ _ => trivial

end select

/-! ## Whole renders -/

/-- What a template draws beyond the page is tokens and tallies. -/
theorem renderIn_behaves (hdraws : terms.Draws) (template : LoadedTemplate) (data : Value)
    (scope : PageScope) : Behaves terms (renderIn template data scope) := by
  refine .get_bind fun e => ?_
  have hreaches := template.template.render_acts { registry := e.registry, data } (e.around scope)
  obtain ⟨scope', batch, -, hdrawn⟩ := hreaches.draws rfl
  refine .set_bind (hdraws hdrawn.source_eq ?_) ?_
  · have hused := hdrawn.used_eq
    exact Nat.le.intro hused.symm
  · split
    · exact .pure trivial
    · exact .throw trivial

/-- To wait for values writes nothing. -/
theorem awaitValues_behaves (scope : PageScope) : Behaves terms (awaitValues scope) := by
  unfold awaitValues
  dsimp only
  split
  · exact .pure _
  · exact .bind (.ask _) fun _ => .pure _

/-- A pass writes the tokens and the tallies of calls, and nothing else. -/
theorem pass_behaves (hdraws : terms.Draws) (template : LoadedTemplate) (data : Value)
    (scope : PageScope) : Behaves terms (pass template data scope) :=
  .bind (renderIn_behaves hdraws _ _ _) fun _ => .bind (awaitValues_behaves _) fun _ => .pure _

/-- So does composing a page, which is one pass or two. -/
theorem compose_behaves (hdraws : terms.Draws) (arrangement : Arrangement)
    (template : LoadedTemplate) (layout : Option LoadedTemplate) (data : Value) :
    Behaves terms (compose arrangement template layout data) := by
  refine .bind (pass_behaves hdraws _ _ _) fun body => ?_
  cases layout with
  | none => exact .pure _
  | some layout => exact .bind (.bind (pass_behaves hdraws _ _ _) fun _ => .pure _) fun _ => .pure _

/-- Selecting a view and a layout writes what reading writes: the registry, the mark, the cache and
the default layout. -/
theorem select_behaves {request : Request} (hreads : terms.Reads request.reuse)
    (hdefault : ∀ {e : Engine} {layout}, terms.owes e { e with defaultLayout := some layout })
    (name : String) : Behaves terms (select name request) := by
  refine .get_bind fun e => ?_
  refine Behaves.bind (refreshPartials_behaves hreads.partials hreads.hasPartials) (fun _ => ?_) e
  refine .bind (obtainDefault_behaves hreads.cache hdefault) fun standard => ?_
  refine .bind (obtain_behaves hreads.cache _) fun template => ?_
  exact .bind (layoutFor_behaves hreads.cache _ rfl _) fun layout => .pure _

end Rendering

/-- No token is given out and no call counted while a view and a layout are selected. -/
theorem select_draws_nothing (name : String) (request : Request) (e : Engine) :
    (select name request).Ensures .still
      (fun _ e' => e'.tokens = e.tokens ∧ e'.calls = e.calls) e := by
  let same : Engine → Engine → Prop := fun e e' => e'.tokens = e.tokens ∧ e'.calls = e.calls
  let terms : Terms Engine := { Terms.still with owes := same }
  have hreads : terms.Reads request.reuse := ⟨⟨rfl, rfl⟩, fun _ => ⟨rfl, rfl⟩, fun _ => ⟨rfl, rfl⟩⟩
  have hselect : Rendering.Behaves terms (select name request) :=
    Rendering.select_behaves hreads ⟨rfl, rfl⟩ name
  exact hselect.frame (fun _ => ⟨rfl, rfl⟩) (fun h h' => ⟨h'.1.trans h.1, h'.2.trans h.2⟩) e

/-- Selecting a view changes no helper. -/
theorem select_helpers (name : String) (request : Request) (e : Engine) :
    (select name request).Ensures .still
      (fun _ e' => e'.registry.helpers = e.registry.helpers) e := by
  let same : Engine → Engine → Prop := fun e e' => e'.registry.helpers = e.registry.helpers
  have hreads : Terms.Reads { Terms.still with owes := same } request.reuse :=
    ⟨rfl, fun _ => rfl, fun _ => rfl⟩
  refine (Rendering.select_behaves hreads ?_ name).frame (fun _ => ?_) (fun h h' => ?_) e
  · exact rfl
  · exact rfl
  · exact Eq.trans h' h

variable {ω : Type} {reply : (q : Question) → ω → q.Answer × ω}

/-! ## Engines that keep the same -/

/-- Two engines with the same settings keep the same, and their registries are related. The supply
of tokens and the tallies of helpers may differ. -/
structure Beside (rel : Registry → Registry → Prop) (e d : Engine) : Prop where
  settings : d.settings = e.settings
  entries : d.cache.entries = e.cache.entries
  defaultLayout : d.defaultLayout = e.defaultLayout
  hasPartials : d.hasPartials = e.hasPartials
  registry : rel e.registry d.registry

/-- Partials compile to related registries, or not for the same reason. -/
def Registers (rel : Registry → Registry → Prop) : Prop :=
  ∀ {r r'}, rel r r' → ∀ name source,
    Alike rel (r.addPartial name source) (r'.addPartial name source)

/-- Partials that are registered one after the other leave registries related, and fail in the same
way. -/
theorem Registers.all {rel : Registry → Registry → Prop} (hrel : Registers rel)
    (partials : Partials) {r r' : Registry} (h : rel r r') :
    (registerAll r' partials).1 = (registerAll r partials).1 ∧
      rel (registerAll r partials).2 (registerAll r' partials).2 := by
  induction partials generalizing r r' with
  | nil => exact ⟨rfl, h⟩
  | cons p rest ih =>
    obtain ⟨name, source⟩ := p
    have hadd := hrel h name source
    unfold registerAll
    generalize r.addPartial name source = left at hadd
    generalize r'.addPartial name source = right at hadd
    cases hadd with
    | ok hab => exact ih hab
    | error e => exact ⟨rfl, h⟩

/-- Two parts of a render, each started from its own engine, end in the same way, with the same
questions asked, and leave engines that are related. -/
def Parallel {α : Type} (reply : (q : Question) → ω → q.Answer × ω) (rel : Engine → Engine → Prop)
    (x y : Rendering α) (e d : Engine) (w : ω) : Prop :=
  (y.run.run reply d w).1 = (x.run.run reply e w).1 ∧
    rel (x.run.run reply e w).2.1 (y.run.run reply d w).2.1 ∧
    (y.run.run reply d w).2.2 = (x.run.run reply e w).2.2

namespace Parallel

variable {α β : Type} {rel : Engine → Engine → Prop} {e d : Engine} {w : ω}

theorem pure (h : rel e d) (a : α) :
    Parallel reply rel (pure a : Rendering α) (Pure.pure a) e d w :=
  ⟨rfl, h, rfl⟩

theorem throw (h : rel e d) (err : ViewError) :
    Parallel reply rel (throw err : Rendering α) (throwThe ViewError err) e d w :=
  ⟨rfl, h, rfl⟩

theorem ofExcept (h : rel e d) (r : Except ViewError α) :
    Parallel reply rel (ExceptT.mk (Pure.pure r)) (ExceptT.mk (Pure.pure r)) e d w :=
  ⟨rfl, h, rfl⟩

/-- Two parts beside two others, if what follows them is beside each other wherever it begins. -/
theorem bind {x y : Rendering α} {f g : α → Rendering β} (hx : Parallel reply rel x y e d w)
    (hf : ∀ a {e d w}, rel e d → Parallel reply rel (f a) (g a) e d w) :
    Parallel reply rel (x >>= f) (y >>= g) e d w := by
  unfold Parallel at hx ⊢
  rw [Rendering.run_bind, Rendering.run_bind]
  generalize x.run.run reply e w = left at hx
  generalize y.run.run reply d w = right at hx
  obtain ⟨r, e', w'⟩ := left
  obtain ⟨r', d', w''⟩ := right
  obtain ⟨hr, hrel, hw⟩ := hx
  obtain rfl : r' = r := hr
  obtain rfl : w'' = w' := hw
  cases r' with
  | ok a => exact hf a hrel
  | error err => exact ⟨rfl, hrel, rfl⟩

/-- Looks at the engines, if what follows goes with what each engine is. -/
theorem get_bind {f g : Engine → Rendering β} (h : Parallel reply rel (f e) (g d) e d w) :
    Parallel reply rel (get >>= f) (get >>= g) e d w := h

/-- Writes to the engines, if what follows goes with what was written. -/
theorem set_bind {s t : Engine} {f g : Unit → Rendering β}
    (h : Parallel reply rel (f ()) (g ()) s t w) :
    Parallel reply rel (set s >>= f) (set t >>= g) e d w := h

/-- Changes to the engines that leave them related. -/
theorem modify {f g : Engine → Engine} (h : rel (f e) (g d)) :
    Parallel reply rel (modify f) (modify g) e d w := ⟨rfl, h, rfl⟩

/-- Both ask the same question, so that both hear the same answer. -/
theorem ask_bind {q : Question} {f g : q.Answer → Rendering β}
    (h : ∀ answer {w}, Parallel reply rel (f answer) (g answer) e d w) :
    Parallel reply rel (ExceptT.lift (Script.question q) >>= f)
      (ExceptT.lift (Script.question q) >>= g) e d w := h _

end Parallel

section parallel

variable {rel : Registry → Registry → Prop} {e d : Engine} {w : ω} (hrel : Registers rel)

include hrel

/-- Engines that differ in their registries alone register partials in the same way. -/
theorem parallel_register (partials : Partials) (h : Beside rel e d) :
    Parallel reply (Beside rel) (register partials) (register partials) e d w := by
  refine .get_bind ?_
  obtain ⟨hproblem, hregistry⟩ := hrel.all partials h.registry
  generalize registerAll e.registry partials = left at hproblem hregistry
  generalize registerAll d.registry partials = right at hproblem hregistry
  obtain ⟨problem, registry⟩ := left
  obtain ⟨problem', registry'⟩ := right
  obtain rfl : problem' = problem := hproblem
  refine .set_bind (s := { e with registry }) (t := { d with registry := registry' }) ?_
  have h' : Beside rel { e with registry } { d with registry := registry' } :=
    { h with registry := hregistry }
  cases problem' with
  | none => exact .pure h' ()
  | some err => exact .throw h' _

/-- They read the partials in the same way. -/
theorem parallel_refreshPartials (reuse : Bool) (h : Beside rel e d) :
    Parallel reply (Beside rel) (refreshPartials reuse) (refreshPartials reuse) e d w := by
  refine .get_bind ?_
  rw [h.hasPartials]
  split
  · exact .pure h ()
  · refine .ask_bind fun answer w => .bind (.ofExcept h _) fun partials e d w h => ?_
    refine .bind (parallel_register hrel partials h) fun _ e d w h => ?_
    split
    · exact .modify { h with hasPartials := rfl }
    · exact .pure h ()

omit hrel

/-- They obtain the same template, since what they keep is the same. -/
theorem parallel_obtain (id : TemplateKey) (reuse : Bool) (h : Beside rel e d) :
    Parallel reply (Beside rel) (obtain id reuse) (obtain id reuse) e d w := by
  refine .get_bind ?_
  have hfound := Cache.consult_eq_of_entries h.entries id reuse
  have hentries : (d.cache.consult id reuse).2.entries = (e.cache.consult id reuse).2.entries := by
    rw [Cache.consult_entries, Cache.consult_entries, h.entries]
  generalize e.cache.consult id reuse = left at hfound hentries
  generalize d.cache.consult id reuse = right at hfound hentries
  obtain ⟨found, cache⟩ := left
  obtain ⟨found', cache'⟩ := right
  obtain rfl : found' = found := hfound
  refine .set_bind (s := { e with cache }) (t := { d with cache := cache' }) ?_
  cases found' with
  | some template => exact .pure { h with entries := hentries } template
  | none =>
    refine .ask_bind fun answer w => .get_bind ?_
    obtain ⟨hresult, hentries⟩ := Cache.receive_eq_of_entries hentries id reuse answer
    generalize cache.receive id reuse answer = left at hresult hentries
    generalize cache'.receive id reuse answer = right at hresult hentries
    obtain ⟨result, cache⟩ := left
    obtain ⟨result', cache'⟩ := right
    obtain rfl : result' = result := hresult
    exact .set_bind (s := { e with cache }) (t := { d with cache := cache' })
      (.ofExcept { h with entries := hentries } _)

/-- They obtain the same default layout. -/
theorem parallel_obtainDefault (reuse : Bool) (h : Beside rel e d) :
    Parallel reply (Beside rel) (obtainDefault reuse) (obtainDefault reuse) e d w := by
  refine .get_bind ?_
  unfold keyOf
  rw [h.settings, h.defaultLayout]
  split
  · exact .pure h none
  · split
    · exact .pure h _
    · refine .bind (parallel_obtain _ _ h) fun layout e d w h => ?_
      refine .bind (.modify { h with defaultLayout := rfl }) fun _ e d w h => .pure h _

/-- They find the same layout for a view. -/
theorem parallel_layoutFor (template : LoadedTemplate) (request : Request)
    (standard : Option LoadedTemplate) (h : Beside rel e d) :
    Parallel reply (Beside rel) (layoutFor template request standard)
      (layoutFor template request standard) e d w := by
  have hbeside : ∀ name {e d w}, Beside rel e d → Parallel reply (Beside rel)
      (obtainBeside template.id name request.reuse) (obtainBeside template.id name request.reuse)
      e d w := by
    intro name e d w h
    refine .get_bind ?_
    rw [h.settings]
    exact parallel_obtain _ _ h
  refine .get_bind ?_
  unfold Cache.layoutOf
  rw [Cache.get?_eq_of_entries h.entries]
  split
  · exact .pure h _
  · split
    · refine .bind (hbeside _ h) fun layout e d w h => .bind ?_ fun _ e d w h => .pure h _
      unfold noteLayout
      split
      · exact .modify { h with entries := Cache.setLayout_eq_of_entries h.entries _ _ }
      · exact .pure h ()
    · exact .bind (hbeside _ h) fun layout e d w h => .pure h _
    · exact .pure h _
    · exact .pure h _

include hrel

/-- Engines that keep the same select the same, and keep the same afterwards. -/
theorem parallel_select (name : String) (request : Request) (h : Beside rel e d) :
    Parallel reply (Beside rel) (select name request) (select name request) e d w := by
  refine .get_bind ?_
  have hkey : d.keyOf name = e.keyOf name := by
    unfold keyOf
    rw [h.settings]
  rw [hkey]
  refine .bind (parallel_refreshPartials hrel _ h) fun _ e d w h => ?_
  refine .bind (parallel_obtainDefault _ h) fun standard e d w h => ?_
  refine .bind (parallel_obtain _ _ h) fun template e d w h => ?_
  exact .bind (parallel_layoutFor _ _ _ h) fun layout e d w h => .pure h _

end parallel

end Views
