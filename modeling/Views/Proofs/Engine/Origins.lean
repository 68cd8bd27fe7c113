import Views.Proofs.Engine.Rules
import Views.Proofs.Engine.Selecting
/-!
# Where templates come from

An `Origin` says which sources were given for which identities and which layouts may be noted beside
a template. If an origin explains what an engine keeps (`Origin.Explains`) and the answers that a
render hears, then it still does after every write of the render (`render_explained`), and it
explains the view and the layout that are selected (`select_explained`).

An origin is a property of what was heard, so that one result covers several readings of it: all
that was ever heard for an identity, all that was handed out since the engine forgot, or whatever
was heard with the directive it carries. `Origin.Allows` restricts the answers, `Origin.Preserves`
is what each write owes, and the terms of an origin put the two together.
-/

namespace Views

open Engine

/-- Where templates come from. -/
structure Origin where
  /-- The sources that were given for an identity. -/
  given : TemplateKey → String → Prop
  /-- The layouts that may be noted with the template of an identity. -/
  beside : TemplateKey → LoadedTemplate → Prop := fun _ _ => True

/-- The source of a template was given for its identity. -/
def Origin.Gave (o : Origin) (template : LoadedTemplate) : Prop :=
  o.given template.id template.source

/-- All that an engine keeps of views and layouts comes from an origin: what is kept under an
identity was given for it, a layout that is noted may stand beside it, and the default layout was
given as well. -/
structure Origin.Explains (o : Origin) (e : Engine) : Prop where
  kept : e.cache.Holds (fun id template => template.id = id ∧ o.Gave template)
    fun id _ l => o.Gave l ∧ o.beside id l
  defaultLayout : ∀ {l}, e.defaultLayout = some l → o.Gave l

/-- The settings stay, and what is kept still comes from the origin if it did. -/
def Origin.Preserves (o : Origin) (e e' : Engine) : Prop :=
  e'.settings = e.settings ∧ (o.Explains e → o.Explains e')

/-- A layout may be noted with a template that comes from the origin, if its directive names it. -/
def Origin.Directs (o : Origin) (extname : String) : Prop :=
  ∀ {template l : LoadedTemplate} {name}, o.Gave template →
    Directive.find? template.source = some name →
      l.id = .resolve template.id.directory name extname → o.beside template.id l

/-- The source in an answer was given for the identity that was asked for. Other answers bring no
source, and are all allowed. -/
def Origin.Allows (o : Origin) : (question : Question) → question.Answer → Prop
  | .template id, .ok text => o.given id text
  | .template _, .error _ => True
  | .partials, _ => True
  | .values _, _ => True

/-- Answers come from the origin, and what is kept is left to come from it. -/
def Origin.terms (o : Origin) : Terms Engine where
  rely := o.Preserves
  allows := o.Allows
  owes := o.Preserves

namespace Origin

variable {o o' : Origin} {e e' e'' : Engine}

theorem Preserves.refl (e : Engine) : o.Preserves e e := ⟨rfl, id⟩

theorem Preserves.trans (h : o.Preserves e e') (h' : o.Preserves e' e'') : o.Preserves e e'' :=
  ⟨h'.1.trans h.1, h'.2 ∘ h.2⟩

namespace Explains

/-- Where nothing is kept there is nothing to account for. -/
theorem of_new (hcache : e.cache.entries = []) (hlayout : e.defaultLayout = none) :
    o.Explains e where
  kept := .of_empty hcache
  defaultLayout h := by
    rw [hlayout] at h
    cases h

/-- What is kept is accounted for whatever else changes. -/
theorem of_same (h : o.Explains e) (hcache : e'.cache.entries = e.cache.entries)
    (hlayout : e'.defaultLayout = e.defaultLayout) : o.Explains e' where
  kept := h.kept.of_entries hcache
  defaultLayout hl := h.defaultLayout (hlayout.symm.trans hl)

theorem mono (h : o.Explains e) (hgiven : ∀ {id text}, o.given id text → o'.given id text)
    (hbeside : ∀ {id l}, o.beside id l → o'.beside id l) : o'.Explains e where
  kept := h.kept.mono (fun hgood => ⟨hgood.1, hgiven hgood.2⟩)
    fun hbelongs => ⟨hgiven hbelongs.1, hbeside hbelongs.2⟩
  defaultLayout hl := hgiven (h.defaultLayout hl)

/-- A layout that is noted came from the origin, and was named beside the template. -/
theorem noted (h : o.Explains e) {id : TemplateKey} {l : LoadedTemplate}
    (hnoted : e.cache.layoutOf id = some l) : o.Gave l ∧ o.beside id l := by
  obtain ⟨entry, hget, hlayout⟩ := Option.bind_eq_some_iff.mp hnoted
  exact h.kept.layout hget hlayout

/-- An answer may be taken in, if what it compiles to comes from the origin in case it is kept. -/
theorem receive (h : o.Explains e) {id : TemplateKey} {reuse : Bool}
    {answer : Except SourceError String}
    (hgood : reuse = true → ∀ text, answer = .ok text → o.given id text) :
    o.Explains { e with cache := (e.cache.receive id reuse answer).2 } where
  kept := h.kept.receive fun hreuse text template hanswer hcompile => by
    obtain ⟨hid, hsource⟩ := LoadedTemplate.id_source_of_compile hcompile
    rw [Gave, hid, hsource]
    exact ⟨rfl, hgood hreuse text hanswer⟩
  defaultLayout := h.defaultLayout

/-- A layout from the origin may be noted with a template that names it. -/
theorem setLayout (h : o.Explains e) {id : TemplateKey} {l : LoadedTemplate} (hgave : o.Gave l)
    (hbeside : o.beside id l) : o.Explains { e with cache := e.cache.setLayout id l } where
  kept := h.kept.setLayout fun _ _ => ⟨hgave, hbeside⟩
  defaultLayout := h.defaultLayout

/-- A layout from the origin may be kept as the default. -/
theorem keepDefault (h : o.Explains e) {l : LoadedTemplate} (hgave : o.Gave l) :
    o.Explains { e with defaultLayout := some l } where
  kept := h.kept
  defaultLayout hl := by
    cases hl
    exact hgave

end Explains

end Origin

/-! ## Selecting from an origin -/

section select

variable {o : Origin} {e : Engine}

/-- What is kept comes from the origin, if it did before, besides what else is ensured. -/
theorem Rendering.Ensures.preserving {β : Type} {post : Except ViewError β → Engine → Prop}
    {x : Rendering β} (h : x.Ensures o.terms post e) :
    x.Ensures o.terms (fun r e' => post r e' ∧ o.Preserves e e') e :=
  h.within .refl .trans id id

/-- What is not kept of views and layouts makes no difference. -/
theorem Origin.preserves_rest (o : Origin) {e : Engine} {hits misses : Nat} {registry : Registry}
    {hasPartials : Bool} {tokens : TokenSupply} {calls : Assoc String Nat} :
    o.Preserves e { e with
      cache := { e.cache with hits, misses }, registry, hasPartials, tokens, calls } :=
  ⟨rfl, fun h => h.of_same rfl rfl⟩

/-- What is obtained has the identity that was asked for and came from the origin, kept or read. -/
theorem obtain_explained (h : o.Explains e) (id : TemplateKey) (reuse : Bool) :
    (obtain id reuse).Ensures o.terms (fun r _ =>
      ∀ template, r = .ok template → template.id = id ∧ o.Gave template) e := by
  refine .obtain (fun entry _ hget => ⟨o.preserves_rest, ?_⟩) fun _ => ⟨o.preserves_rest, ?_⟩
  · rintro template ⟨⟩
    exact h.kept.template hget
  · intro answer hanswer e' hrely
    have hgiven : ∀ text, answer = .ok text → o.given id text := by
      rintro text rfl
      exact hanswer
    refine ⟨⟨rfl, fun h' => h'.receive fun _ => hgiven⟩, ?_⟩
    intro template hok
    obtain ⟨htext, hid⟩ := Cache.of_receive_ok hok
    exact ⟨hid, by rw [Origin.Gave, hid]; exact hgiven _ htext⟩

theorem obtainDefault_explained (h : o.Explains e) (reuse : Bool) :
    (obtainDefault reuse).Ensures o.terms (fun r _ => ∀ l, r = .ok (some l) → o.Gave l) e := by
  refine .obtainDefault (fun _ l hok => by cases hok) (fun l _ hl => ?_) fun name _ => ?_
  · rintro _ ⟨⟩
    exact h.defaultLayout hl
  · refine (obtain_explained h _ reuse).mono fun r e' hread => ?_
    cases r with
    | error err => exact fun _ hok => by cases hok
    | ok l =>
      obtain ⟨-, hgave⟩ := hread l rfl
      refine ⟨⟨rfl, fun h' => h'.keepDefault hgave⟩, ?_⟩
      rintro _ ⟨⟩
      exact hgave

theorem layoutFor_explained (h : o.Explains e) (hdirects : o.Directs e.settings.extname)
    {template : LoadedTemplate} (htemplate : o.Gave template) (request : Request)
    {standard : Option LoadedTemplate} (hstandard : ∀ l, standard = some l → o.Gave l) :
    (layoutFor template request standard).Ensures o.terms
      (fun r _ => ∀ l, r = .ok (some l) → o.Gave l) e := by
  refine .layoutFor (fun l _ hnoted => ?_) (fun name hfind => ?_) (fun name _ _ => ?_)
    (fun _ _ => ?_) fun _ _ l hok => by cases hok
  · rintro _ ⟨⟩
    exact (h.noted hnoted).1
  · refine (obtain_explained h _ request.reuse).mono fun r e' hread => ?_
    cases r with
    | error err => exact fun _ hok => by cases hok
    | ok l =>
      obtain ⟨hid, hgave⟩ := hread l rfl
      have hpost : ∀ l', Except.ok (ε := ViewError) (some l) = .ok (some l') → o.Gave l' := by
        rintro _ ⟨⟩
        exact hgave
      have hbeside := hdirects htemplate hfind hid
      exact ⟨fun _ => ⟨⟨rfl, fun h' => h'.setLayout hgave hbeside⟩, hpost⟩, fun _ => hpost⟩
  · refine (obtain_explained h _ request.reuse).mono fun r e' hread => ?_
    cases r with
    | error err => exact fun _ hok => by cases hok
    | ok l =>
      rintro _ ⟨⟩
      exact (hread l rfl).2
  · rintro l ⟨⟩
    exact hstandard l rfl

/-- A view and a layout that are selected come from the origin. -/
theorem select_explained (h : o.Explains e) (hdirects : o.Directs e.settings.extname)
    (name : String) (request : Request) :
    (select name request).Ensures o.terms (fun r _ => ∀ template layout,
      r = .ok (template, layout) → o.Gave template ∧ ∀ l, layout = some l → o.Gave l) e := by
  have herror : ∀ {err : ViewError} {template : LoadedTemplate} {layout : Option LoadedTemplate},
      Except.error err = .ok (template, layout) →
        o.Gave template ∧ ∀ l, layout = some l → o.Gave l := fun hok => by cases hok
  have hrefresh : Rendering.Behaves o.terms (refreshPartials request.reuse) :=
    Rendering.refreshPartials_behaves o.preserves_rest fun _ => o.preserves_rest
  unfold select
  rw [Rendering.ensures_get_bind]
  refine (hrefresh e).preserving.bind ?_ fun _ _ _ _ _ => herror
  rintro _ e₁ ⟨-, hsettings₁, h₁⟩
  refine (obtainDefault_explained (h₁ h) _).preserving.bind ?_ fun _ _ _ _ _ => herror
  rintro standard e₂ ⟨hstandard, hsettings₂, h₂⟩
  refine (obtain_explained (h₂ (h₁ h)) _ _).preserving.bind ?_ fun _ _ _ _ _ => herror
  rintro template e₃ ⟨hread, hsettings₃, h₃⟩
  have hsettings : e₃.settings = e.settings := hsettings₃.trans (hsettings₂.trans hsettings₁)
  rw [← hsettings] at hdirects
  obtain ⟨-, htemplate⟩ := hread template rfl
  have hstandard : ∀ l, standard = some l → o.Gave l := by
    rintro l rfl
    exact hstandard l rfl
  refine (layoutFor_explained (h₃ (h₂ (h₁ h))) hdirects htemplate request hstandard).bind ?_
    fun _ _ _ _ _ => herror
  rintro layout e₄ hlayout _ _ ⟨⟩
  refine ⟨htemplate, ?_⟩
  rintro l rfl
  exact hlayout l rfl

/-- Composing a page keeps nothing. -/
theorem compose_explained (arrangement : Arrangement) (template : LoadedTemplate)
    (layout : Option LoadedTemplate) (data : Value) :
    Rendering.Behaves o.terms (compose arrangement template layout data) :=
  Rendering.compose_behaves (fun _ _ => o.preserves_rest) arrangement template layout data

/-- A render that hears what was given leaves what is kept to come from the origin. -/
theorem render_explained (h : o.Explains e) (hdirects : o.Directs e.settings.extname)
    (name : String) (request : Request) (arrangement : Arrangement) :
    (render name request arrangement).Ensures o.terms (fun _ _ => True) e := by
  rw [render_eq_compose]
  refine (select_explained h hdirects name request).bind (fun selected e' _ => ?_)
    fun _ _ _ => trivial
  exact compose_explained arrangement selected.1 selected.2 request.data e'

end select

end Views
