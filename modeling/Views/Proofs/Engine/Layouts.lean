import Views.Engine.Session
import Views.Proofs.Engine.Rules
import Views.Proofs.Engine.Selecting
import Views.Proofs.Registration
/-!
# The layout that is applied

Which layout goes around a view is said by the source of the view, the request and the settings:
`Engine.layoutKey?`. A render that may reuse what was read takes a layout that was noted with the
view without looking at the source again. In a session this makes no difference:
`Engine.Orderly` is the invariant that ties the noted layouts to the sources and to the other
entries of the cache, `render_orderly` says that a render preserves it and `layoutKey_of_select`
that the layout that is applied is always the one that the source, the request and the settings say.

* **A directive wins** over what the request asks for, and that over the default layout; a request
  may also ask for no layout at all, which a directive overrules as well (`layoutKey?_of_directive`,
  `layoutKey?_of_find?_eq_none`).
* **A noted layout** is one that a directive has named, for the very source that is kept: notes are
  written after the view and its layout were read, in one render, and nothing else comes in between
  in a session. With renders that go on at the same time this is no longer so.
* **An uncached render** reads a template without keeping it, and so leaves no note beside an entry
  that was compiled from another source.
-/

namespace Views

open Engine

/-- The identity of the layout for a template: the one that its directive names, or else the one
that is requested, or else, if the request says nothing, the default. -/
def Engine.layoutKey? (engine : Engine) (template : LoadedTemplate) (request : LayoutRequest) :
    Option TemplateKey :=
  match Directive.find? template.source with
  | some name => some (.resolve template.id.directory name engine.settings.extname)
  | none => match request with
    | .named name => some (.resolve template.id.directory name engine.settings.extname)
    | .unset => engine.settings.defaultLayout.map engine.keyOf
    | .disabled => none

namespace Engine

section layoutKey

variable {engine : Engine} {template : LoadedTemplate}

/-- A directive settles the layout, resolved beside the template that carries it. -/
theorem layoutKey?_of_directive {name : String} (h : Directive.find? template.source = some name)
    (request : LayoutRequest) : engine.layoutKey? template request =
      some (.resolve template.id.directory name engine.settings.extname) := by
  unfold layoutKey?
  rw [h]

/-- Without a directive the request settles it: a name beside the template, the default layout, or
none. -/
theorem layoutKey?_of_find?_eq_none (h : Directive.find? template.source = none)
    (request : LayoutRequest) : engine.layoutKey? template request = match request with
      | .named name => some (.resolve template.id.directory name engine.settings.extname)
      | .unset => engine.settings.defaultLayout.map engine.keyOf
      | .disabled => none := by
  unfold layoutKey?
  rw [h]

end layoutKey

end Engine

/-! ## What is kept in order -/

/-- A layout belongs beside a template in an engine if the directive of the template names it and it
is what is kept under its own identity. -/
def Engine.Belongs (e : Engine) (id : TemplateKey) (template l : LoadedTemplate) : Prop :=
  (∃ name, Directive.find? template.source = some name ∧
    l.id = .resolve id.directory name e.settings.extname) ∧ e.cache.templateOf l.id = some l

/-- Every template that is kept was compiled for its identity from its source, a layout that is
noted with it belongs beside it, and the default layout that is kept is the one that is set. -/
structure Engine.Orderly (e : Engine) : Prop where
  kept : e.cache.Holds (fun id template => LoadedTemplate.compile id template.source = .ok template)
    e.Belongs
  defaultLayout : ∀ {l}, e.defaultLayout = some l →
    ∃ name, e.settings.defaultLayout = some name ∧ l.id = e.keyOf name

/-- If a layout is noted with a template, it is the one that is applied, and it is what is kept
under its own identity. So a note never leads to a layout that reading it again would not give. -/
def Engine.AppliesNoted (e : Engine) (id : TemplateKey) (layout : Option LoadedTemplate) : Prop :=
  ∀ l, e.cache.layoutOf id = some l → layout = some l ∧ e.cache.templateOf l.id = some l

/-- The settings are the same, and the templates that were kept are kept. New ones may have come,
and notes may have been written. -/
structure Engine.Grows (e e' : Engine) : Prop where
  settings : e'.settings = e.settings
  templateOf : ∀ {id template}, e.cache.templateOf id = some template →
    e'.cache.templateOf id = some template

/-- What was read of views and layouts is the same. -/
structure Engine.SameTemplates (e e' : Engine) : Prop where
  settings : e'.settings = e.settings
  entries : e'.cache.entries = e.cache.entries
  defaultLayout : e'.defaultLayout = e.defaultLayout

namespace Engine

variable {e e' e'' : Engine}

/-- The identity of a view depends on the settings of the engine only. -/
theorem keyOf_of_settings (h : e'.settings = e.settings) (name : String) :
    e'.keyOf name = e.keyOf name := by
  unfold keyOf
  rw [h]

/-- And so does the identity of its layout. -/
theorem layoutKey?_of_settings (h : e'.settings = e.settings) (template : LoadedTemplate)
    (request : LayoutRequest) : e'.layoutKey? template request = e.layoutKey? template request := by
  have hkey : e'.keyOf = e.keyOf := funext (keyOf_of_settings h)
  unfold layoutKey?
  rw [h, hkey]

theorem Grows.refl (e : Engine) : e.Grows e := ⟨rfl, id⟩

theorem Grows.trans (h : e.Grows e') (h' : e'.Grows e'') : e.Grows e'' :=
  ⟨h'.settings.trans h.settings, fun hkept => h'.templateOf (h.templateOf hkept)⟩

theorem SameTemplates.refl (e : Engine) : e.SameTemplates e := ⟨rfl, rfl, rfl⟩

theorem SameTemplates.trans (h : e.SameTemplates e') (h' : e'.SameTemplates e'') :
    e.SameTemplates e'' :=
  ⟨h'.settings.trans h.settings, h'.entries.trans h.entries,
    h'.defaultLayout.trans h.defaultLayout⟩

/-- An engine that keeps the same templates has grown by nothing. -/
theorem SameTemplates.grows (h : e.SameTemplates e') : e.Grows e' where
  settings := h.settings
  templateOf hkept := (Cache.templateOf_eq_of_entries h.entries _).trans hkept

/-- A layout that belongs beside a template does so as long as what is kept stays. -/
theorem Belongs.grows {id : TemplateKey} {template l : LoadedTemplate}
    (h : e.Belongs id template l) (hgrows : e.Grows e') : e'.Belongs id template l := by
  obtain ⟨hname, hkept⟩ := h
  rw [Belongs, hgrows.settings]
  exact ⟨hname, hgrows.templateOf hkept⟩

namespace Orderly

/-- An engine that has read nothing is in order. -/
theorem of_new (hcache : e.cache.entries = []) (hlayout : e.defaultLayout = none) : e.Orderly where
  kept := .of_empty hcache
  defaultLayout h := by
    rw [hlayout] at h
    cases h

/-- Order is a matter of the templates that are kept, and of nothing else. -/
theorem of_same (h : e.Orderly) (hsame : e.SameTemplates e') : e'.Orderly where
  kept := (h.kept.of_entries hsame.entries).mono id fun hbelongs => hbelongs.grows hsame.grows
  defaultLayout hl := by
    rw [hsame.defaultLayout] at hl
    obtain ⟨name, hname, hid⟩ := h.defaultLayout hl
    rw [hsame.settings]
    exact ⟨name, hname, hid.trans (keyOf_of_settings hsame.settings name).symm⟩

/-- A template that was not kept may be kept under its identity. -/
theorem insert (h : e.Orderly) {id : TemplateKey} {template : LoadedTemplate}
    (hnone : e.cache.get? id = none)
    (hcompile : LoadedTemplate.compile id template.source = .ok template) :
    Orderly { e with cache := e.cache.insert id template } ∧
      e.Grows { e with cache := e.cache.insert id template } := by
  have hgrows : e.Grows { e with cache := e.cache.insert id template } :=
    ⟨rfl, Cache.templateOf_insert hnone⟩
  refine ⟨⟨?_, h.defaultLayout⟩, hgrows⟩
  exact (h.kept.mono (fun hgood => hgood) fun hbelongs => hbelongs.grows hgrows).insert
    hcompile

/-- A layout may be noted with a template that is kept, if it belongs beside it and is applied. -/
theorem setLayout (h : e.Orderly) {template l : LoadedTemplate}
    (hkept : e.cache.templateOf template.id = some template)
    (hbelongs : e.Belongs template.id template l) :
    let noted := { e with cache := e.cache.setLayout template.id l }
    noted.Orderly ∧ e.Grows noted ∧ noted.AppliesNoted template.id (some l) := by
  intro noted
  have hgrows : e.Grows noted := ⟨rfl, fun h => Cache.templateOf_setLayout.trans h⟩
  refine ⟨⟨?_, h.defaultLayout⟩, hgrows, fun l' hnoted => ?_⟩
  · refine (h.kept.mono (fun hgood => hgood) fun hbelongs => hbelongs.grows hgrows).setLayout ?_
    rintro other hother
    cases hkept.symm.trans hother
    exact hbelongs.grows hgrows
  · cases Cache.eq_of_layoutOf_setLayout hnoted
    exact ⟨rfl, hgrows.templateOf hbelongs.2⟩

/-- A layout that is noted with a template belongs beside it. -/
theorem noted (h : e.Orderly) {template l : LoadedTemplate}
    (hkept : e.cache.templateOf template.id = some template)
    (hnoted : e.cache.layoutOf template.id = some l) : e.Belongs template.id template l := by
  obtain ⟨entry, hget, hlayout⟩ := Option.bind_eq_some_iff.mp hnoted
  have hbelongs := h.kept.layout hget hlayout
  cases (Cache.templateOf_of_get? hget).symm.trans hkept
  exact hbelongs

/-- Without a directive nothing is noted with a template that is kept. -/
theorem appliesNoted_of_find?_eq_none (h : e.Orderly) {template : LoadedTemplate}
    (hkept : e.cache.templateOf template.id = some template)
    (hfind : Directive.find? template.source = none) (layout : Option LoadedTemplate) :
    e.AppliesNoted template.id layout := by
  intro l hnoted
  obtain ⟨⟨name, hname, -⟩, -⟩ := h.noted hkept hnoted
  rw [hfind] at hname
  cases hname

end Orderly

end Engine

/-! ## What the parts of a render leave -/

section parts

variable {e : Engine}

/-- A template was compiled for its identity from its source and, if it may be reused, it is what is
kept then. -/
theorem obtain_orderly (h : e.Orderly) (id : TemplateKey) (reuse : Bool) :
    (obtain id reuse).Ensures .still (fun r e' => e'.Orderly ∧ e.Grows e' ∧
      ∀ template, r = .ok template → LoadedTemplate.compile id template.source = .ok template ∧
        (reuse = true → e'.cache.templateOf id = some template)) e := by
  refine .obtain (fun entry _ hget => ?_) fun hnone => ?_
  · have hsame : e.SameTemplates { e with cache := { e.cache with hits := e.cache.hits + 1 } } :=
      ⟨rfl, rfl, rfl⟩
    refine ⟨trivial, h.of_same hsame, hsame.grows, ?_⟩
    rintro template ⟨⟩
    have hkept := Cache.templateOf_of_get? hget
    exact ⟨h.kept.template hget, fun _ => hsame.grows.templateOf hkept⟩
  · have hsame :
        e.SameTemplates { e with cache := { e.cache with misses := e.cache.misses + 1 } } :=
      ⟨rfl, rfl, rfl⟩
    refine ⟨trivial, ?_⟩
    rintro answer - missed rfl
    refine ⟨trivial, ?_⟩
    have horderly := h.of_same hsame
    rcases Cache.receive_cases { e.cache with misses := e.cache.misses + 1 } id reuse answer with
      ⟨err, hreceive⟩ | ⟨text, template, -, hcompile, hreceive⟩
    · rw [hreceive]
      exact ⟨horderly, hsame.grows, fun _ hok => by cases hok⟩
    · rw [hreceive]
      obtain ⟨-, hsource⟩ := LoadedTemplate.id_source_of_compile hcompile
      rw [← hsource] at hcompile
      cases reuse with
      | false =>
        refine ⟨horderly, hsame.grows, ?_⟩
        rintro _ ⟨⟩
        exact ⟨hcompile, fun hreuse => (Bool.false_ne_true hreuse).elim⟩
      | true =>
        obtain ⟨hinserted, hgrows⟩ := horderly.insert (hnone rfl) hcompile
        refine ⟨hinserted, hsame.grows.trans hgrows, ?_⟩
        rintro _ ⟨⟩
        exact ⟨hcompile, fun _ => Cache.templateOf_insert_self⟩

/-- The default layout is the one that is set. -/
theorem obtainDefault_orderly (h : e.Orderly) (reuse : Bool) :
    (obtainDefault reuse).Ensures .still (fun r e' => e'.Orderly ∧ e.Grows e' ∧
      ∀ standard, r = .ok standard →
        standard.map LoadedTemplate.id = e.settings.defaultLayout.map e.keyOf) e := by
  refine .obtainDefault (fun hunset => ?_) (fun l _ hl => ?_) fun name hname => ?_
  · refine ⟨h, .refl e, ?_⟩
    rintro _ ⟨⟩
    rw [hunset]
    rfl
  · refine ⟨h, .refl e, ?_⟩
    rintro _ ⟨⟩
    obtain ⟨name, hname, hid⟩ := h.defaultLayout hl
    rw [hname, Option.map_some, Option.map_some, hid]
  · refine (obtain_orderly h _ reuse).mono fun r e' => ?_
    rintro ⟨horderly, hgrows, hread⟩
    cases r with
    | error err => exact ⟨horderly, hgrows, fun _ hok => by cases hok⟩
    | ok l =>
      obtain ⟨hid, -⟩ := LoadedTemplate.id_source_of_compile (hread l rfl).1
      refine ⟨trivial, ⟨horderly.kept, ?_⟩, ⟨hgrows.settings, hgrows.templateOf⟩, ?_⟩
      · rintro _ ⟨⟩
        refine ⟨name, ?_, hid.trans (keyOf_of_settings hgrows.settings name).symm⟩
        rw [← hname]
        exact congrArg Settings.defaultLayout hgrows.settings
      · rintro _ ⟨⟩
        rw [hname, Option.map_some, Option.map_some, hid]

/-- The layout for a template is the one that its source, the request and the settings say. A layout
that is noted with the template in the end is that layout, and it is what is kept under its own
identity. -/
theorem layoutFor_orderly (h : e.Orderly) {template : LoadedTemplate} {request : Request}
    {standard : Option LoadedTemplate}
    (hkept : request.reuse = true → e.cache.templateOf template.id = some template)
    (hstandard : standard.map LoadedTemplate.id = e.settings.defaultLayout.map e.keyOf) :
    (layoutFor template request standard).Ensures .still (fun r e' => e'.Orderly ∧ e.Grows e' ∧
      ∀ layout, r = .ok layout →
        layout.map LoadedTemplate.id = e.layoutKey? template request.layout ∧
        (request.reuse = true → e'.AppliesNoted template.id layout)) e := by
  have hunnoted : ∀ {e' : Engine}, e'.Orderly → e.Grows e' →
      Directive.find? template.source = none → ∀ layout : Option LoadedTemplate,
        request.reuse = true → e'.AppliesNoted template.id layout :=
    fun horderly hgrows hfind layout hreuse =>
      horderly.appliesNoted_of_find?_eq_none (hgrows.templateOf (hkept hreuse)) hfind layout
  -- In turn: a noted layout, a directive, a layout that the request names, the default, and none.
  refine .layoutFor (fun l hreuse hnoted => ?_) (fun name hfind => ?_)
    (fun name hfind hlayout => ?_) (fun hfind hlayout => ?_) fun hfind hlayout => ?_
  · obtain ⟨⟨name, hname, hid⟩, hown⟩ := h.noted (hkept hreuse) hnoted
    refine ⟨h, .refl e, ?_⟩
    rintro _ ⟨⟩
    refine ⟨?_, fun _ l' hl' => ?_⟩
    · rw [layoutKey?_of_directive hname, Option.map_some, hid]
    · cases hnoted.symm.trans hl'
      exact ⟨rfl, hown⟩
  · refine (obtain_orderly h _ request.reuse).mono fun r e' => ?_
    rintro ⟨horderly, hgrows, hread⟩
    cases r with
    | error err => exact ⟨horderly, hgrows, fun _ hok => by cases hok⟩
    | ok l =>
      obtain ⟨hcompile, hown⟩ := hread l rfl
      obtain ⟨hid, -⟩ := LoadedTemplate.id_source_of_compile hcompile
      have hkey : (some l).map LoadedTemplate.id = e.layoutKey? template request.layout := by
        rw [layoutKey?_of_directive hfind, Option.map_some, hid]
      refine ⟨fun hreuse => ?_, fun hreuse => ⟨horderly, hgrows, ?_⟩⟩
      -- The entry is still the one that the view came from, so the note belongs beside it.
      · have hbelongs : e'.Belongs template.id template l := by
          rw [Engine.Belongs, hgrows.settings, hid]
          exact ⟨⟨name, hfind, rfl⟩, hown hreuse⟩
        obtain ⟨hnoted, hgrows', happlies⟩ :=
          horderly.setLayout (hgrows.templateOf (hkept hreuse)) hbelongs
        refine ⟨trivial, hnoted, hgrows.trans hgrows', ?_⟩
        rintro _ ⟨⟩
        exact ⟨hkey, fun _ => happlies⟩
      · rintro _ ⟨⟩
        refine ⟨hkey, fun hreuse' => ?_⟩
        rw [hreuse] at hreuse'
        cases hreuse'
  · refine (obtain_orderly h _ request.reuse).mono fun r e' => ?_
    rintro ⟨horderly, hgrows, hread⟩
    refine ⟨horderly, hgrows, fun layout hok => ⟨?_, hunnoted horderly hgrows hfind layout⟩⟩
    cases r with
    | error err => cases hok
    | ok l =>
      cases hok
      rw [layoutKey?_of_find?_eq_none hfind, hlayout, Option.map_some,
        (LoadedTemplate.id_source_of_compile (hread l rfl).1).1]
  · refine ⟨h, .refl e, fun layout hok => ⟨?_, hunnoted h (.refl e) hfind layout⟩⟩
    cases hok
    rw [layoutKey?_of_find?_eq_none hfind, hlayout, hstandard]
  · refine ⟨h, .refl e, fun layout hok => ⟨?_, hunnoted h (.refl e) hfind layout⟩⟩
    cases hok
    rw [layoutKey?_of_find?_eq_none hfind, hlayout]
    rfl

/-- Reading partials changes nothing else that is kept. -/
theorem refreshPartials_same (reuse : Bool) (e : Engine) :
    (refreshPartials reuse).Ensures .still (fun _ e' => e.SameTemplates e') e := by
  have hrefresh : Rendering.Behaves { Terms.still with owes := SameTemplates }
      (refreshPartials reuse) :=
    Rendering.refreshPartials_behaves ⟨rfl, rfl, rfl⟩ fun _ => ⟨rfl, rfl, rfl⟩
  exact hrefresh.frame SameTemplates.refl .trans e

/-- Composing a page changes nothing that is kept. -/
theorem compose_same (arrangement : Arrangement) (template : LoadedTemplate)
    (layout : Option LoadedTemplate) (data : Value) (e : Engine) :
    (compose arrangement template layout data).Ensures .still
      (fun _ e' => e.SameTemplates e') e := by
  have hdraws : Terms.Draws { Terms.still with owes := SameTemplates } :=
    fun _ _ => ⟨rfl, rfl, rfl⟩
  have hcompose := Rendering.compose_behaves hdraws arrangement template layout data
  exact hcompose.frame SameTemplates.refl .trans e

/-- What is selected: a view that was compiled for the identity of its name, and the layout that its
source, the request and the settings say. -/
theorem select_orderly (h : e.Orderly) (name : String) (request : Request) :
    (select name request).Ensures .still (fun r e' => e'.Orderly ∧ e.Grows e' ∧
      ∀ template layout, r = .ok (template, layout) →
        LoadedTemplate.compile (e.keyOf name) template.source = .ok template ∧
        layout.map LoadedTemplate.id = e.layoutKey? template request.layout ∧
        (request.reuse = true → e'.AppliesNoted template.id layout)) e := by
  unfold select
  rw [Rendering.ensures_get_bind]
  have herror : ∀ {e' : Engine} {err : ViewError} {p : LoadedTemplate → Option LoadedTemplate →
      Prop}, e'.Orderly → e.Grows e' → e'.Orderly ∧ e.Grows e' ∧
        ∀ template layout, Except.error err = .ok (template, layout) → p template layout :=
    fun horderly hgrows => ⟨horderly, hgrows, fun _ _ hok => by cases hok⟩
  refine (refreshPartials_same request.reuse e).bind (fun _ e₁ hsame => ?_) fun err e' hsame =>
    herror (h.of_same hsame) hsame.grows
  have hgrows₁ := hsame.grows
  refine (obtainDefault_orderly (h.of_same hsame) request.reuse).bind ?_ ?_
  · rintro standard e₂ ⟨h₂, hgrows₂, hstandard⟩
    have hgrows₂ := hgrows₁.trans hgrows₂
    have hstandard := hstandard standard rfl
    refine (obtain_orderly h₂ (e.keyOf name) request.reuse).bind ?_ ?_
    · rintro template e₃ ⟨h₃, hgrows₃, hread⟩
      obtain ⟨hcompile, hkept⟩ := hread template rfl
      obtain ⟨hid, -⟩ := LoadedTemplate.id_source_of_compile hcompile
      have hgrows₃ := hgrows₂.trans hgrows₃
      rw [← hid] at hkept
      have hkeys : e₁.keyOf = e₃.keyOf :=
        funext fun name => (keyOf_of_settings hgrows₁.settings name).trans
          (keyOf_of_settings hgrows₃.settings name).symm
      have hstandard₃ : standard.map LoadedTemplate.id =
          e₃.settings.defaultLayout.map e₃.keyOf := by
        rw [hstandard, hgrows₁.settings, hgrows₃.settings, hkeys]
      refine (layoutFor_orderly h₃ hkept hstandard₃).bind ?_ ?_
      · rintro layout e₄ ⟨h₄, hgrows₄, hlayout⟩
        refine ⟨h₄, hgrows₃.trans hgrows₄, ?_⟩
        rintro _ _ ⟨⟩
        obtain ⟨hkey, happlies⟩ := hlayout layout rfl
        exact ⟨hcompile, hkey.trans (layoutKey?_of_settings hgrows₃.settings _ _), happlies⟩
      · rintro err e₄ ⟨h₄, hgrows₄, -⟩
        exact herror h₄ (hgrows₃.trans hgrows₄)
    · rintro err e₃ ⟨h₃, hgrows₃, -⟩
      exact herror h₃ (hgrows₂.trans hgrows₃)
  · rintro err e₂ ⟨h₂, hgrows₂, -⟩
    exact herror h₂ (hgrows₁.trans hgrows₂)

/-- A render keeps an engine in order, however it ends. -/
theorem render_orderly (h : e.Orderly) (name : String) (request : Request)
    (arrangement : Arrangement) :
    (render name request arrangement).Ensures .still (fun _ e' => e'.Orderly ∧ e.Grows e') e := by
  rw [render_eq_compose]
  refine (select_orderly h name request).bind ?_ fun err e' ⟨horderly, hgrows, _⟩ =>
    ⟨horderly, hgrows⟩
  rintro ⟨template, layout⟩ e' ⟨horderly, hgrows, -⟩
  refine (compose_same arrangement template layout request.data e').mono fun r e'' hsame => ?_
  exact ⟨horderly.of_same hsame, hgrows.trans hsame.grows⟩

end parts

/-! ## Sessions -/

section sessions

variable {ω : Type} {reply : (q : Question) → ω → q.Answer × ω}

/-- Whatever is done next, the engine stays in order, and its settings do not change. -/
theorem Session.step_orderly {session : Session ω} (h : session.engine.Orderly) (deed : Deed ω) :
    (session.step reply deed).engine.Orderly ∧
      (session.step reply deed).engine.settings = session.engine.settings := by
  cases deed with
  | render name request arrangement =>
    obtain ⟨horderly, hgrows⟩ :=
      (render_orderly h name request arrangement).alone reply session.world
    exact ⟨horderly, hgrows.settings⟩
  | addHelper name helper => exact ⟨h.of_same ⟨rfl, rfl, rfl⟩, rfl⟩
  | addPartial name source =>
    unfold Session.step addPartial
    dsimp only
    cases session.engine.registry.addPartial name source with
    | error err => exact ⟨h, rfl⟩
    | ok registry => exact ⟨h.of_same ⟨rfl, rfl, rfl⟩, rfl⟩
  | forget => exact ⟨.of_new rfl rfl, rfl⟩
  | change change => exact ⟨h, rfl⟩

/-- Whatever is done one after the other, the engine stays in order. -/
theorem Session.run_orderly {session : Session ω} (h : session.engine.Orderly)
    (deeds : List (Deed ω)) :
    (session.run reply deeds).engine.Orderly ∧
      (session.run reply deeds).engine.settings = session.engine.settings := by
  induction deeds generalizing session with
  | nil => exact ⟨h, rfl⟩
  | cons deed deeds ih =>
    obtain ⟨horderly, hsettings⟩ := step_orderly h deed
    obtain ⟨horderly', hsettings'⟩ := ih horderly
    exact ⟨horderly', hsettings'.trans hsettings⟩

/-- In every session of an engine that was built, a render that comes to its view composes the page
from what was compiled for the identity of the view, with the layout that the source of the view,
the request and the settings say. If a layout is noted with the view, that is the one, and it is
what is kept under its own identity. -/
theorem layoutKey_of_select {settings : Settings} {sourceCheck : Except SetupError Unit}
    {registry : Registry} {helpers : List (String × Helper)} {partials : List (String × String)}
    {built : Engine} (hbuild : build settings sourceCheck registry helpers partials = .ok built)
    (reply : (q : Question) → ω → q.Answer × ω) (world : ω) (deeds : List (Deed ω))
    {session : Session ω} (hsession : session = .run reply { engine := built, world } deeds)
    {name : String} {request : Request} {template : LoadedTemplate}
    {layout : Option LoadedTemplate} {e : Engine} {w : ω}
    (hselect : (select name request).run.run reply session.engine session.world =
      (.ok (template, layout), e, w)) :
    (∀ arrangement, (render name request arrangement).run.run reply session.engine session.world =
        (compose arrangement template layout request.data).run.run reply e w) ∧
      LoadedTemplate.compile (built.keyOf name) template.source = .ok template ∧
      layout.map LoadedTemplate.id = built.layoutKey? template request.layout ∧
      ∀ l, request.reuse = true → e.cache.layoutOf template.id = some l →
        layout = some l ∧ e.cache.templateOf l.id = some l := by
  obtain ⟨hcache, hdefault, -⟩ := build_new hbuild
  have hstart : ({ engine := built, world } : Session ω).engine.Orderly := .of_new hcache hdefault
  have hrun : session.engine.Orderly ∧ session.engine.settings = built.settings := by
    rw [hsession]
    exact Session.run_orderly hstart deeds
  obtain ⟨horderly, hsettings⟩ := hrun
  have hselected := (select_orderly horderly name request).alone reply session.world
  rw [hselect] at hselected
  obtain ⟨hcompile, hkey, happlies⟩ := hselected.2.2 template layout rfl
  rw [keyOf_of_settings hsettings] at hcompile
  rw [layoutKey?_of_settings hsettings] at hkey
  refine ⟨fun arrangement => ?_, hcompile, hkey, fun l hreuse => happlies hreuse l⟩
  rw [render_eq_compose, Rendering.run_bind, hselect]

/-- A view with a directive, and the layout that it names. -/
def directedReply (question : Question) (w : Unit) : question.Answer × Unit :=
  (pageAnswers "\x7b\x7b!< main\x7d\x7dtext" "<\x7b\x7b\x7bbody\x7d\x7d\x7d>" question, w)

/-- The view is selected once more with the layout that is noted with it. -/
theorem layoutKey_of_noted :
    let session := Session.run directedReply { engine := .plain, world := () }
      [.render "page" { reuse := true } {}, .forget, .render "page" { reuse := true } {}]
    session.engine.cache.misses = 2 ∧ ∃ template layout e w,
      (select "page" { reuse := true }).run.run directedReply session.engine session.world =
        (.ok (template, some layout), e, w) ∧
      e.cache.misses = 2 ∧ layout.id = ⟨"main.hbs"⟩ ∧
      e.cache.templateOf layout.id = some layout := by
  intro session
  refine ⟨by decide +kernel, ?_⟩
  have hselects : ((select "page" { reuse := true }).run.run directedReply session.engine
    session.world).1.isOk := by decide +kernel
  have hnoted : (((select "page" { reuse := true }).run.run directedReply session.engine
    session.world).2.1.cache.layoutOf ⟨"page.hbs"⟩).map LoadedTemplate.id = some ⟨"main.hbs"⟩ := by
    decide +kernel
  have hmisses : ((select "page" { reuse := true }).run.run directedReply session.engine
    session.world).2.1.cache.misses = 2 := by decide +kernel
  rcases hselect : (select "page" { reuse := true }).run.run directedReply session.engine
    session.world with ⟨_ | ⟨template, layout⟩, e, w⟩
  · rw [hselect] at hselects
    cases hselects
  · rw [hselect] at hnoted hmisses
    obtain ⟨l, hlayout, hid⟩ := Option.map_eq_some_iff.mp hnoted
    obtain ⟨-, hcompile, -, hown⟩ := layoutKey_of_select build_plain directedReply () _ rfl hselect
    have hpage : template.id = ⟨"page.hbs"⟩ :=
      (LoadedTemplate.id_source_of_compile hcompile).1.trans (by decide +kernel)
    rw [hpage] at hown
    obtain ⟨rfl, hkept⟩ := hown l rfl hlayout
    exact ⟨template, l, e, w, rfl, hmisses, hid, hkept⟩

end sessions

end Views
