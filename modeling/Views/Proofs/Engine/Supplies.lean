import Views.Proofs.Engine.Layouts
import Views.Proofs.Engine.Reloading
import Views.Proofs.Engine.Uncached
/-!
# What is kept for a render

Once a cached render has selected its view and its layout, the engine supplies them
(`select_supplies`): partials, default layout, view and layout are all kept. An engine that supplies
a selection makes it again with its cache alone (`run_select_of_supplies`). Nothing short of
forgetting takes that away, though an uncached render may put another default layout in the place of
the one that is kept (`Engine.Supplies.advances`).

What is kept for a render is more than its view and its layout. A cached render looks for the
partials and for the default layout before it knows whether they are used, so both belong to what is
supplied. A layout may be found as a note beside its view or as an entry of its own, and the note is
looked at first.
-/

namespace Views

open Engine

/-! ## What is kept for a render -/

/-- The layout for a template is kept: under the identity that the template or else the request
names, or else, if the request says nothing, as the default. -/
inductive Engine.KeepsLayout (e : Engine) (template : LoadedTemplate) (request : LayoutRequest) :
    Option LoadedTemplate → Prop
  | directive {name : String} {l : LoadedTemplate}
      (hfind : Directive.find? template.source = some name)
      (hkept : e.cache.templateOf (.resolve template.id.directory name e.settings.extname) =
        some l) :
      KeepsLayout e template request (some l)
  | named {name : String} {l : LoadedTemplate} (hfind : Directive.find? template.source = none)
      (hrequest : request = .named name)
      (hkept : e.cache.templateOf (.resolve template.id.directory name e.settings.extname) =
        some l) :
      KeepsLayout e template request (some l)
  | default (hfind : Directive.find? template.source = none) (hrequest : request = .unset) :
      KeepsLayout e template request e.defaultLayout
  | disabled (hfind : Directive.find? template.source = none) (hrequest : request = .disabled) :
      KeepsLayout e template request none

/-- What every render reads is kept: the partials, and the default layout if one is set. A cached
render that has come to its view leaves an engine stocked. -/
structure Engine.Stocked (e : Engine) : Prop where
  partials : e.hasPartials = true
  standard : e.settings.defaultLayout.isSome → e.defaultLayout.isSome

/-- All that a render reads is kept, and this view with this layout is what it selects. A cached
render of that view then asks the source for nothing. -/
structure Engine.Supplies (e : Engine) (name : String) (request : LayoutRequest)
    (template : LoadedTemplate) (layout : Option LoadedTemplate) : Prop extends e.Stocked where
  view : e.cache.templateOf (e.keyOf name) = some template
  layout : e.KeepsLayout template request layout

/-- What happens to an engine short of forgetting: the partials stay registered and a default layout
is kept, though perhaps another one; and tokens are given out. -/
structure Engine.Advances (e e' : Engine) : Prop where
  partials : e.hasPartials = true → e'.hasPartials = true
  standard : e.defaultLayout.isSome → e'.defaultLayout.isSome
  source : e'.tokens.source = e.tokens.source
  used : e.tokens.used ≤ e'.tokens.used

namespace Engine

variable {e e' e'' : Engine}

theorem Advances.refl (e : Engine) : e.Advances e := ⟨id, id, rfl, Nat.le_refl _⟩

theorem Advances.trans (h : e.Advances e') (h' : e'.Advances e'') : e.Advances e'' where
  partials hpartials := h'.partials (h.partials hpartials)
  standard hstandard := h'.standard (h.standard hstandard)
  source := h'.source.trans h.source
  used := h.used.trans h'.used

/-- The default layout that is kept is the one that is set. -/
theorem Stocked.standard_id (h : e.Stocked) (horderly : e.Orderly) :
    e.defaultLayout.map LoadedTemplate.id = e.settings.defaultLayout.map e.keyOf := by
  cases hl : e.defaultLayout with
  | some l =>
    obtain ⟨name, hname, hid⟩ := horderly.defaultLayout hl
    rw [hname, Option.map_some, Option.map_some, hid]
  | none =>
    have hset := h.standard
    rw [hl] at hset
    cases hname : e.settings.defaultLayout with
    | none => rfl
    | some name =>
      rw [hname] at hset
      exact absurd (hset rfl) Bool.false_ne_true

/-- An engine that is stocked stays so as it advances. -/
theorem Stocked.advances (h : e.Stocked) (hsettings : e'.settings = e.settings)
    (hadvances : e.Advances e') : e'.Stocked where
  partials := hadvances.partials h.partials
  standard hset := hadvances.standard (h.standard (hsettings ▸ hset))

/-- As long as what is kept stays, some layout is kept for a template, and the same one unless
another default layout is kept. -/
theorem KeepsLayout.grows {template : LoadedTemplate} {request : LayoutRequest}
    {layout : Option LoadedTemplate} (h : e.KeepsLayout template request layout)
    (hgrows : e.Grows e') : ∃ layout', e'.KeepsLayout template request layout' ∧
      (e'.defaultLayout = e.defaultLayout → layout' = layout) := by
  cases h with
  | @directive name l hfind hkept =>
    rw [← hgrows.settings] at hkept
    exact ⟨some l, .directive hfind (hgrows.templateOf hkept), fun _ => rfl⟩
  | @named name l hfind hrequest hkept =>
    rw [← hgrows.settings] at hkept
    exact ⟨some l, .named hfind hrequest (hgrows.templateOf hkept), fun _ => rfl⟩
  | default hfind hrequest => exact ⟨_, .default hfind hrequest, id⟩
  | disabled hfind hrequest => exact ⟨none, .disabled hfind hrequest, fun _ => rfl⟩

/-- What is supplied for a render stays, short of forgetting, up to the default layout. -/
theorem Supplies.advances {name : String} {request : LayoutRequest} {template : LoadedTemplate}
    {layout : Option LoadedTemplate} (h : e.Supplies name request template layout)
    (hgrows : e.Grows e') (hadvances : e.Advances e') :
    ∃ layout', e'.Supplies name request template layout' ∧
      (e'.defaultLayout = e.defaultLayout → layout' = layout) := by
  obtain ⟨layout', hlayout, hsame⟩ := h.layout.grows hgrows
  refine ⟨layout', ⟨h.toStocked.advances hgrows.settings hadvances, ?_, hlayout⟩, hsame⟩
  rw [keyOf_of_settings hgrows.settings]
  exact hgrows.templateOf h.view

end Engine

/-! ## Selecting what is kept -/

section selecting

variable {ω : Type} (reply : (q : Question) → ω → q.Answer × ω) {e : Engine} (w : ω)

/-- A template that is kept is given without a question, and one more hit is counted. -/
theorem run_obtain_of_kept {id : TemplateKey} {template : LoadedTemplate}
    (h : e.cache.templateOf id = some template) :
    (obtain id true).run.run reply e w =
      (.ok template, { e with cache := { e.cache with hits := e.cache.hits + 1 } }, w) := by
  obtain ⟨entry, hget, rfl⟩ := Option.map_eq_some_iff.mp h
  have hconsult : e.cache.consult id true =
      (some entry.template, { e.cache with hits := e.cache.hits + 1 }) := by
    rw [Cache.consult, if_pos rfl, hget]
  unfold obtain
  rw [Rendering.run_get_bind, hconsult]
  rfl

/-- The default layout that is kept is taken, or none if none is set. -/
theorem run_obtainDefault_of_stocked (horderly : e.Orderly) (h : e.Stocked) :
    (obtainDefault true).run.run reply e w = (.ok e.defaultLayout, e, w) := by
  unfold obtainDefault
  rw [Rendering.run_get_bind]
  cases hset : e.settings.defaultLayout with
  | none =>
    have hnone : e.defaultLayout = none := by
      refine Option.eq_none_iff_forall_ne_some.mpr fun l hl => ?_
      obtain ⟨name, hname, -⟩ := horderly.defaultLayout hl
      rw [hset] at hname
      cases hname
    rw [hnone]
    rfl
  | some name =>
    have hkept : e.defaultLayout.isSome := h.standard (by rw [hset]; rfl)
    dsimp only
    rw [hkept]
    rfl

/-- The layout that is kept is taken. At most it is noted with the template. -/
theorem run_layoutFor_of_keeps (horderly : e.Orderly) {template : LoadedTemplate}
    {request : Request} {layout : Option LoadedTemplate} (hreuse : request.reuse = true)
    (hkept : e.cache.templateOf template.id = some template)
    (h : e.KeepsLayout template request.layout layout) :
    ∃ cache, (layoutFor template request e.defaultLayout).run.run reply e w =
      (.ok layout, { e with cache }, w) := by
  unfold layoutFor
  rw [Rendering.run_get_bind, hreuse, if_pos rfl]
  cases hnoted : e.cache.layoutOf template.id with
  | some l =>
    refine ⟨e.cache, ?_⟩
    -- A layout is noted only where a directive names it, which rules the other cases out.
    obtain ⟨⟨name, hname, hid⟩, hown⟩ := horderly.noted hkept hnoted
    cases h with
    | directive hfind hkept =>
      cases hname.symm.trans hfind
      rw [← hid, hown] at hkept
      cases hkept
      rfl
    | named hfind | default hfind | disabled hfind =>
      rw [hname] at hfind
      cases hfind
  | none =>
    dsimp only
    cases h with
    | @directive name l hfind hkept =>
      rw [LayoutRequest.decision_eq_directive_iff.mpr hfind]
      dsimp only [obtainBeside]
      rw [Rendering.run_bind, Rendering.run_get_bind, run_obtain_of_kept reply w hkept]
      exact ⟨_, rfl⟩
    | @named name l hfind hrequest hkept =>
      rw [LayoutRequest.decision_of_find?_eq_none hfind, hrequest]
      dsimp only [obtainBeside]
      rw [Rendering.run_bind, Rendering.run_get_bind, run_obtain_of_kept reply w hkept]
      exact ⟨_, rfl⟩
    | default hfind hrequest =>
      rw [LayoutRequest.decision_of_find?_eq_none hfind, hrequest]
      refine ⟨e.cache, ?_⟩
      show _ = (Except.ok e.defaultLayout, e, w)
      cases e.defaultLayout with
      | some l => rfl
      | none => rfl
    | disabled hfind hrequest =>
      rw [LayoutRequest.decision_of_find?_eq_none hfind, hrequest]
      exact ⟨e.cache, rfl⟩

/-- An engine that supplies a selection makes it without a question, and nothing but its cache
changes. -/
theorem run_select_of_supplies (horderly : e.Orderly) {name : String} {request : Request}
    {template : LoadedTemplate} {layout : Option LoadedTemplate} (hreuse : request.reuse = true)
    (h : e.Supplies name request.layout template layout) :
    ∃ cache, (select name request).run.run reply e w =
      (.ok (template, layout), { e with cache }, w) := by
  have hloaded : (true && e.hasPartials) = true := h.partials
  have hid : template.id = e.keyOf name :=
    (LoadedTemplate.id_source_of_compile (horderly.kept.of_templateOf h.view)).1
  have hsame : e.SameTemplates { e with cache := { e.cache with hits := e.cache.hits + 1 } } :=
    ⟨rfl, rfl, rfl⟩
  obtain ⟨_, hkeeps, hdefault⟩ := h.layout.grows hsame.grows
  obtain rfl := hdefault rfl
  obtain ⟨cache, hlayout⟩ := run_layoutFor_of_keeps reply w (horderly.of_same hsame) hreuse
    (hsame.grows.templateOf (hid ▸ h.view)) hkeeps
  refine ⟨cache, ?_⟩
  unfold select
  rw [Rendering.run_get_bind, hreuse, Rendering.run_bind,
    run_refreshPartials_of_loaded reply e w hloaded]
  dsimp only
  rw [Rendering.run_bind, run_obtainDefault_of_stocked reply w horderly h.toStocked]
  dsimp only
  rw [Rendering.run_bind, run_obtain_of_kept reply w h.view]
  dsimp only
  rw [Rendering.run_bind, hlayout]
  rfl

end selecting

/-! ## What was selected is kept -/

namespace Rendering

variable {α β ω : Type} {reply : (q : Question) → ω → q.Answer × ω} {e e' : Engine} {w w' : ω}

/-- If one part of a render after another one gives something, both do. -/
theorem run_bind_ok {x : Rendering α} {f : α → Rendering β} {b : β}
    (h : (x >>= f).run.run reply e w = (.ok b, e', w')) :
    ∃ a e₁ w₁, x.run.run reply e w = (.ok a, e₁, w₁) ∧
      (f a).run.run reply e₁ w₁ = (.ok b, e', w') := by
  rw [run_bind] at h
  generalize x.run.run reply e w = out at h
  obtain ⟨_ | a, e₁, w₁⟩ := out
  · cases h
  · exact ⟨a, e₁, w₁, rfl, h⟩

end Rendering

/-- What a script ensures twice over holds at once. -/
theorem Script.Ensures.and {σ α : Type} {terms : Terms σ} {post post' : α → σ → Prop}
    {x : Script σ α} {s : σ} (h : x.Ensures terms post s) (h' : x.Ensures terms post' s) :
    x.Ensures terms (fun a s => post a s ∧ post' a s) s := by
  induction x generalizing s with
  | done a => exact ⟨h, h'⟩
  | read next ih => exact ih s h h'
  | write s' next ih => exact ⟨h.1, ih h.2 h'.2⟩
  | ask q next ih =>
    intro answer hanswer s' hs'
    exact ih answer (h answer hanswer s' hs') (h' answer hanswer s' hs')

/-- What is ensured on two counts is ensured on both at once. -/
theorem Rendering.Ensures.and {α : Type} {terms : Terms Engine}
    {post post' : Except ViewError α → Engine → Prop} {x : Rendering α} {e : Engine}
    (h : x.Ensures terms post e) (h' : x.Ensures terms post' e) :
    x.Ensures terms (fun r e => post r e ∧ post' r e) e :=
  Script.Ensures.and h h'

section selected

variable {e : Engine}

/-- The mark that partials are registered and the default layout that is kept are the same. -/
def Engine.SameFlags (e e' : Engine) : Prop :=
  e'.hasPartials = e.hasPartials ∧ e'.defaultLayout = e.defaultLayout

/-- A part that writes neither the default layout nor the mark leaves both as they were. -/
theorem Rendering.Behaves.flags {α : Type} {x : Rendering α}
    (h : x.Behaves { Terms.still with owes := SameFlags }) (e : Engine) :
    x.Ensures .still (fun _ e' => e.SameFlags e') e :=
  h.frame (fun _ => ⟨rfl, rfl⟩) (fun h h' => ⟨h'.1.trans h.1, h'.2.trans h.2⟩) e

/-- To obtain a template does so. -/
theorem obtain_flags (id : TemplateKey) (reuse : Bool) (e : Engine) :
    (obtain id reuse).Ensures .still (fun _ e' => e.SameFlags e') e := by
  refine Rendering.Behaves.flags (Rendering.obtain_behaves (fun _ => ?_) id) e
  exact ⟨rfl, rfl⟩

theorem layoutFor_flags (template : LoadedTemplate) (request : Request)
    (standard : Option LoadedTemplate) (e : Engine) :
    (layoutFor template request standard).Ensures .still (fun _ e' => e.SameFlags e') e := by
  refine Rendering.Behaves.flags (Rendering.layoutFor_behaves (fun _ => ?_) template rfl standard) e
  exact ⟨rfl, rfl⟩

/-- Reading the default layout leaves the registered partials alone. -/
theorem obtainDefault_partials (reuse : Bool) (e : Engine) :
    (obtainDefault reuse).Ensures .still (fun _ e' => e'.hasPartials = e.hasPartials) e := by
  have hobtain : Rendering.Behaves
      { Terms.still with owes := fun e e' => e'.hasPartials = e.hasPartials }
      (obtainDefault reuse) := Rendering.obtainDefault_behaves (fun _ => rfl) rfl
  refine hobtain.frame (fun _ => ?_) (fun h h' => ?_) e
  · rfl
  · exact h'.trans h

/-- Once the partials are read for renders that reuse them they are marked as registered. -/
theorem refreshPartials_loads (e : Engine) :
    (refreshPartials true).Ensures .still
      (fun r e' => r = .ok () → e'.hasPartials = true) e := by
  refine .refreshPartials (fun hloaded _ => hloaded) fun _ answer _ e' _ => ?_
  refine ⟨fun err _ hok => (by cases hok), fun set _ => .register trivial ?_⟩
  cases (registerAll e'.registry set).1 with
  | some err => exact fun hok => by cases hok
  | none => exact ⟨fun _ => ⟨trivial, fun _ => rfl⟩, fun hfresh => by cases hfresh⟩

/-- The default layout that is taken is the one that is kept then. -/
theorem obtainDefault_keeps_standard (horderly : e.Orderly) :
    (obtainDefault true).Ensures .still (fun r e' => ∀ standard, r = .ok standard →
      standard = e'.defaultLayout ∧
        (e'.settings.defaultLayout.isSome → e'.defaultLayout.isSome)) e := by
  refine .obtainDefault (fun hunset => ?_) (fun l _ hl => ?_) fun name hname => ?_
  · rintro _ ⟨⟩
    rw [hunset]
    refine ⟨?_, fun hsome => by cases hsome⟩
    cases hl : e.defaultLayout with
    | none => rfl
    | some l =>
      obtain ⟨name, hname, -⟩ := horderly.defaultLayout hl
      rw [hunset] at hname
      cases hname
  · rintro _ ⟨⟩
    rw [hl]
    exact ⟨rfl, fun _ => rfl⟩
  · refine (obtain_orderly horderly _ true).mono fun r e' _ => ?_
    cases r with
    | error err => exact fun _ hok => by cases hok
    | ok l =>
      refine ⟨trivial, ?_⟩
      rintro _ ⟨⟩
      exact ⟨rfl, fun _ => rfl⟩

/-- The layout that is taken for a template that is kept is kept. -/
theorem layoutFor_keeps (horderly : e.Orderly) {template : LoadedTemplate} {request : Request}
    (hreuse : request.reuse = true) (hkept : e.cache.templateOf template.id = some template) :
    (layoutFor template request e.defaultLayout).Ensures .still (fun r e' =>
      ∀ layout, e'.defaultLayout = e.defaultLayout → r = .ok layout →
        e'.KeepsLayout template request.layout layout) e := by
  refine .layoutFor (fun l _ hnoted => ?_) (fun name hfind => ?_) (fun name hfind hrequest => ?_)
    (fun hfind hrequest => ?_) fun hfind hrequest => ?_
  · rintro _ - ⟨⟩
    obtain ⟨⟨name, hfind, hid⟩, hown⟩ := horderly.noted hkept hnoted
    exact .directive hfind (hid ▸ hown)
  · refine (obtain_orderly horderly _ request.reuse).mono fun r e' => ?_
    rintro ⟨-, hgrows, hread⟩
    cases r with
    | error err => exact fun _ _ hok => by cases hok
    | ok l =>
      refine ⟨fun _ => ⟨trivial, ?_⟩, fun hfresh => ?_⟩
      · rintro _ - ⟨⟩
        refine .directive hfind ?_
        rw [Cache.templateOf_setLayout, hgrows.settings]
        exact (hread l rfl).2 hreuse
      · rw [hreuse] at hfresh
        cases hfresh
  · refine (obtain_orderly horderly _ request.reuse).mono fun r e' => ?_
    rintro ⟨-, hgrows, hread⟩ layout - hok
    cases r with
    | error err => cases hok
    | ok l =>
      cases hok
      refine .named hfind hrequest ?_
      rw [hgrows.settings]
      exact (hread l rfl).2 hreuse
  · rintro _ - ⟨⟩
    exact .default hfind hrequest
  · rintro _ - ⟨⟩
    exact .disabled hfind hrequest

/-- What every render reads is kept once it is read. -/
theorem readDefaults_stocks (horderly : e.Orderly) :
    (readDefaults true).Ensures .still (fun r e' => (e'.Orderly ∧ e.Grows e') ∧
      ∀ standard, r = .ok standard → standard = e'.defaultLayout ∧ e'.Stocked) e := by
  refine ((refreshPartials_same true e).and (refreshPartials_loads e)).bind ?_ ?_
  · rintro _ e₁ ⟨hsame, hpartials⟩
    have horderly₁ := horderly.of_same hsame
    refine ((obtainDefault_orderly horderly₁ true).and
      ((obtainDefault_keeps_standard horderly₁).and (obtainDefault_partials true e₁))).mono ?_
    rintro r e₂ ⟨⟨horderly₂, hgrows, -⟩, hstandard, hflag⟩
    refine ⟨⟨horderly₂, hsame.grows.trans hgrows⟩, fun standard hok => ?_⟩
    obtain ⟨hsame, hset⟩ := hstandard standard hok
    exact ⟨hsame, hflag.trans (hpartials rfl), hset⟩
  · rintro err e₁ ⟨hsame, -⟩
    exact ⟨⟨horderly.of_same hsame, hsame.grows⟩, fun _ hok => by cases hok⟩

/-- What a cached render has selected, the engine supplies. -/
theorem select_supplies (horderly : e.Orderly) (name : String) {request : Request}
    (hreuse : request.reuse = true) :
    (select name request).Ensures .still (fun r e' => ∀ template layout,
      r = .ok (template, layout) → e'.Supplies name request.layout template layout) e := by
  have hselect : select name request = get >>= fun e => readDefaults true >>= fun standard =>
      obtain (e.keyOf name) true >>= fun template =>
        layoutFor template request standard >>= fun layout => pure (template, layout) := by
    unfold select readDefaults
    rw [hreuse]
    simp only [bind_assoc]
  rw [hselect, Rendering.ensures_get_bind]
  refine (readDefaults_stocks horderly).bind ?_ fun err e' _ _ _ hok => by cases hok
  rintro standard e₁ ⟨⟨horderly₁, hgrows₁⟩, hstocks⟩
  obtain ⟨rfl, hstocked₁⟩ := hstocks standard rfl
  refine ((obtain_orderly horderly₁ (e.keyOf name) true).and (obtain_flags _ true e₁)).bind ?_
    fun err e' _ _ _ hok => by cases hok
  rintro template e₂ ⟨⟨horderly₂, hgrows₂, hread⟩, hflag₂, hdefault₂⟩
  obtain ⟨hcompile, hkept⟩ := hread template rfl
  have hkept := hkept rfl
  obtain ⟨hid, -⟩ := LoadedTemplate.id_source_of_compile hcompile
  have hstocked₂ : e₂.Stocked := by
    refine ⟨hflag₂.trans hstocked₁.partials, fun hset => ?_⟩
    rw [hgrows₂.settings] at hset
    rw [hdefault₂]
    exact hstocked₁.standard hset
  rw [← hdefault₂]
  rw [← hid] at hkept
  refine ((layoutFor_orderly horderly₂ (fun _ => hkept) (hstocked₂.standard_id horderly₂)).and
    ((layoutFor_keeps horderly₂ hreuse hkept).and (layoutFor_flags _ _ _ e₂))).bind ?_
    fun err e' _ _ _ hok => by cases hok
  rintro layout e₃ ⟨⟨-, hgrows₃, -⟩, hkeeps, hflag₃, hdefault₃⟩
  refine .pure ?_
  rintro _ _ ⟨⟩
  have hgrows := (hgrows₁.trans hgrows₂).trans hgrows₃
  refine ⟨⟨hflag₃.trans hstocked₂.partials, fun hset => ?_⟩, ?_, hkeeps layout hdefault₃ rfl⟩
  · rw [hgrows₃.settings] at hset
    rw [hdefault₃]
    exact hstocked₂.standard hset
  · rw [keyOf_of_settings hgrows.settings, ← hid]
    exact hgrows₃.templateOf hkept

end selected

end Views
