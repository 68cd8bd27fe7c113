import Views.Proofs.Cache
import Views.Proofs.Engine.Scripts
/-!
# The parts of a render, case by case

One rule for each part of a render that reads something says all that it can do: what it finds, what
it asks, what it writes with each answer, and how it ends. What is to hold at the end of such a part
is proved from its rule; the part itself is not opened again.

The rules are stated for `Script.Abides`, where the terms of a script depend on the answer that it
has heard last. `Script.Ensures` is the case of terms that do not, and has the same rules.

There is one rule each for reading the partials, the default layout, the view and its layout. Each
has a hypothesis for every branch of the part, so that a proof about the part is a proof for each of
its branches, with the engine at that moment and the answer at hand.
-/

namespace Views

open Engine

/-! ## Terms that depend on what was heard -/

/-- From a state on, the script keeps to the terms that go with what it has heard last, and
something holds at its end. With terms that are the same for all that may be heard, this is
`Script.Ensures`. -/
def Script.Abides {σ α γ : Type} (terms : γ → Terms σ) (hear : (q : Question) → q.Answer → γ)
    (post : γ → α → σ → Prop) : Script σ α → γ → σ → Prop
  | done a, heard, s => post heard a s
  | read next, heard, s => Abides terms hear post (next s) heard s
  | write s' next, heard, s => (terms heard).owes s s' ∧ Abides terms hear post next heard s'
  | ask q next, heard, s => ∀ answer, (terms heard).allows q answer →
      ∀ s', (terms heard).rely s s' → Abides terms hear post (next answer) (hear q answer) s'

namespace Script

variable {σ α β γ : Type} {terms : γ → Terms σ} {hear : (q : Question) → q.Answer → γ}

/-- One script after another one, as an equivalence: the second goes on with what the first has
heard. -/
theorem abides_bind {post : γ → β → σ → Prop} {x : Script σ α} {k : α → Script σ β} {heard : γ}
    {s : σ} : (x.bind k).Abides terms hear post heard s ↔
      x.Abides terms hear (fun heard a s => (k a).Abides terms hear post heard s) heard s := by
  induction x generalizing heard s with
  | done a => exact Iff.rfl
  | read next ih => exact ih s
  | write s' next ih => exact and_congr_right fun _ => ih
  | ask q next ih =>
    refine forall_congr' fun answer => forall_congr' fun _ => forall_congr' fun s' => ?_
    exact forall_congr' fun _ => ih answer

theorem Abides.mono {post post' : γ → α → σ → Prop}
    (hpost : ∀ heard a s, post heard a s → post' heard a s) {x : Script σ α} {heard : γ} {s : σ}
    (h : x.Abides terms hear post heard s) : x.Abides terms hear post' heard s := by
  induction x generalizing heard s with
  | done a => exact hpost heard a s h
  | read next ih => exact ih s h
  | write s' next ih => exact ⟨h.1, ih h.2⟩
  | ask q next ih => exact fun answer hanswer s' hs' => ih answer (h answer hanswer s' hs')

/-- What is ensured under terms that are the same for all that may be heard. -/
theorem ensures_iff_abides {terms : Terms σ} {post : α → σ → Prop} {x : Script σ α} {s : σ} :
    x.Ensures terms post s ↔
      x.Abides (fun _ : Unit => terms) (fun _ _ => ()) (fun _ => post) () s := by
  induction x generalizing s with
  | done a => exact Iff.rfl
  | read next ih => exact ih s
  | write s' next ih => exact and_congr_right fun _ => ih
  | ask q next ih =>
    refine forall_congr' fun answer => forall_congr' fun _ => forall_congr' fun s' => ?_
    exact forall_congr' fun _ => ih answer

/-- A script abides by terms that are easier, whatever was heard, than terms under which it ensures
something. -/
theorem Ensures.abides {easy : Terms σ} {post : α → σ → Prop} {x : Script σ α} {s : σ}
    (h : x.Ensures easy post s) (hrely : ∀ {heard s s'}, (terms heard).rely s s' → easy.rely s s')
    (hallows : ∀ {heard q answer}, (terms heard).allows q answer → easy.allows q answer)
    (howes : ∀ {heard s s'}, easy.owes s s' → (terms heard).owes s s') (heard : γ) :
    x.Abides terms hear (fun _ => post) heard s := by
  induction x generalizing heard s with
  | done a => exact h
  | read next ih => exact ih s h heard
  | write s' next ih => exact ⟨howes h.1, ih h.2 heard⟩
  | ask q next ih =>
    intro answer hanswer s' hs'
    exact ih answer (h answer (hallows hanswer) s' (hrely hs')) _

/-- What holds of a script that has come to a halt. -/
def AbidesAt (terms : γ → Terms σ) (hear : (q : Question) → q.Answer → γ)
    (post : γ → α → σ → Prop) (heard : γ) : Halt σ α → σ → Prop
  | .ended a, s => post heard a s
  | .asking q next, s => ∀ answer, (terms heard).allows q answer → ∀ s', (terms heard).rely s s' →
      (next answer).Abides terms hear post (hear q answer) s'

/-- A script that is advanced comes to its next halt by writes that go with what it heard. -/
theorem Abides.advance {post : γ → α → σ → Prop} {x : Script σ α} {heard : γ} {s : σ}
    (h : x.Abides terms hear post heard s) :
    Relation.ReflTransGen (terms heard).owes s (x.advance s).2 ∧
      AbidesAt terms hear post heard (x.advance s).1 (x.advance s).2 := by
  induction x generalizing s with
  | done a => exact ⟨.refl, h⟩
  | read next ih => exact ih s h
  | write s' next ih =>
    obtain ⟨howes, hhalted⟩ := ih h.2
    exact ⟨.head h.1 howes, hhalted⟩
  | ask q next ih => exact ⟨.refl, h⟩

end Script

namespace Rendering

section abides

variable {α β γ : Type} {terms : γ → Terms Engine} {hear : (q : Question) → q.Answer → γ}
  {heard : γ} {e : Engine}

/-- What holds at the end of a part of a render that abides by its terms. -/
def Abides (terms : γ → Terms Engine) (hear : (q : Question) → q.Answer → γ)
    (post : γ → Except ViewError α → Engine → Prop) (x : Rendering α) (heard : γ) (e : Engine) :
    Prop :=
  Script.Abides terms hear post x.run heard e

variable {post : γ → Except ViewError β → Engine → Prop}

theorem Abides.mono {post post' : γ → Except ViewError α → Engine → Prop}
    (hpost : ∀ heard r e, post heard r e → post' heard r e) {x : Rendering α}
    (h : x.Abides terms hear post heard e) : x.Abides terms hear post' heard e :=
  Script.Abides.mono hpost h

/-- One part after another one: the second starts from where the first ends. -/
theorem Abides.bind {mid : γ → Except ViewError α → Engine → Prop} {x : Rendering α}
    {f : α → Rendering β} (hx : x.Abides terms hear mid heard e)
    (hok : ∀ heard a e, mid heard (.ok a) e → (f a).Abides terms hear post heard e)
    (herror : ∀ heard err e, mid heard (.error err) e → post heard (.error err) e) :
    (x >>= f).Abides terms hear post heard e := by
  refine Script.abides_bind.mpr (Script.Abides.mono (fun heard r e hr => ?_) hx)
  cases r with
  | ok a => exact hok heard a e hr
  | error err => exact herror heard err e hr

theorem Abides.pure {b : β} (h : post heard (.ok b) e) :
    Abides terms hear post (pure b) heard e := h

theorem Abides.ofExcept {r : Except ViewError β} (h : post heard r e) :
    Abides terms hear post (ExceptT.mk (Pure.pure r)) heard e := h

/-- What follows a look at the engine is about the engine that was seen. -/
theorem abides_get_bind {f : Engine → Rendering β} :
    (get >>= f).Abides terms hear post heard e ↔ (f e).Abides terms hear post heard e := Iff.rfl

/-- A write has to be one that is owed after what was heard so far. -/
theorem Abides.set_bind {s : Engine} {f : Unit → Rendering β} (howes : (terms heard).owes e s)
    (h : (f ()).Abides terms hear post heard s) : (set s >>= f).Abides terms hear post heard e :=
  ⟨howes, h⟩

theorem Abides.modify_bind {g : Engine → Engine} {f : Unit → Rendering β}
    (howes : (terms heard).owes e (g e)) (h : (f ()).Abides terms hear post heard (g e)) :
    (modify g >>= f).Abides terms hear post heard e :=
  ⟨howes, h⟩

/-- An answer is added to what was heard, and the terms go on from there. -/
theorem Abides.ask_bind {q : Question} {f : q.Answer → Rendering β}
    (h : ∀ answer, (terms heard).allows q answer → ∀ e', (terms heard).rely e e' →
      (f answer).Abides terms hear post (hear q answer) e') :
    (ExceptT.lift (Script.question q) >>= f).Abides terms hear post heard e := h

/-! ## One rule for each part -/

/-- Partials are registered up to the first that does not compile. -/
theorem Abides.register {partials : Partials}
    {post : γ → Except ViewError Unit → Engine → Prop}
    (howes : (terms heard).owes e { e with registry := (registerAll e.registry partials).2 })
    (hpost : post heard
      (match (registerAll e.registry partials).1 with
        | some err => .error (.uncompilable err)
        | none => .ok ())
      { e with registry := (registerAll e.registry partials).2 }) :
    (Engine.register partials).Abides terms hear post heard e := by
  unfold Engine.register
  rw [abides_get_bind]
  generalize registerAll e.registry partials = registered at howes hpost
  obtain ⟨problem, registry⟩ := registered
  refine .set_bind howes ?_
  cases problem with
  | some err => exact hpost
  | none => exact .pure hpost

/-- The partials are registered already, or they are read and registered, and that is noted if they
may be reused. -/
theorem Abides.refreshPartials {reuse : Bool}
    {post : γ → Except ViewError Unit → Engine → Prop}
    (hloaded : (reuse && e.hasPartials) = true → post heard (.ok ()) e)
    (hread : (reuse && e.hasPartials) = false →
      ∀ answer, (terms heard).allows .partials answer → ∀ e', (terms heard).rely e e' →
        (∀ err, partialsOf answer = .error err → post (hear .partials answer) (.error err) e') ∧
          ∀ set, partialsOf answer = .ok set →
            (Engine.register set).Abides terms hear (fun heard r e' => match r with
              | .ok _ =>
                let noted := { e' with hasPartials := true }
                (reuse = true → (terms heard).owes e' noted ∧ post heard (.ok ()) noted) ∧
                  (reuse = false → post heard (.ok ()) e')
              | .error err => post heard (.error err) e') (hear .partials answer) e') :
    (Engine.refreshPartials reuse).Abides terms hear post heard e := by
  unfold Engine.refreshPartials
  rw [abides_get_bind]
  cases hreuse : reuse && e.hasPartials with
  | true => exact .pure (hloaded hreuse)
  | false =>
    rw [if_neg Bool.false_ne_true]
    refine .ask_bind fun answer hanswer e' hrely => ?_
    obtain ⟨hfailed, hset⟩ := hread hreuse answer hanswer e' hrely
    cases hpartials : partialsOf answer with
    | error err => exact hfailed err hpartials
    | ok set =>
      refine Abides.bind (x := Engine.register set) (hset set hpartials) ?_ fun _ err e' h => h
      rintro heard ⟨⟩ e' ⟨hnotes, hleaves⟩
      cases reuse with
      | true => exact hnotes rfl
      | false => exact hleaves rfl

/-- A template is the one that is kept, or what the answer of the source comes to. -/
theorem Abides.obtain {id : TemplateKey} {reuse : Bool}
    {post : γ → Except ViewError LoadedTemplate → Engine → Prop}
    (hhit : ∀ entry, reuse = true → e.cache.get? id = some entry →
      let found := { e with cache := { e.cache with hits := e.cache.hits + 1 } }
      (terms heard).owes e found ∧ post heard (.ok entry.template) found)
    (hmiss : (reuse = true → e.cache.get? id = none) →
      let missed := { e with cache := { e.cache with misses := e.cache.misses + 1 } }
      (terms heard).owes e missed ∧ ∀ answer, (terms heard).allows (.template id) answer →
        ∀ e', (terms heard).rely missed e' →
          let received := { e' with cache := (e'.cache.receive id reuse answer).2 }
          (terms (hear (.template id) answer)).owes e' received ∧
            post (hear (.template id) answer) (e'.cache.receive id reuse answer).1 received) :
    (Engine.obtain id reuse).Abides terms hear post heard e := by
  unfold Engine.obtain
  rw [abides_get_bind]
  rcases e.cache.consult_cases id reuse with ⟨entry, hreuse, hget, hconsult⟩ | ⟨hnone, hconsult⟩
  · rw [hconsult]
    obtain ⟨howes, hpost⟩ := hhit entry hreuse hget
    exact .set_bind howes (.pure hpost)
  · rw [hconsult]
    obtain ⟨howes, hanswered⟩ := hmiss hnone
    refine .set_bind howes (.ask_bind fun answer hanswer e' hrely => ?_)
    obtain ⟨howes', hpost⟩ := hanswered answer hanswer e' hrely
    rw [abides_get_bind]
    exact .set_bind howes' (.ofExcept hpost)

/-- The default layout is the one that is kept, or it is read and kept. -/
theorem Abides.obtainDefault {reuse : Bool}
    {post : γ → Except ViewError (Option LoadedTemplate) → Engine → Prop}
    (hunset : e.settings.defaultLayout = none → post heard (.ok none) e)
    (hkept : ∀ l, reuse = true → e.defaultLayout = some l → post heard (.ok (some l)) e)
    (hread : ∀ name, e.settings.defaultLayout = some name →
      (Engine.obtain (e.keyOf name) reuse).Abides terms hear (fun heard r e' => match r with
        | .ok l => (terms heard).owes e' { e' with defaultLayout := some l } ∧
            post heard (.ok (some l)) { e' with defaultLayout := some l }
        | .error err => post heard (.error err) e') heard e) :
    (Engine.obtainDefault reuse).Abides terms hear post heard e := by
  unfold Engine.obtainDefault
  rw [abides_get_bind]
  cases hname : e.settings.defaultLayout with
  | none => exact .pure (hunset hname)
  | some name =>
    dsimp only
    split
    · rename_i hreuse
      rw [Bool.and_eq_true] at hreuse
      obtain ⟨l, hl⟩ := Option.isSome_iff_exists.mp hreuse.2
      rw [hl]
      exact .pure (hkept l hreuse.1 hl)
    · refine (hread name hname).bind ?_ fun _ err e' h => h
      rintro heard l e' ⟨howes, hpost⟩
      exact .modify_bind howes (.pure hpost)

/-- The layout for a template is the one noted with it, if that may be reused; else it is decided
which layout is read, if any. A layout that a directive names is noted. -/
theorem Abides.layoutFor {template : LoadedTemplate} {request : Request}
    {standard : Option LoadedTemplate}
    {post : γ → Except ViewError (Option LoadedTemplate) → Engine → Prop}
    (hnoted : ∀ l, request.reuse = true → e.cache.layoutOf template.id = some l →
      post heard (.ok (some l)) e)
    (hdirective : ∀ name, Directive.find? template.source = some name →
      (Engine.obtain (.resolve template.id.directory name e.settings.extname)
        request.reuse).Abides terms hear (fun heard r e' => match r with
          | .ok l =>
            let noted := { e' with cache := e'.cache.setLayout template.id l }
            (request.reuse = true → (terms heard).owes e' noted ∧ post heard (.ok (some l)) noted) ∧
              (request.reuse = false → post heard (.ok (some l)) e')
          | .error err => post heard (.error err) e') heard e)
    (hnamed : ∀ name, Directive.find? template.source = none → request.layout = .named name →
      (Engine.obtain (.resolve template.id.directory name e.settings.extname)
        request.reuse).Abides terms hear (fun heard r e' => post heard (r.map some) e') heard e)
    (hdefault : Directive.find? template.source = none → request.layout = .unset →
      post heard (.ok standard) e)
    (hdisabled : Directive.find? template.source = none → request.layout = .disabled →
      post heard (.ok none) e) :
    (Engine.layoutFor template request standard).Abides terms hear post heard e := by
  unfold Engine.layoutFor
  rw [abides_get_bind]
  split
  · rename_i l hnote
    cases hreuse : request.reuse with
    | true =>
      rw [hreuse, if_pos rfl] at hnote
      exact .pure (hnoted l hreuse hnote)
    | false =>
      rw [hreuse] at hnote
      cases hnote
  · cases hfind : Directive.find? template.source with
    | some name =>
      rw [LayoutRequest.decision_eq_directive_iff.mpr hfind]
      refine Abides.bind (hdirective name hfind) ?_ fun _ err e' h => h
      rintro heard l e' ⟨hkeeps, hleaves⟩
      unfold noteLayout
      cases hreuse : request.reuse with
      | true =>
        obtain ⟨howes, hpost⟩ := hkeeps hreuse
        exact .modify_bind howes (.pure hpost)
      | false => exact .pure (hleaves hreuse)
    | none =>
      rw [LayoutRequest.decision_of_find?_eq_none hfind]
      cases hlayout : request.layout with
      | named name =>
        exact Abides.bind (hnamed name hfind hlayout) (fun _ l e' h => h) fun _ err e' h => h
      | disabled => exact .pure (hdisabled hfind hlayout)
      | unset =>
        have hpost := hdefault hfind hlayout
        cases standard with
        | some l => exact .pure hpost
        | none => exact .pure hpost

end abides

/-! ## The same rules for terms that stay -/

section ensures

variable {terms : Terms Engine} {e : Engine}

/-- Registering partials: the registry is written once, with the partials up to one that is broken.
-/
theorem Ensures.register {partials : Partials}
    {post : Except ViewError Unit → Engine → Prop}
    (howes : terms.owes e { e with registry := (registerAll e.registry partials).2 })
    (hpost : post
      (match (registerAll e.registry partials).1 with
        | some err => .error (.uncompilable err)
        | none => .ok ())
      { e with registry := (registerAll e.registry partials).2 }) :
    (Engine.register partials).Ensures terms post e :=
  Script.ensures_iff_abides.mpr (Abides.register howes hpost)

/-- Reading the partials: they are there already, or are asked for, cannot be had, or are registered
and marked so. -/
theorem Ensures.refreshPartials {reuse : Bool} {post : Except ViewError Unit → Engine → Prop}
    (hloaded : (reuse && e.hasPartials) = true → post (.ok ()) e)
    (hread : (reuse && e.hasPartials) = false →
      ∀ answer, terms.allows .partials answer → ∀ e', terms.rely e e' →
        (∀ err, partialsOf answer = .error err → post (.error err) e') ∧
          ∀ set, partialsOf answer = .ok set →
            (Engine.register set).Ensures terms (fun r e' => match r with
              | .ok _ =>
                let noted := { e' with hasPartials := true }
                (reuse = true → terms.owes e' noted ∧ post (.ok ()) noted) ∧
                  (reuse = false → post (.ok ()) e')
              | .error err => post (.error err) e') e') :
    (Engine.refreshPartials reuse).Ensures terms post e := by
  refine Script.ensures_iff_abides.mpr (Abides.refreshPartials hloaded ?_)
  intro hunloaded answer hanswer e' hrely
  obtain ⟨hfailed, hset⟩ := hread hunloaded answer hanswer e' hrely
  exact ⟨hfailed, fun set hpartials => Script.ensures_iff_abides.mp (hset set hpartials)⟩

/-- Obtaining a template: it is kept, or is asked for, cannot be had or compiled, or is put into the
cache where that is allowed. -/
theorem Ensures.obtain {id : TemplateKey} {reuse : Bool}
    {post : Except ViewError LoadedTemplate → Engine → Prop}
    (hhit : ∀ entry, reuse = true → e.cache.get? id = some entry →
      let found := { e with cache := { e.cache with hits := e.cache.hits + 1 } }
      terms.owes e found ∧ post (.ok entry.template) found)
    (hmiss : (reuse = true → e.cache.get? id = none) →
      let missed := { e with cache := { e.cache with misses := e.cache.misses + 1 } }
      terms.owes e missed ∧ ∀ answer, terms.allows (.template id) answer →
        ∀ e', terms.rely missed e' →
          let received := { e' with cache := (e'.cache.receive id reuse answer).2 }
          terms.owes e' received ∧ post (e'.cache.receive id reuse answer).1 received) :
    (Engine.obtain id reuse).Ensures terms post e :=
  Script.ensures_iff_abides.mpr (Abides.obtain hhit hmiss)

/-- Obtaining the default layout: there is none, it is kept, or it is obtained as a template and
kept. -/
theorem Ensures.obtainDefault {reuse : Bool}
    {post : Except ViewError (Option LoadedTemplate) → Engine → Prop}
    (hunset : e.settings.defaultLayout = none → post (.ok none) e)
    (hkept : ∀ l, reuse = true → e.defaultLayout = some l → post (.ok (some l)) e)
    (hread : ∀ name, e.settings.defaultLayout = some name →
      (Engine.obtain (e.keyOf name) reuse).Ensures terms (fun r e' => match r with
        | .ok l => terms.owes e' { e' with defaultLayout := some l } ∧
            post (.ok (some l)) { e' with defaultLayout := some l }
        | .error err => post (.error err) e') e) :
    (Engine.obtainDefault reuse).Ensures terms post e :=
  Script.ensures_iff_abides.mpr (Abides.obtainDefault hunset hkept fun name hname =>
    Script.ensures_iff_abides.mp (hread name hname))

/-- Finding the layout of a view: one is noted, the source names one, the request does, the default
is taken, or there is none. -/
theorem Ensures.layoutFor {template : LoadedTemplate} {request : Request}
    {standard : Option LoadedTemplate}
    {post : Except ViewError (Option LoadedTemplate) → Engine → Prop}
    (hnoted : ∀ l, request.reuse = true → e.cache.layoutOf template.id = some l →
      post (.ok (some l)) e)
    (hdirective : ∀ name, Directive.find? template.source = some name →
      (Engine.obtain (.resolve template.id.directory name e.settings.extname)
        request.reuse).Ensures terms (fun r e' => match r with
          | .ok l =>
            let noted := { e' with cache := e'.cache.setLayout template.id l }
            (request.reuse = true → terms.owes e' noted ∧ post (.ok (some l)) noted) ∧
              (request.reuse = false → post (.ok (some l)) e')
          | .error err => post (.error err) e') e)
    (hnamed : ∀ name, Directive.find? template.source = none → request.layout = .named name →
      (Engine.obtain (.resolve template.id.directory name e.settings.extname)
        request.reuse).Ensures terms (fun r e' => post (r.map some) e') e)
    (hdefault : Directive.find? template.source = none → request.layout = .unset →
      post (.ok standard) e)
    (hdisabled : Directive.find? template.source = none → request.layout = .disabled →
      post (.ok none) e) :
    (Engine.layoutFor template request standard).Ensures terms post e :=
  Script.ensures_iff_abides.mpr (Abides.layoutFor hnoted
    (fun name hname => Script.ensures_iff_abides.mp (hdirective name hname))
    (fun name hfind hlayout => Script.ensures_iff_abides.mp (hnamed name hfind hlayout))
    hdefault hdisabled)

end ensures

end Rendering
end Views
