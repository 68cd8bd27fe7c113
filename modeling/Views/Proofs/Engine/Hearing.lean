import Views.Proofs.Engine.Loading
import Views.Proofs.Engine.Passes
/-!
# What a part of a render hears

`Script.heard` lists the questions of a script that runs alone with the answers that it gets, and
`Rendering.Ends` says what holds at the end of a part of a render, given what it has heard. What is
wrong with an answer can be read off the exchange (`Exchange.problem?`). Each part that reads
something asks at most one question, fails with what is wrong with the answer, and goes well if
nothing is wrong.

That the source has no partials at all is no problem, although it says so with a fault; every other
fault is one, and so is a text that does not compile. Values are never a problem: a job that fails
has an empty value. All of this is decided by `Exchange.problem?` from the question and the answer,
and the registry for partials, so that it can be said of a list of exchanges without the render that
heard them.
-/

namespace Views

open Engine

/-! ## Exchanges -/

/-- A question with its answer. The type of the answer depends on the question: partials, a template
source, or the ends of some jobs. -/
structure Exchange where
  question : Question
  answer : question.Answer

/-- What is wrong with an answer: a source that fails, unless it says that it has no partials at
all, a text that does not compile, or the first partial that does not. -/
def Exchange.problem? (registry : Registry) : Exchange → Option ViewError
  | ⟨.partials, .ok partials⟩ => (partials.findSome? registry.problem?).map .uncompilable
  | ⟨.partials, .error (.notFound _)⟩ => none
  | ⟨.partials, .error (.unreadable id cause)⟩ => some (.source (.unreadable id cause))
  | ⟨.template id, .ok text⟩ => match LoadedTemplate.compile id text with
    | .ok _ => none
    | .error e => some (.uncompilable e)
  | ⟨.template _, .error e⟩ => some (.source e)
  | ⟨.values _, _⟩ => none

namespace Script

variable {σ α β ω : Type} (reply : (q : Question) → ω → q.Answer × ω)

/-- The exchanges of a script that runs alone. -/
def heard : Script σ α → σ → ω → List Exchange
  | done _, _, _ => []
  | read next, s, w => heard (next s) s w
  | write s next, _, w => heard next s w
  | ask q next, s, w => ⟨q, (reply q w).1⟩ :: heard (next (reply q w).1) s (reply q w).2

/-- Two scripts one after the other hear what the first hears, and then what the second hears from
where the first has led. -/
theorem heard_bind (x : Script σ α) (k : α → Script σ β) (s : σ) (w : ω) :
    (x.bind k).heard reply s w = x.heard reply s w ++
      (k (x.run reply s w).1).heard reply (x.run reply s w).2.1 (x.run reply s w).2.2 := by
  induction x generalizing s w with
  | done a => rfl
  | read next ih => exact ih s s w
  | write s' next ih => exact ih s' w
  | ask q next ih => exact congrArg (_ :: ·) (ih _ s _)

end Script

namespace Rendering

variable {α β : Type}

/-- The exchanges of one part of a render after another one. -/
theorem heard_bind {ω : Type} (reply : (q : Question) → ω → q.Answer × ω) (x : Rendering α)
    (f : α → Rendering β) (e : Engine) (w : ω) :
    (x >>= f).run.heard reply e w = x.run.heard reply e w ++
      match x.run.run reply e w with
      | (.ok a, e', w') => (f a).run.heard reply e' w'
      | (.error _, _, _) => [] := by
  show Script.heard reply (Script.bind x.run _) e w = _
  rw [Script.heard_bind]
  rcases x.run.run reply e w with ⟨r, e', w'⟩
  cases r <;> rfl

/-- What holds at the end of a part of a render that runs alone, whatever it is answered, given what
it has heard. -/
def Ends (x : Rendering α) (e : Engine)
    (post : List Exchange → Except ViewError α → Engine → Prop) : Prop :=
  ∀ (ω : Type) (reply : (q : Question) → ω → q.Answer × ω) (w : ω),
    post (x.run.heard reply e w) (x.run.run reply e w).1 (x.run.run reply e w).2.1

namespace Ends

variable {e : Engine} {post : List Exchange → Except ViewError β → Engine → Prop}

theorem mono {post' : List Exchange → Except ViewError β → Engine → Prop}
    (hpost : ∀ heard r e', post heard r e' → post' heard r e') {x : Rendering β}
    (h : x.Ends e post) : x.Ends e post' :=
  fun ω reply w => hpost _ _ _ (h ω reply w)

theorem pure {b : β} (h : post [] (.ok b) e) : Ends (pure b) e post := fun _ _ _ => h

theorem ofExcept {r : Except ViewError β} (h : post [] r e) :
    Ends (ExceptT.mk (Pure.pure r)) e post := fun _ _ _ => h

theorem get_bind {f : Engine → Rendering β} (h : (f e).Ends e post) : (get >>= f).Ends e post := h

theorem set_bind {s : Engine} {f : Unit → Rendering β} (h : (f ()).Ends s post) :
    (set s >>= f).Ends e post := h

theorem modify_bind {g : Engine → Engine} {f : Unit → Rendering β} (h : (f ()).Ends (g e) post) :
    (modify g >>= f).Ends e post := h

/-- A question is heard with its answer, before all that comes later. -/
theorem ask_bind {q : Question} {f : q.Answer → Rendering β}
    (h : ∀ answer, (f answer).Ends e fun heard => post (⟨q, answer⟩ :: heard)) :
    Ends (ExceptT.lift (Script.question q) >>= f) e post :=
  fun ω reply w => h (reply q w).1 ω reply (reply q w).2

/-- One part after another one: the second starts from where the first ends, and what it hears comes
after what the first has heard. -/
theorem bind {mid : List Exchange → Except ViewError α → Engine → Prop} {x : Rendering α}
    {f : α → Rendering β} (hx : x.Ends e mid)
    (hok : ∀ heard a e', mid heard (.ok a) e' → (f a).Ends e' fun more => post (heard ++ more))
    (herror : ∀ heard err e', mid heard (.error err) e' → post heard (.error err) e') :
    (x >>= f).Ends e post := by
  intro ω reply w
  have hmid := hx ω reply w
  rw [heard_bind, run_bind]
  generalize x.run.run reply e w = out at hmid ⊢
  obtain ⟨r, e', w'⟩ := out
  cases r with
  | ok a => exact hok _ a e' hmid ω reply w'
  | error err =>
    rw [List.append_nil]
    exact herror _ err e' hmid

end Ends

end Rendering

/-! ## How a part of a render ends -/

/-- A result agrees with what was wrong, one thing after the other: nothing was, or the last thing
is the error and nothing was wrong before. -/
def Explains {α : Type} (problems : List (Option ViewError)) : Except ViewError α → Prop
  | .ok _ => ∀ problem ∈ problems, problem = none
  | .error err => ∃ before, problems = before ++ [some err] ∧ ∀ problem ∈ before, problem = none

theorem Explains.ok_nil {α : Type} (a : α) : Explains [] (.ok a) := List.forall_mem_nil _

/-- An error is explained by what is wrong, if that comes last. -/
theorem Explains.error_singleton {α : Type} (err : ViewError) :
    Explains [some err] (.error err : Except ViewError α) := ⟨[], rfl, List.forall_mem_nil _⟩

namespace Engine

variable {α β : Type} {start e e' : Engine}

/-- What a render leaves alone of an engine, as far as its problems depend on it: the settings, and
how partials are compiled. So a problem is the same in whichever engine of a render it is looked at.
-/
structure SameRules (start e : Engine) : Prop where
  settings : e.settings = start.settings
  preventIndent : e.registry.preventIndent = start.registry.preventIndent

theorem SameRules.refl (e : Engine) : e.SameRules e := ⟨rfl, rfl⟩

/-- The rules do not depend on the cache. -/
theorem SameRules.withCache (h : start.SameRules e) (cache : Cache) :
    start.SameRules { e with cache } := ⟨h.settings, h.preventIndent⟩

/-- By the same rules a name has the same identity. -/
theorem SameRules.keyOf (h : start.SameRules e) (name : String) :
    e.keyOf name = start.keyOf name := by
  unfold Engine.keyOf
  rw [h.settings]

/-- By the same rules the same is wrong with a partial. -/
theorem SameRules.problem? (h : start.SameRules e) :
    e.registry.problem? = start.registry.problem? := by
  funext p
  unfold Registry.problem? Registry.partialOptions
  rw [h.preventIndent]

/-- A part of a render has asked what it has to, and ends with what is wrong with the answers. It
asks once at most, so what is wrong is wrong with its last answer. -/
structure Reads (start : Engine) (asks : List Question → Prop) (heard : List Exchange)
    (r : Except ViewError α) (e : Engine) : Prop where
  same : start.SameRules e
  asks : asks (heard.map Exchange.question)
  explains : Explains (heard.map (Exchange.problem? start.registry)) r

variable {asks : List Question → Prop} {heard : List Exchange}

/-- Nothing is asked and nothing goes wrong. -/
theorem Reads.quiet (h : start.SameRules e) (hasks : asks []) {a : α} :
    Reads start asks [] (.ok a) e := ⟨h, hasks, .ok_nil a⟩

theorem Reads.ok {a : α} {b : β} (h : Reads start asks heard (.ok a) e)
    (hsame : start.SameRules e') : Reads start asks (heard ++ []) (.ok b) e' := by
  rw [List.append_nil]
  exact ⟨hsame, h.asks, h.explains⟩

theorem Reads.error {err : ViewError} (h : Reads start asks heard (.error err : Except _ α) e) :
    Reads start asks heard (.error err : Except _ β) e := ⟨h.same, h.asks, h.explains⟩

/-- What is asked for a template: nothing if it is kept and may be reused. -/
def asksFor (e : Engine) (reuse : Bool) (id : TemplateKey) : List Question :=
  if reuse && (e.cache.get? id).isSome then [] else [.template id]

/-- A template is read if it has to be, and the source of it is all that can go wrong. -/
theorem obtain_ends {id : TemplateKey} {reuse : Bool} (hsame : start.SameRules e)
    (hasks : asks (e.asksFor reuse id)) : (obtain id reuse).Ends e (Reads start asks) := by
  unfold obtain
  refine .get_bind ?_
  rcases e.cache.consult_cases id reuse with ⟨entry, hreuse, hget, hconsult⟩ | ⟨hnone, hconsult⟩
  · rw [hconsult]
    have hkept : e.asksFor reuse id = [] := by simp [asksFor, hreuse, hget]
    rw [hkept] at hasks
    exact .set_bind (.pure (.quiet (hsame.withCache _) hasks))
  · rw [hconsult]
    have hasked : e.asksFor reuse id = [.template id] := by
      cases reuse with
      | true => simp [asksFor, hnone rfl]
      | false => simp [asksFor]
    rw [hasked] at hasks
    refine .set_bind (.ask_bind fun answer => .get_bind (.set_bind (.ofExcept ?_)))
    refine ⟨hsame.withCache _, hasks, ?_⟩
    cases answer with
    | error err => exact .error_singleton _
    | ok text =>
      have hproblem : Exchange.problem? start.registry ⟨.template id, .ok text⟩ =
          match LoadedTemplate.compile id text with
          | .ok _ => none
          | .error err => some (.uncompilable err) := rfl
      rw [List.map_singleton, hproblem]
      dsimp only
      cases LoadedTemplate.compile id text with
      | error err => exact .error_singleton _
      | ok template => exact List.forall_mem_singleton.mpr rfl

/-- A default layout that is set and not kept is read. -/
theorem obtainDefault_ends {reuse : Bool} (hsame : start.SameRules e)
    (hunset : e.settings.defaultLayout = none → asks [])
    (hkept : reuse = true → e.defaultLayout.isSome → asks [])
    (hread : ∀ {name}, e.settings.defaultLayout = some name →
      (reuse && e.defaultLayout.isSome) = false → asks (e.asksFor reuse (e.keyOf name))) :
    (obtainDefault reuse).Ends e (Reads start asks) := by
  unfold obtainDefault
  refine .get_bind ?_
  cases hname : e.settings.defaultLayout with
  | none => exact .pure (.quiet hsame (hunset hname))
  | some name =>
    dsimp only
    cases hstandard : reuse && e.defaultLayout.isSome with
    | true =>
      obtain ⟨hreuse, hsome⟩ := (Bool.and_eq_true _ _).mp hstandard
      exact .pure (.quiet hsame (hkept hreuse hsome))
    | false =>
      refine .bind (obtain_ends hsame (hread hname hstandard)) (fun heard layout e' h => ?_)
        fun heard err e' h => h.error
      exact .modify_bind (.pure (h.ok ⟨h.same.settings, h.same.preventIndent⟩))

/-- A layout that the template or the request names is read, if no layout is noted. -/
theorem layoutFor_ends {template : LoadedTemplate} {request : Request}
    (hsame : start.SameRules e)
    (hnoted : request.reuse = true → (e.cache.layoutOf template.id).isSome → asks [])
    (hread : ∀ {layout}, (request.reuse = true → e.cache.layoutOf template.id = none) →
      (Directive.find? template.source = some layout ∨
        Directive.find? template.source = none ∧ request.layout = .named layout) →
      asks (e.asksFor request.reuse
        (.resolve template.id.directory layout e.settings.extname)))
    (hunnamed : Directive.find? template.source = none →
      (∀ layout, request.layout ≠ .named layout) → asks [])
    (standard : Option LoadedTemplate) :
    (layoutFor template request standard).Ends e (Reads start asks) := by
  unfold layoutFor
  refine .get_bind ?_
  cases hnote : if request.reuse then e.cache.layoutOf template.id else none with
  | some layout =>
    cases hreuse : request.reuse with
    | true =>
      rw [hreuse, if_pos rfl] at hnote
      exact .pure (.quiet hsame (hnoted hreuse (by rw [hnote]; rfl)))
    | false =>
      rw [hreuse] at hnote
      cases hnote
  | none =>
    have hnone : request.reuse = true → e.cache.layoutOf template.id = none := fun hreuse => by
      rwa [hreuse, if_pos rfl] at hnote
    have hbeside : ∀ {layout : String}, Directive.find? template.source = some layout ∨
        Directive.find? template.source = none ∧ request.layout = .named layout →
          (obtainBeside template.id layout request.reuse).Ends e (Reads start asks) :=
      fun hnames => .get_bind (obtain_ends hsame (hread hnone hnames))
    cases hfind : Directive.find? template.source with
    | some name =>
      rw [LayoutRequest.decision_eq_directive_iff.mpr hfind]
      refine .bind (hbeside (.inl hfind)) (fun heard layout e' h => ?_)
        fun heard err e' h => h.error
      unfold noteLayout
      cases request.reuse with
      | true => exact .modify_bind (.pure (h.ok (h.same.withCache _)))
      | false => exact .pure (h.ok h.same)
    | none =>
      rw [LayoutRequest.decision_of_find?_eq_none hfind]
      cases hlayout : request.layout with
      | named name =>
        refine .bind (hbeside (.inr ⟨hfind, hlayout⟩)) (fun heard layout e' h => ?_)
          fun heard err e' h => h.error
        exact .pure (h.ok h.same)
      | disabled => exact .pure (.quiet hsame (hunnamed hfind (by simp [hlayout])))
      | unset =>
        have hasks : asks [] := hunnamed hfind (by simp [hlayout])
        cases standard with
        | some layout => exact .pure (.quiet hsame hasks)
        | none => exact .pure (.quiet hsame hasks)

/-- Partials are registered without a question, and the first that does not compile is all that can
go wrong. -/
theorem load_ends (hsame : start.SameRules e) (partials : Partials) (reuse : Bool) :
    (load partials reuse).Ends e fun heard r e' => heard = [] ∧ start.SameRules e' ∧
      Explains [(partials.findSome? start.registry.problem?).map .uncompilable] r := by
  have hproblem := registerAll_problem e.registry partials
  have hindent := registerAll_preventIndent e.registry partials
  rw [hsame.problem?] at hproblem
  unfold load register
  generalize partials.findSome? start.registry.problem? = problem at hproblem ⊢
  rw [bind_assoc]
  refine .get_bind ?_
  generalize registerAll e.registry partials = registered at hproblem hindent ⊢
  obtain ⟨problem', registry⟩ := registered
  obtain rfl : problem' = problem := hproblem
  have hsame' : start.SameRules { e with registry } :=
    ⟨hsame.settings, hindent.trans hsame.preventIndent⟩
  cases problem' with
  | some err => exact fun _ _ _ => ⟨rfl, hsame', .error_singleton _⟩
  | none =>
    have hright : Explains [none] (.ok () : Except ViewError Unit) :=
      List.forall_mem_singleton.mpr rfl
    cases reuse with
    | true => exact fun _ _ _ => ⟨rfl, ⟨hsame'.settings, hsame'.preventIndent⟩, hright⟩
    | false => exact fun _ _ _ => ⟨rfl, hsame', hright⟩

/-- The partials are read if they have to be, and registered. -/
theorem refreshPartials_ends {reuse : Bool} (hsame : start.SameRules e)
    (hasks : asks (if reuse && e.hasPartials then [] else [.partials])) :
    (refreshPartials reuse).Ends e (Reads start asks) := by
  unfold refreshPartials
  refine .get_bind ?_
  cases hloaded : reuse && e.hasPartials with
  | true =>
    rw [hloaded, if_pos rfl] at hasks
    exact .pure (.quiet hsame hasks)
  | false =>
    rw [hloaded, if_neg Bool.false_ne_true] at hasks
    have hload : ∀ {answer : Except SourceError Partials} (partials : Partials),
        Exchange.problem? start.registry ⟨.partials, answer⟩ =
          (partials.findSome? start.registry.problem?).map .uncompilable →
        (load partials reuse).Ends e
          fun heard => Reads start asks (⟨.partials, answer⟩ :: heard) := by
      intro answer partials hproblem
      refine (load_ends hsame partials reuse).mono ?_
      rintro _ r e' ⟨rfl, hsame', hexplains⟩
      rw [← hproblem] at hexplains
      exact ⟨hsame', hasks, hexplains⟩
    refine .ask_bind fun answer => ?_
    cases answer with
    | ok partials => exact hload partials rfl
    | error err => cases err with
      | notFound id => exact hload [] rfl
      | unreadable id cause => exact fun _ _ _ => ⟨hsame, hasks, .error_singleton _⟩

end Engine
end Views
