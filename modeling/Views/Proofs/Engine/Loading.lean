import Views.Proofs.Engine.Reloading
/-!
# Partials that do not compile

A source gives its partials as a set, and an engine registers them in some order. If all of
them compile, all of them are registered. Whether they do does not depend on the order
(`registerAll_problem_iff`), but what is left behind if they do not does: the partials that come
before the first broken one are registered by then (`registerAll_of_broken`). So a load that fails
leaves everything as it was in every order just if those that compile are registered already
(`failsClean_iff`).

Registering goes from partial to partial and stops at the first one that does not compile, without
taking back those before it. A render that loads partials reports the one it stopped at, and the
registry is left in between: `failed_load_leaves_partial`. The mark that partials are registered is
set at the end only, so that the next cached render tries again.
-/

namespace Views

namespace Registry

/-- What is wrong with a partial, if it does not compile. -/
def problem? (r : Registry) (p : String × String) : Option BrokenTemplate :=
  match Template.compile (r.partialOptions p.1) p.2 with
  | .ok _ => none
  | .error error => some { name := p.1, error }

/-- A partial compiles as a registry compiles it. -/
def Compiles (r : Registry) (p : String × String) : Prop := r.problem? p = none

instance (r : Registry) (p : String × String) : Decidable (r.Compiles p) :=
  inferInstanceAs (Decidable (r.problem? p = none))

/-- A partial is registered as it compiles. -/
def Has (r : Registry) (p : String × String) : Prop :=
  ∃ template, Template.compile (r.partialOptions p.1) p.2 = .ok template ∧
    Assoc.find? p.1 r.partials = some template

/-- A partial that is compiled to some template compiles. -/
theorem compiles_of_ok {r : Registry} {p : String × String} {template : Template}
    (h : Template.compile (r.partialOptions p.1) p.2 = .ok template) : r.Compiles p := by
  unfold Compiles problem?
  rw [h]

/-- And one that compiles is compiled to some template. -/
theorem Compiles.exists {r : Registry} {p : String × String} (h : r.Compiles p) :
    ∃ template, Template.compile (r.partialOptions p.1) p.2 = .ok template := by
  unfold Compiles problem? at h
  cases hcompile : Template.compile (r.partialOptions p.1) p.2 with
  | ok template => exact ⟨template, rfl⟩
  | error error =>
    rw [hcompile] at h
    cases h

end Registry

namespace Engine

/-- If the partials in an answer of the source have to be loaded and this goes well, each of them is
registered as it compiles. Where they are registered already, and may be reused, nothing has to be
loaded. -/
def LoadsAll (e : Engine) (reuse : Bool) (answer : Except SourceError Partials) : Prop :=
  ∀ (ω : Type) (reply : (q : Question) → ω → q.Answer × ω) (w : ω),
    (reply .partials w).1 = answer →
      match (refreshPartials reuse).run.run reply e w with
      | (.ok _, e', _) => (reuse && e.hasPartials) = false →
          ∀ set, partialsOf answer = .ok set → ∀ p ∈ set, e'.registry.Has p
      | (.error _, _, _) => True

/-- If the partials in an answer of the source cannot be loaded, the partials that are registered,
the note that they are, and the cache stay as they were. -/
def FailsClean (e : Engine) (reuse : Bool) (answer : Except SourceError Partials) : Prop :=
  ∀ (ω : Type) (reply : (q : Question) → ω → q.Answer × ω) (w : ω),
    (reply .partials w).1 = answer →
      match (refreshPartials reuse).run.run reply e w with
      | (.ok _, _, _) => True
      | (.error _, e', _) => e'.registry.partials = e.registry.partials ∧
          e'.hasPartials = e.hasPartials ∧ e'.cache = e.cache

/-! ## What is registered before something goes wrong -/

/-- The first partial that does not compile is the problem. -/
theorem registerAll_problem (r : Registry) (partials : Partials) :
    (registerAll r partials).1 = partials.findSome? r.problem? := by
  induction partials generalizing r with
  | nil => rfl
  | cons p rest ih =>
    obtain ⟨name, source⟩ := p
    rw [registerAll_cons, List.findSome?_cons, Registry.problem?]
    cases Template.compile (r.partialOptions name) source with
    | ok template => exact ih _
    | error error => rfl

/-- Registering partials goes well just if each of them compiles, in whatever order they come. -/
theorem registerAll_problem_iff {r : Registry} {partials : Partials} :
    (registerAll r partials).1 = none ↔ ∀ p ∈ partials, r.Compiles p := by
  rw [registerAll_problem]
  exact List.findSome?_eq_none_iff

/-- All that come before a partial that does not compile are registered, and no others. -/
theorem registerAll_of_broken {r : Registry} {before : Partials} {broken : String × String}
    {problem : BrokenTemplate} (hbefore : ∀ p ∈ before, r.Compiles p)
    (hbroken : r.problem? broken = some problem) (after : Partials) :
    registerAll r (before ++ broken :: after) = (some problem, (registerAll r before).2) := by
  induction before generalizing r with
  | nil =>
    obtain ⟨name, source⟩ := broken
    rw [List.nil_append, registerAll_cons]
    unfold Registry.problem? at hbroken
    cases hcompile : Template.compile (r.partialOptions name) source with
    | ok template =>
      rw [hcompile] at hbroken
      cases hbroken
    | error error =>
      rw [hcompile] at hbroken
      cases hbroken
      rfl
  | cons p rest ih =>
    obtain ⟨name, source⟩ := p
    rw [List.forall_mem_cons] at hbefore
    obtain ⟨template, hcompile⟩ := hbefore.1.exists
    dsimp only at hcompile
    rw [List.cons_append, registerAll_cons, registerAll_cons, hcompile]
    exact ih hbefore.2 hbroken

/-- Partials that are all registered as they compile, or do not compile, change nothing. -/
theorem registerAll_of_had {r : Registry} {partials : Partials}
    (h : ∀ p ∈ partials, r.Compiles p → r.Has p) : (registerAll r partials).2 = r := by
  induction partials with
  | nil => rfl
  | cons p rest ih =>
    obtain ⟨name, source⟩ := p
    rw [List.forall_mem_cons] at h
    rw [registerAll_cons]
    cases hcompile : Template.compile (r.partialOptions name) source with
    | error error => rfl
    | ok template =>
      obtain ⟨registered, hregistered, hfound⟩ := h.1 (Registry.compiles_of_ok hcompile)
      obtain rfl : template = registered := by
        rw [hcompile] at hregistered
        exact Except.ok.inj hregistered
      dsimp only
      rw [Assoc.put_of_find? hfound]
      exact ih h.2

/-- What is registered without a problem is there. -/
theorem has_registerAll {r : Registry} {partials : Partials}
    (hproblem : (registerAll r partials).1 = none) (hnodup : (partials.map Prod.fst).Nodup) :
    ∀ p ∈ partials, (registerAll r partials).2.Has p := by
  rintro ⟨name, source⟩ hp
  unfold Registry.Has
  rw [Registry.partialOptions, registerAll_preventIndent]
  exact find?_registerAll_of_some hproblem hnodup (Assoc.find?_of_mem_nodup hp hnodup)

/-- How the loading of some partials ends. Nothing but the registry changes, and the note that the
partials are loaded. -/
theorem run_refreshPartials_of_answer {ω : Type} {reply : (q : Question) → ω → q.Answer × ω}
    {e : Engine} {w : ω} {reuse : Bool} (hloads : (reuse && e.hasPartials) = false)
    {set : Partials} (hset : partialsOf (reply .partials w).1 = .ok set) :
    (refreshPartials reuse).run.run reply e w =
      match registerAll e.registry set with
      | (some problem, registry) =>
        (.error (.uncompilable problem), { e with registry }, (reply .partials w).2)
      | (none, registry) =>
        (.ok (), { e with registry, hasPartials := reuse || e.hasPartials },
          (reply .partials w).2) := by
  rw [run_refreshPartials_of_unloaded reply e w hloads, hset]
  dsimp only
  unfold load
  rw [Rendering.run_bind, run_register]
  generalize registerAll e.registry set = registered
  obtain ⟨_ | problem, registry⟩ := registered
  · cases reuse with
    | true => rfl
    | false => rfl
  · rfl

/-! ## All or nothing -/

section whole

variable {e : Engine} {reuse : Bool}

/-- A load that goes well leaves none of the partials out, whatever their order. -/
theorem loadsAll_of_nodup (e : Engine) (reuse : Bool) {order : Partials}
    (hnodup : (order.map Prod.fst).Nodup) : e.LoadsAll reuse (.ok order) := by
  intro ω reply w hanswer
  cases hloads : reuse && e.hasPartials with
  | true =>
    rw [run_refreshPartials_of_loaded reply e w hloads]
    exact fun hnot => by cases hnot
  | false =>
    have hhas : (registerAll e.registry order).1 = none →
        ∀ p ∈ order, (registerAll e.registry order).2.Has p :=
      fun hproblem => has_registerAll hproblem hnodup
    rw [run_refreshPartials_of_answer hloads (by rw [hanswer]; rfl)]
    generalize registerAll e.registry order = registered at hhas
    obtain ⟨_ | problem, registry⟩ := registered
    · intro _ set hset
      obtain rfl : order = set := Except.ok.inj hset
      exact hhas rfl
    · trivial

/-- Where the partials need not be loaded, nothing fails. -/
theorem failsClean_of_loaded (h : (reuse && e.hasPartials) = true)
    (answer : Except SourceError Partials) : e.FailsClean reuse answer := by
  intro ω reply w _
  rw [run_refreshPartials_of_loaded reply e w h]
  trivial

/-- A source that gives no partials leaves nothing behind. -/
theorem failsClean_of_fault (e : Engine) (reuse : Bool) (fault : SourceError) :
    e.FailsClean reuse (.error fault) := by
  cases hloads : reuse && e.hasPartials with
  | true => exact failsClean_of_loaded hloads _
  | false =>
    intro ω reply w hanswer
    rw [run_refreshPartials_of_unloaded reply e w hloads, hanswer]
    cases fault with
    | unreadable id cause => exact ⟨rfl, rfl, rfl⟩
    | notFound id => cases reuse <;> trivial

/-- A load leaves nothing behind if it goes well, or if what it has registered when it fails was
there already. -/
theorem failsClean_of_registered {order : Partials}
    (h : (registerAll e.registry order).1 = none ∨ (registerAll e.registry order).2 = e.registry) :
    e.FailsClean reuse (.ok order) := by
  cases hloads : reuse && e.hasPartials with
  | true => exact failsClean_of_loaded hloads _
  | false =>
    intro ω reply w hanswer
    rw [run_refreshPartials_of_answer hloads (by rw [hanswer]; rfl)]
    generalize registerAll e.registry order = registered at h
    obtain ⟨_ | problem, registry⟩ := registered
    · trivial
    · obtain h | h := h
      · cases h
      · exact ⟨congrArg Registry.partials h, rfl, rfl⟩

/-- What a source answers that has partials and no templates. -/
def partialAnswers (partials : Partials) : (question : Question) → question.Answer
  | .partials => .ok partials
  | .template id => .error (.notFound id.text)
  | .values batch => arrivals batch

/-- If a partial comes right before one that does not compile, nothing is left behind only if the
partial is registered already. -/
theorem FailsClean.has {p broken : String × String} {rest : Partials}
    (h : e.FailsClean reuse (.ok (p :: broken :: rest))) (hloads : (reuse && e.hasPartials) = false)
    (hcompiles : e.registry.Compiles p) (hbroken : ¬ e.registry.Compiles broken) :
    e.registry.Has p := by
  obtain ⟨template, htemplate⟩ := hcompiles.exists
  obtain ⟨problem, hproblem⟩ := Option.ne_none_iff_exists'.mp hbroken
  have hregistered : registerAll e.registry (p :: broken :: rest) =
      (some problem, { e.registry with partials := e.registry.partials.put p.1 template }) := by
    have hp : ∀ q ∈ [p], e.registry.Compiles q := by simpa using hcompiles
    refine (registerAll_of_broken hp hproblem rest).trans ?_
    rw [registerAll_cons, htemplate]
    rfl
  have hrun := h Unit (fun question w => (partialAnswers (p :: broken :: rest) question, w)) () rfl
  rw [run_refreshPartials_of_answer hloads rfl, hregistered] at hrun
  refine ⟨template, htemplate, ?_⟩
  rw [← hrun.1]
  exact Assoc.find?_put_self ..

/-- A source that fails leaves nothing behind, and a load that goes well registers each partial of
the set. A load that fails leaves nothing behind, in whatever order the set is taken, just if there
is nothing to load, or nothing that fails, or each partial that compiles is registered already. -/
theorem failsClean_iff (e : Engine) (reuse : Bool) {set : Partials}
    (hnodup : (set.map Prod.fst).Nodup) :
    (∀ fault, e.FailsClean reuse (.error fault)) ∧
      (∀ order, order.Perm set → e.LoadsAll reuse (.ok order)) ∧
      ((∀ order, order.Perm set → e.FailsClean reuse (.ok order)) ↔
        (reuse && e.hasPartials) = true ∨ (∀ p ∈ set, e.registry.Compiles p) ∨
          ∀ p ∈ set, e.registry.Compiles p → e.registry.Has p) := by
  refine ⟨failsClean_of_fault e reuse, fun order hperm => ?_, ?_⟩
  · exact loadsAll_of_nodup e reuse ((hperm.map Prod.fst).nodup_iff.mpr hnodup)
  constructor
  · intro hclean
    cases hloads : reuse && e.hasPartials with
    | true => exact .inl rfl
    | false =>
      right
      by_cases hall : ∀ p ∈ set, e.registry.Compiles p
      · exact .inl hall
      right
      intro p hp hcompiles
      push Not at hall
      obtain ⟨broken, hmem, hbroken⟩ := hall
      have hne : broken ≠ p := by
        rintro rfl
        exact hbroken hcompiles
      -- an order in which the broken partial comes right after the other
      have hfront : set.Perm (p :: broken :: (List.erase set p).erase broken) := by
        refine (List.perm_cons_erase hp).trans (.cons p ?_)
        exact List.perm_cons_erase ((List.mem_erase_of_ne hne).mpr hmem)
      exact (hclean _ hfront.symm).has hloads hcompiles hbroken
  · intro h order hperm
    obtain hloaded | hall | hhad := h
    · exact failsClean_of_loaded hloaded _
    · apply failsClean_of_registered
      left
      exact registerAll_problem_iff.mpr fun p hp => hall p (hperm.mem_iff.mp hp)
    · apply failsClean_of_registered
      right
      exact registerAll_of_had fun p hp => hhad p (hperm.mem_iff.mp hp)

end whole

/-- A partial that the source has given before, beside one that does not compile. -/
theorem failsClean_unedited :
    let set := [("side", "old"), ("wrong", "\x7b\x7b#each\x7d\x7d")]
    let e := { plain with registry := (registerAll plain.registry [("side", "old")]).2 }
    (set.map Prod.fst).Nodup ∧ ¬ e.registry.Compiles ("wrong", "\x7b\x7b#each\x7d\x7d") ∧
      ∀ order, order.Perm set → e.FailsClean false (.ok order) := by
  intro set e
  have hnodup : (set.map Prod.fst).Nodup := by decide
  have hwrong : ¬ e.registry.Compiles ("wrong", "\x7b\x7b#each\x7d\x7d") := by decide +kernel
  refine ⟨hnodup, hwrong, (failsClean_iff e false hnodup).2.2.mpr (.inr (.inr ?_))⟩
  intro p hp hcompiles
  simp only [set, List.mem_cons, List.not_mem_nil, or_false] at hp
  rcases hp with rfl | rfl
  · have hproblem : (registerAll plain.registry [("side", "old")]).1 = none := by decide +kernel
    exact has_registerAll hproblem (List.nodup_singleton _) _ List.mem_cons_self
  · exact absurd hcompiles hwrong

/-- A page that includes a partial, and a source whose partials are edited: one is changed, and one
is added that does not compile. -/
def editedReply : (q : Question) → Bool → q.Answer × Bool
  | .partials, edited =>
    (.ok (if edited then [("side", "new"), ("wrong", "\x7b\x7b#each\x7d\x7d")]
      else [("side", "old")]), edited)
  | .template _, edited => (.ok "\x7b\x7b> side\x7d\x7d", edited)
  | .values batch, edited => (arrivals batch, edited)

/-- A render that fails for a partial that does not compile changes what later renders include that
do not load the partials at all. -/
theorem failed_load_leaves_partial :
    let before := Session.run editedReply { engine := plain, world := false }
      [.render "page" { reuse := true } {}, .change fun _ => true]
    let after := before.step editedReply (.render "page" {} {})
    let page := fun (session : Session Bool) (request : Request) =>
      ((render "page" request).run.run editedReply session.engine session.world).1.toOption
    page before { reuse := true } = some "old" ∧ page before {} = none ∧
      page after { reuse := true } = some "new" ∧
      ¬ before.engine.FailsClean false
        (.ok [("side", "new"), ("wrong", "\x7b\x7b#each\x7d\x7d")]) := by
  intro before after page
  refine ⟨by decide +kernel, by decide +kernel, by decide +kernel, fun hclean => ?_⟩
  obtain ⟨template, hcompile, hfound⟩ := hclean.has rfl (by decide +kernel) (by decide +kernel)
  let alone (template : Template) :=
    (template.render { registry := plain.registry, data := .null } {}).1
  have hold :
      (Assoc.find? "side" before.engine.registry.partials).map alone = some (.ok "old") := by
    decide +kernel
  have hnew : (Template.compile (before.engine.registry.partialOptions "side") "new").map alone =
      .ok (.ok "new") := by
    decide +kernel
  rw [hfound] at hold
  rw [hcompile] at hnew
  exact absurd ((Option.some.inj hold).symm.trans (Except.ok.inj hnew)) (by decide)

end Engine
end Views
