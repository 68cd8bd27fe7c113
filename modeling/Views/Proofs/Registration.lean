import Views.Engine.Basic
import Views.Proofs.Assoc
/-!
# Registering partials again

Partials that are registered once more leave a registry as it is: `Engine.registerAll_again`. What
carries this is that binding a key that is bound already moves nothing (`Assoc.put_put_comm`), so
that only the last source of each name counts, whatever was registered before. An engine that is
built has read nothing yet (`Engine.build_new`).

A name that is given twice in one set counts with its last source, and takes the place of the first.
That is the reason why registering the same set again is not the identity for trivial reasons: each
single registration may change the registry, and only the last one of its name puts back what was
there. Everything that is said of an engine before its first render starts from `Engine.build_new`.
-/

namespace Views

namespace Engine

/-- The first of some partials is registered, or it is the problem. -/
theorem registerAll_cons (r : Registry) (name source : String) (rest : Partials) :
    registerAll r ((name, source) :: rest) =
      match Template.compile (r.partialOptions name) source with
      | .ok template =>
        registerAll { r with partials := r.partials.put name template } rest
      | .error error => (some { name, error }, r) := by
  rw [registerAll, Registry.addPartial]
  generalize Template.compile (r.partialOptions name) source = compiled
  cases compiled with
  | ok template => rfl
  | error error => rfl

/-- Loading partials leaves the settings of the registry alone. -/
theorem registerAll_preventIndent (r : Registry) (partials : Partials) :
    (registerAll r partials).2.preventIndent = r.preventIndent := by
  induction partials generalizing r with
  | nil => rfl
  | cons p rest ih =>
    obtain ⟨name, source⟩ := p
    rw [registerAll_cons]
    split
    · exact ih _
    · rfl

/-- What is registered under a name stays, or gives way to something else. -/
theorem isSome_find?_registerAll {r : Registry} {name : String}
    (h : (Assoc.find? name r.partials).isSome) (partials : Partials) :
    (Assoc.find? name (registerAll r partials).2.partials).isSome := by
  induction partials generalizing r with
  | nil => exact h
  | cons p rest ih =>
    obtain ⟨other, source⟩ := p
    rw [registerAll_cons]
    split
    · exact ih (Assoc.isSome_find?_put h _ _)
    · exact h

/-- A name that is not among the partials is left alone. -/
theorem find?_registerAll_of_none {name : String} {partials : Partials}
    (h : Assoc.find? name partials = none) (r : Registry) :
    Assoc.find? name (registerAll r partials).2.partials = Assoc.find? name r.partials := by
  induction partials generalizing r with
  | nil => rfl
  | cons p rest ih =>
    obtain ⟨other, source⟩ := p
    by_cases hname : other = name
    · simp [Assoc.find?, hname] at h
    · rw [Assoc.find?, if_neg hname] at h
      rw [registerAll_cons]
      split
      · exact (ih h _).trans (Assoc.find?_put_of_ne (Ne.symm hname) _ _)
      · rfl

/-- If all goes well, each of the partials is found under its name, compiled as the registry
says. -/
theorem find?_registerAll_of_some {r : Registry} {name source : String} {partials : Partials}
    (hproblem : (registerAll r partials).1 = none) (hnodup : (partials.map Prod.fst).Nodup)
    (hsource : Assoc.find? name partials = some source) :
    ∃ template, Template.compile (r.partialOptions name) source = .ok template ∧
      Assoc.find? name (registerAll r partials).2.partials = some template := by
  induction partials generalizing r with
  | nil => cases hsource
  | cons p rest ih =>
    obtain ⟨other, text⟩ := p
    rw [List.map_cons, List.nodup_cons] at hnodup
    rw [registerAll_cons] at hproblem ⊢
    cases hcompile : Template.compile (r.partialOptions other) text with
    | error error =>
      rw [hcompile] at hproblem
      cases hproblem
    | ok template =>
      rw [hcompile] at hproblem
      by_cases hname : other = name
      · subst hname
        obtain rfl : text = source := by simpa [Assoc.find?] using hsource
        refine ⟨template, hcompile, ?_⟩
        have hrest : Assoc.find? other rest = none := Assoc.find?_eq_none_iff.mpr hnodup.1
        exact (find?_registerAll_of_none hrest _).trans (Assoc.find?_put_self ..)
      · rw [Assoc.find?, if_neg hname] at hsource
        exact ih hproblem hnodup.2 hsource

/-- One partial more, under a name that is taken, goes under in the partials registered after it,
or these leave the name alone. -/
theorem registerAll_put (name : String) (template : Template) (preventIndent : Bool)
    (partials : Partials) :
    (∀ r : Registry, r.preventIndent = preventIndent → (Assoc.find? name r.partials).isSome →
      registerAll { r with partials := r.partials.put name template } partials =
        registerAll r partials) ∨
    ∀ r : Registry, r.preventIndent = preventIndent →
      Assoc.find? name (registerAll r partials).2.partials = Assoc.find? name r.partials := by
  induction partials with
  | nil => exact .inr fun r _ => rfl
  | cons p rest ih =>
    obtain ⟨other, source⟩ := p
    have hoptions : ∀ r : Registry, r.preventIndent = preventIndent →
        r.partialOptions other = { name := some other, preventIndent } := by
      intro r hr
      rw [Registry.partialOptions, hr]
    cases hsource : Template.compile { name := some other, preventIndent } source with
    | error error =>
      refine .inr fun r hr => ?_
      rw [registerAll_cons, hoptions r hr, hsource]
    | ok t =>
      have hcons : ∀ r : Registry, r.preventIndent = preventIndent →
          registerAll r ((other, source) :: rest) =
            registerAll { r with partials := r.partials.put other t } rest := by
        intro r hr
        rw [registerAll_cons, hoptions r hr, hsource]
      -- A partial of that name further on makes the binding before it of no account.
      by_cases hname : other = name
      · subst hname
        refine .inl fun r hr _ => ?_
        have hput := hcons { r with partials := r.partials.put other template } hr
        rw [hput, hcons r hr]
        simp only [Assoc.put_put_self]
      · rcases ih with ih | ih
        · refine .inl fun r hr hsome => ?_
          have hput := hcons { r with partials := r.partials.put name template } hr
          rw [hput, hcons r hr]
          simp only [Assoc.put_put_comm hname hsome]
          exact ih { r with partials := r.partials.put other t } hr
            (Assoc.isSome_find?_put hsome other t)
        · refine .inr fun r hr => ?_
          rw [hcons r hr]
          have hrest := ih { r with partials := r.partials.put other t } hr
          exact hrest.trans (Assoc.find?_put_of_ne (Ne.symm hname) _ _)

/-- Registering the same partials again changes nothing, and ends with the same problem if there
is one. -/
theorem registerAll_again (r : Registry) (partials : Partials) :
    registerAll (registerAll r partials).2 partials = registerAll r partials := by
  induction partials generalizing r with
  | nil => rfl
  | cons p rest ih =>
    obtain ⟨name, source⟩ := p
    cases hsource : Template.compile (r.partialOptions name) source with
    | error error =>
      have hstep : registerAll r ((name, source) :: rest) = (some { name, error }, r) := by
        rw [registerAll_cons, hsource]
      rw [hstep]
      exact hstep
    | ok template =>
      let first : Registry := { r with partials := r.partials.put name template }
      have hstep : registerAll r ((name, source) :: rest) = registerAll first rest := by
        rw [registerAll_cons, hsource]
      have hindent : (registerAll first rest).2.preventIndent = r.preventIndent :=
        registerAll_preventIndent first rest
      have hoptions : (registerAll first rest).2.partialOptions name = r.partialOptions name := by
        rw [Registry.partialOptions, hindent, Registry.partialOptions]
      rw [hstep, registerAll_cons, hoptions, hsource]
      have hbound : Assoc.find? name first.partials = some template := Assoc.find?_put_self ..
      rcases registerAll_put name template r.preventIndent rest with hput | hleaves
      · have hsome : (Assoc.find? name (registerAll first rest).2.partials).isSome :=
          isSome_find?_registerAll (by rw [hbound]; rfl) rest
        exact (hput _ hindent hsome).trans (ih first)
      · dsimp only
        rw [Assoc.put_of_find? ((hleaves first rfl).trans hbound)]
        exact ih first

/-! ## Engines that are built -/

section build

variable {settings : Settings} {sourceCheck : Except SetupError Unit} {registry : Registry}
  {helpers : List (String × Helper)} {partials : List (String × String)} {built : Engine}
  (h : build settings sourceCheck registry helpers partials = .ok built)

include h

/-- An engine that is built has its settings and a registry, and nothing else. -/
theorem eq_of_build :
    let start := helpers.foldl (fun r h => r.addHelper h.1 h.2) registry.withContentBlocks
    ∃ r, partials.foldlM (fun r p => Registry.addPartial r p.1 p.2) start = .ok r ∧
      built = { settings, registry := r } := by
  unfold build at h
  cases hsettings : settings.check with
  | error err =>
    rw [hsettings] at h
    cases h
  | ok _ =>
    cases sourceCheck with
    | error err =>
      rw [hsettings] at h
      cases h
    | ok _ =>
      rw [hsettings] at h
      dsimp only [bind, Except.bind] at h
      split at h
      · rename_i r hr
        cases h
        exact ⟨r, hr, rfl⟩
      · cases h

/-- An engine that is built has read nothing yet. -/
theorem build_new :
    built.cache.entries = [] ∧ built.defaultLayout = none ∧ built.hasPartials = false := by
  obtain ⟨r, -, rfl⟩ := eq_of_build h
  exact ⟨rfl, rfl, rfl⟩

end build

/-- The engine that is built from the standard registry with nothing more. -/
def plain : Engine := { settings := {}, registry := Registry.standard.withContentBlocks }

/-- With nothing asked for, the builder gives the plain engine. -/
theorem build_plain : build {} (.ok ()) .standard [] [] = .ok plain := rfl

/-- What a source answers that has a page and a layout. -/
def pageAnswers (page layout : String) : (question : Question) → question.Answer
  | .partials => .ok []
  | .template id =>
    if id.text = "page.hbs" then .ok page
    else if id.text = "main.hbs" then .ok layout
    else .error (.notFound id.text)
  | .values batch => arrivals batch

end Engine
end Views
