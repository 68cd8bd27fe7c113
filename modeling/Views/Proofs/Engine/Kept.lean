import Views.Proofs.Engine.Conduct
import Views.Proofs.Engine.Rules
import Views.Proofs.Engine.Selecting
import Views.Proofs.Registration
/-!
# What is kept of a source that does not change

If the answers of a source are always the same, though any question may meet with a fault, then
what an engine keeps is what reading it again would give: `Source.Kept` is this invariant, and
`Source.conduct` says that every call, and every clearing of the cache, preserves it. So a view and
a layout are selected as by an engine that keeps nothing, `Source.selection`, or the result is one
of the faults (`Source.select_ensures`).

Faults are what makes this less than an equation. A call that hears one fails with it, and has kept
by then what it had read before; another call goes on from that. `Agrees` says of a result that it
is the expected one or one of the faults, and `Source.Gives` carries this from part to part: a part
that is expected to fail may fail otherwise, but one that goes well has given what was expected, and
only for that value the next part need be looked at.
-/

namespace Views

open Engine

namespace Source

/-! ## Selecting without keeping anything -/

/-- A registry with the partials of the source, up to the first that does not compile. -/
def extend (source : Source) (registry : Registry) : Registry :=
  match partialsOf source.partials with
  | .ok partials => (registerAll registry partials).2
  | .error _ => registry

/-- What keeps the partials of the source from being registered, if anything does. -/
def problem? (source : Source) (registry : Registry) : Option ViewError :=
  match partialsOf source.partials with
  | .ok partials => (registerAll registry partials).1.map .uncompilable
  | .error e => some e

/-- The default layout, if one is set. -/
def standard (source : Source) (engine : Engine) : Except ViewError (Option LoadedTemplate) :=
  match engine.settings.defaultLayout with
  | none => .ok none
  | some name => (source.fetch (engine.keyOf name)).map some

/-- The layout of a name, looked up in the directory of a template. -/
def beside (source : Source) (engine : Engine) (template : TemplateKey) (name : String) :
    Except ViewError (Option LoadedTemplate) :=
  (source.fetch (.resolve template.directory name engine.settings.extname)).map some

/-- The layout for a template. -/
def layoutOf (source : Source) (engine : Engine) (template : LoadedTemplate) (request : Request)
    (standard : Option LoadedTemplate) : Except ViewError (Option LoadedTemplate) :=
  match request.layout.decision template.source standard.isSome with
  | .directive name => source.beside engine template.id name
  | .named name => source.beside engine template.id name
  | .default => .ok standard
  | .none => .ok none

/-- A view and its layout, read from the source with nothing kept. It is what every call selects if
no fault comes in between, whatever is kept by then. -/
def selection (source : Source) (engine : Engine) (name : String) (request : Request) :
    Except ViewError (LoadedTemplate × Option LoadedTemplate) :=
  match source.problem? engine.registry with
  | some e => .error e
  | none => do
    let standard ← source.standard engine
    let template ← source.fetch (engine.keyOf name)
    let layout ← source.layoutOf engine template request standard
    pure (template, layout)

section layoutOf

variable {source : Source} {engine : Engine} {template : LoadedTemplate}

/-- A template that carries a directive takes the layout it names, whatever the request asks for. -/
theorem layoutOf_of_directive {name : String} (h : Directive.find? template.source = some name)
    (request : Request) (standard : Option LoadedTemplate) :
    source.layoutOf engine template request standard = source.beside engine template.id name := by
  rw [layoutOf, LayoutRequest.decision_eq_directive_iff.mpr h]

/-- A template without a directive takes the layout of the request, and the default where the
request leaves it unset. -/
theorem layoutOf_of_find?_eq_none (h : Directive.find? template.source = none)
    (request : Request) (standard : Option LoadedTemplate) :
    source.layoutOf engine template request standard = match request.layout with
      | .named name => source.beside engine template.id name
      | .unset => .ok standard
      | .disabled => .ok none := by
  rw [layoutOf, LayoutRequest.decision_of_find?_eq_none h]
  cases request.layout with
  | named name => rfl
  | disabled => rfl
  | unset => cases standard <;> rfl

end layoutOf

/-- A fault other than an absent directory is a failure to read the partials. -/
theorem partialsOf_of_fault {f : SourceError} (h : f.isNotFound = false) :
    partialsOf (.error f) = .error (.source f) := by
  unfold partialsOf
  simp [h]

/-! ## What is kept -/

/-- What an engine keeps, from some start on, is what reading it again would give. The settings and
the helpers are those of the start; the partials registered are those of the start, or these with
the source's own. -/
structure Kept (source : Source) (start e : Engine) : Prop where
  settings : e.settings = start.settings
  registry : e.registry = start.registry ∨ e.registry = source.extend start.registry
  hasPartials : e.hasPartials →
    source.problem? start.registry = none ∧ e.registry = source.extend start.registry
  template : ∀ {id entry}, e.cache.get? id = some entry → source.fetch id = .ok entry.template
  layout : ∀ {id entry l}, e.cache.get? id = some entry → entry.layout = some l →
    ∃ name, Directive.find? entry.template.source = some name ∧
      source.beside start id name = .ok (some l)
  defaultLayout : ∀ {l}, e.defaultLayout = some l → source.standard start = .ok (some l)

namespace Kept

variable {source : Source} {start e : Engine}

/-- A name stands for the same identity as long as the source's answers are kept. -/
theorem keyOf (h : source.Kept start e) (name : String) : e.keyOf name = start.keyOf name := by
  unfold Engine.keyOf
  rw [h.settings]

/-- An engine that keeps nothing keeps nothing wrong. -/
theorem of_new (hsettings : e.settings = start.settings) (hregistry : e.registry = start.registry)
    (hcache : e.cache.entries = []) (hlayout : e.defaultLayout = none)
    (hpartials : e.hasPartials = false) : source.Kept start e where
  settings := hsettings
  registry := .inl hregistry
  hasPartials h := by
    rw [hpartials] at h
    cases h
  template h := by
    rw [Cache.get?, hcache] at h
    cases h
  layout h := by
    rw [Cache.get?, hcache] at h
    cases h
  defaultLayout h := by
    rw [hlayout] at h
    cases h

/-- Forgetting what was read leaves nothing wrong. -/
theorem forget (h : source.Kept start e) : source.Kept start e.forget where
  settings := h.settings
  registry := h.registry
  hasPartials hpartials := by cases hpartials
  template hentry := by cases hentry
  layout hentry := by cases hentry
  defaultLayout hlayout := by cases hlayout

/-- What the cache keeps is what the source has. -/
theorem holds (h : source.Kept start e) :
    e.cache.Holds (fun id template => source.fetch id = .ok template)
      fun id template l => ∃ name, Directive.find? template.source = some name ∧
        source.beside start id name = .ok (some l) :=
  ⟨h.template, h.layout⟩

/-- A cache that keeps what the source has may take the place of another. -/
theorem withCache (h : source.Kept start e) {cache : Cache}
    (hcache : cache.Holds (fun id template => source.fetch id = .ok template)
      fun id template l => ∃ name, Directive.find? template.source = some name ∧
        source.beside start id name = .ok (some l)) :
    source.Kept start { e with cache } :=
  { h with template := hcache.template, layout := hcache.layout }

/-- Only what is read matters. -/
theorem of_entries {cache : Cache} (h : source.Kept start e)
    (hentries : cache.entries = e.cache.entries) : source.Kept start { e with cache } :=
  h.withCache (h.holds.of_entries hentries)

/-- What the source answers may be taken in. -/
theorem receive (h : source.Kept start e) (id : TemplateKey) (reuse : Bool) :
    source.Kept start { e with cache := (e.cache.receive id reuse (source.template id)).2 } := by
  refine h.withCache (h.holds.receive fun _ text template hanswer hcompile => ?_)
  rw [fetch, hanswer]
  dsimp only
  rw [hcompile]

/-- The layout that a directive names may be noted with the template. -/
theorem setLayout (h : source.Kept start e) {template l : LoadedTemplate} {name : String}
    (hfetch : source.fetch template.id = .ok template)
    (hname : Directive.find? template.source = some name)
    (hlayout : source.beside start template.id name = .ok (some l)) :
    source.Kept start { e with cache := e.cache.setLayout template.id l } := by
  refine h.withCache (h.holds.setLayout fun kept hkept => ?_)
  cases (h.holds.of_templateOf hkept).symm.trans hfetch
  exact ⟨name, hname, hlayout⟩

/-- The partials of the source may be registered at any moment; what comes of it is always the
same. -/
theorem registerAll (h : source.Kept start e) {partials : Partials}
    (hpartials : partialsOf source.partials = .ok partials) :
    (Engine.registerAll e.registry partials).2 = source.extend start.registry ∧
      (Engine.registerAll e.registry partials).1.map ViewError.uncompilable =
        source.problem? start.registry := by
  have hextend : source.extend start.registry = (Engine.registerAll start.registry partials).2 := by
    rw [extend, hpartials]
  have hproblem : source.problem? start.registry =
      (Engine.registerAll start.registry partials).1.map .uncompilable := by
    rw [problem?, hpartials]
  rw [hextend, hproblem]
  rcases h.registry with hregistry | hregistry
  · rw [hregistry]
    exact ⟨rfl, rfl⟩
  · rw [hregistry, hextend, registerAll_again]
    exact ⟨rfl, rfl⟩

/-- An engine still keeps the source's answers after the source's partials are registered. -/
theorem extended (h : source.Kept start e) :
    source.Kept start { e with registry := source.extend start.registry } :=
  { h with
    registry := .inr rfl
    hasPartials := fun hpartials => ⟨(h.hasPartials hpartials).1, rfl⟩ }

end Kept

/-! ## The conduct of calls -/

/-- The answers of a source that does not change, but may fail to be read at any moment; the jobs of
deferred helpers deliver. A fault of the moment is told apart from an absence, which is part of what
the source has. -/
def MayAnswer (source : Source) : (question : Question) → question.Answer → Prop
  | .partials, answer =>
    answer = source.partials ∨ ∃ id cause, answer = .error (.unreadable id cause)
  | .template id, answer =>
    answer = source.template id ∨ ∃ id cause, answer = .error (.unreadable id cause)
  | .values batch, ends => Delivers batch ends

/-- What may happen to an engine while a call waits: what is kept stays right, partials that are
registered stay, and no token is given back. -/
def conduct (source : Source) (start : Engine) : Conduct where
  rely e e' := (source.Kept start e → source.Kept start e') ∧
    (e.registry = source.extend start.registry → e'.registry = source.extend start.registry) ∧
    e'.tokens.source = e.tokens.source ∧ e.tokens.used ≤ e'.tokens.used
  allows := source.MayAnswer
  refl e := ⟨id, id, rfl, Nat.le_refl _⟩
  trans := by
    rintro e e' e'' ⟨hkept, hregistry, hsource, hused⟩ ⟨hkept', hregistry', hsource', hused'⟩
    exact ⟨hkept' ∘ hkept, hregistry' ∘ hregistry, hsource'.trans hsource, hused.trans hused'⟩
  forget e := ⟨Kept.forget, id, rfl, Nat.le_refl _⟩

/-- An answer is what the source has, or one of some faults. -/
def Hears (source : Source) (faults : List SourceError) : (question : Question) →
    question.Answer → Prop
  | .partials, answer =>
    answer = source.partials ∨ ∃ f ∈ faults, f.isNotFound = false ∧ answer = .error f
  | .template id, answer => answer = source.template id ∨ ∃ f ∈ faults, answer = .error f
  | .values batch, ends => Delivers batch ends

/-- The terms of a call that hears what the source has or one of some faults. -/
def terms (source : Source) (start : Engine) (faults : List SourceError) : Terms Engine where
  rely := (source.conduct start).rely
  allows := source.Hears faults
  owes := (source.conduct start).rely

/-- What a call hears under the conduct is what the source has, or one of its own faults. -/
theorem hears_of_allows {source : Source} {start : Engine} {faults : List SourceError}
    {question : Question} {answer : question.Answer}
    (h : ((source.conduct start).terms faults).allows question answer) :
    source.Hears faults question answer := by
  obtain ⟨hmay, hfaults⟩ := h
  cases question with
  | partials =>
    rcases hmay with hanswer | ⟨id, cause, rfl⟩
    · exact .inl hanswer
    · exact .inr ⟨_, hfaults _ rfl, rfl, rfl⟩
  | template id =>
    rcases hmay with hanswer | ⟨id, cause, rfl⟩
    · exact .inl hanswer
    · exact .inr ⟨_, hfaults _ rfl, rfl⟩
  | values batch => exact hmay

/-! ## What calls select -/

/-- A result is the expected one, or it is one of some faults. -/
def Agrees {α : Type} (faults : List SourceError) (expected r : Except ViewError α) : Prop :=
  r = expected ∨ ∃ f ∈ faults, r = .error (.source f)

/-- An error that agrees with a first step agrees with it and all that would follow. -/
theorem Agrees.error {α β : Type} {faults : List SourceError} {expected : Except ViewError α}
    {err : ViewError} (h : Agrees faults expected (.error err)) (f : α → Except ViewError β) :
    Agrees faults (expected >>= f) (.error err) := by
  rcases h with rfl | ⟨fault, hfault, he⟩
  · exact .inl rfl
  · cases he
    exact .inr ⟨fault, hfault, rfl⟩

/-- What goes well is as expected. -/
theorem Agrees.of_ok {α : Type} {faults : List SourceError} {expected : Except ViewError α} {a : α}
    (h : Agrees faults expected (.ok a)) : expected = .ok a := by
  rcases h with h | ⟨fault, -, h⟩
  · exact h.symm
  · cases h

/-- Agreement is kept by what is done to the value afterwards. -/
theorem Agrees.map {α β : Type} {faults : List SourceError} {expected r : Except ViewError α}
    (h : Agrees faults expected r) (f : α → β) : Agrees faults (expected.map f) (r.map f) := by
  rcases h with rfl | ⟨fault, hfault, rfl⟩
  · exact .inl rfl
  · exact .inr ⟨fault, hfault, rfl⟩

/-- What is kept is right, and the partials of the source are registered. -/
structure Ready (source : Source) (start e : Engine) : Prop extends source.Kept start e where
  extended : e.registry = source.extend start.registry

/-- Once the partials are registered, a part of a render gives the expected result or one of some
faults, whatever goes on meanwhile. -/
def Gives {α : Type} (source : Source) (start : Engine) (faults : List SourceError)
    (x : Rendering α) (expected : Except ViewError α) : Prop :=
  ∀ e, source.Ready start e → x.Ensures (source.terms start faults)
    (fun r e => source.Ready start e ∧ Agrees faults expected r) e

section gives

variable {α β : Type} {source : Source} {start e : Engine} {faults : List SourceError}

/-- A ready engine is ready after the writes of other renders. -/
theorem Ready.rely {e' : Engine} (h : source.Ready start e)
    (hrely : (source.conduct start).rely e e') : source.Ready start e' :=
  ⟨hrely.1 h.toKept, hrely.2.1 h.extended⟩

/-- A write that leaves what is kept right and the rest as it is may be counted on. -/
theorem rely_of_kept {e' : Engine} (hkept : source.Kept start e')
    (hregistry : e.registry = source.extend start.registry →
      e'.registry = source.extend start.registry)
    (htokens : e'.tokens = e.tokens) : (source.conduct start).rely e e' := by
  refine ⟨fun _ => hkept, hregistry, ?_, ?_⟩
  · rw [htokens]
  · rw [htokens]

/-- And after a write of its own that keeps to the source. -/
theorem Ready.write {e' : Engine} (h : source.Ready start e) (hkept : source.Kept start e')
    (hregistry : e'.registry = e.registry) (htokens : e'.tokens = e.tokens) :
    (source.conduct start).rely e e' ∧ source.Ready start e' :=
  ⟨rely_of_kept hkept (fun hr => hregistry.trans hr) htokens,
    ⟨hkept, hregistry.trans h.extended⟩⟩

namespace Gives

theorem pure (a : α) : source.Gives start faults (Pure.pure a) (.ok a) :=
  fun _ hready => .pure ⟨hready, .inl rfl⟩

/-- Two scripts in a row give what their expected outcomes give in a row. The second is needed only
for the value that the first is expected to give. -/
theorem bind {x : Rendering α} {f : α → Rendering β} {a : Except ViewError α}
    {b : α → Except ViewError β} (hx : source.Gives start faults x a)
    (hf : ∀ v, a = .ok v → source.Gives start faults (f v) (b v)) :
    source.Gives start faults (x >>= f) (a >>= b) := by
  intro e hready
  refine (hx e hready).bind ?_ ?_
  · rintro v e' ⟨hready', hagrees⟩
    have ha := hagrees.of_ok
    have hfv := hf v ha e' hready'
    rw [ha]
    exact hfv
  · rintro err e' ⟨hready', hagrees⟩
    exact ⟨hready', hagrees.error b⟩

end Gives

/-- A template is the one that the source has, whether it was kept or is read. -/
theorem obtain_gives (id : TemplateKey) (reuse : Bool) :
    source.Gives start faults (obtain id reuse) (source.fetch id) := by
  intro e hready
  -- Counting a look-up leaves what is kept as it is.
  have hcounted : ∀ cache : Cache, cache.entries = e.cache.entries →
      (source.conduct start).rely e { e with cache } ∧ source.Ready start { e with cache } :=
    fun _ hentries => hready.write (hready.of_entries hentries) rfl rfl
  refine .obtain (fun entry _ hentry => ?hit) fun _ => ?miss
  case hit =>
    obtain ⟨hwrite, hready'⟩ := hcounted { e.cache with hits := e.cache.hits + 1 } rfl
    exact ⟨hwrite, hready', .inl (hready.template hentry).symm⟩
  case miss =>
    obtain ⟨hwrite, hready'⟩ := hcounted { e.cache with misses := e.cache.misses + 1 } rfl
    refine ⟨hwrite, fun answer hanswer e' hrely => ?_⟩
    have hready' := hready'.rely hrely
    rcases hanswer with rfl | ⟨fault, hfault, rfl⟩
    · obtain ⟨hwrite', hready''⟩ := hready'.write (hready'.receive id reuse) rfl rfl
      exact ⟨hwrite', hready'', .inl (receive_template ..)⟩
    · obtain ⟨hwrite', hready''⟩ := hready'.write hready'.toKept rfl rfl
      exact ⟨hwrite', hready'', .inr ⟨fault, hfault, rfl⟩⟩

theorem obtainDefault_gives (reuse : Bool) :
    source.Gives start faults (obtainDefault reuse) (source.standard start) := by
  intro e hready
  refine .obtainDefault (fun hunset => ?unset) (fun l _ hl => ?kept) fun name hname => ?read
  case unset =>
    rw [hready.settings] at hunset
    exact ⟨hready, .inl (by rw [standard, hunset])⟩
  case kept => exact ⟨hready, .inl (hready.defaultLayout hl).symm⟩
  case read =>
    rw [hready.settings] at hname
    have hstandard : source.standard start = (source.fetch (start.keyOf name)).map some := by
      rw [standard, hname]
    rw [hready.keyOf, hstandard]
    refine (obtain_gives _ _ e hready).mono fun r e' h => ?_
    obtain ⟨hready', hagrees⟩ := h
    cases r with
    | error err => exact ⟨hready', hagrees.map some⟩
    | ok l =>
      -- A layout that was read is the one that the source has.
      have hkept : source.Kept start { e' with defaultLayout := some l } := by
        refine { hready'.toKept with defaultLayout := fun hl => ?_ }
        cases hl
        rw [hstandard, hagrees.of_ok]
        rfl
      obtain ⟨hwrite, hready''⟩ := hready'.write hkept rfl rfl
      exact ⟨hwrite, hready'', hagrees.map some⟩

/-- So is the layout for a template, even if it was noted with the template. -/
theorem layoutFor_gives {id : TemplateKey} {template : LoadedTemplate}
    (hfetch : source.fetch id = .ok template) (request : Request)
    (standard : Option LoadedTemplate) :
    source.Gives start faults (layoutFor template request standard)
      (source.layoutOf start template request standard) := by
  intro e hready
  have hid := id_of_fetch hfetch
  subst hid
  refine .layoutFor (fun l _ hnoted => ?noted) (fun name hfind => ?directive)
    (fun name hfind hrequest => ?named) (fun hfind hrequest => ?default)
    fun hfind hrequest => ?disabled
  case noted =>
    obtain ⟨entry, hentry, hlayout⟩ := Option.bind_eq_some_iff.mp hnoted
    obtain ⟨name, hname, hbeside⟩ := hready.layout hentry hlayout
    cases (hready.template hentry).symm.trans hfetch
    rw [layoutOf_of_directive hname, hbeside]
    exact ⟨hready, .inl rfl⟩
  case directive =>
    rw [layoutOf_of_directive hfind, hready.settings]
    refine (obtain_gives _ _ e hready).mono fun r e' h => ?_
    obtain ⟨hready', hagrees⟩ := h
    cases r with
    | error err => exact ⟨hready', hagrees.map some⟩
    | ok l =>
      -- The layout may be noted, since reading it again would give it again.
      have hbeside : source.beside start template.id name = .ok (some l) := by
        rw [beside, hagrees.of_ok]
        rfl
      rw [hbeside]
      obtain ⟨hwrite, hready''⟩ :=
        hready'.write (hready'.setLayout hfetch hfind hbeside) rfl rfl
      exact ⟨fun _ => ⟨hwrite, hready'', .inl rfl⟩, fun _ => ⟨hready', .inl rfl⟩⟩
  case named =>
    rw [layoutOf_of_find?_eq_none hfind, hrequest, hready.settings]
    refine (obtain_gives _ _ e hready).mono fun r e' h => ?_
    obtain ⟨hready', hagrees⟩ := h
    exact ⟨hready', hagrees.map some⟩
  case default =>
    rw [layoutOf_of_find?_eq_none hfind, hrequest]
    exact ⟨hready, .inl rfl⟩
  case disabled =>
    rw [layoutOf_of_find?_eq_none hfind, hrequest]
    exact ⟨hready, .inl rfl⟩

/-- The partials of the source are registered, up to the problem that they always have. -/
theorem register_ensures {partials : Partials}
    (hpartials : partialsOf source.partials = .ok partials)
    (hkept : source.Kept start e) :
    (register partials).Ensures (source.terms start faults) (fun r e => source.Ready start e ∧
      match r with
      | .ok _ => source.problem? start.registry = none
      | .error err => source.problem? start.registry = some err) e := by
  obtain ⟨hregistry, hproblem⟩ := hkept.registerAll hpartials
  have hwrite : (source.conduct start).rely e { e with registry := source.extend start.registry } :=
    rely_of_kept hkept.extended (fun _ => rfl) rfl
  have hready : source.Ready start { e with registry := source.extend start.registry } :=
    ⟨hkept.extended, rfl⟩
  rw [← hregistry] at hwrite hready
  refine .register hwrite ⟨hready, ?_⟩
  rw [← hproblem]
  cases (Engine.registerAll e.registry partials).1 with
  | none => rfl
  | some err => rfl

/-- The partials of the source are registered, or they have the problem that they always have. -/
theorem refreshPartials_ensures (reuse : Bool) (hkept : source.Kept start e) :
    (refreshPartials reuse).Ensures (source.terms start faults) (fun r e => match r with
      | .ok _ => source.problem? start.registry = none ∧ source.Ready start e
      | .error err => source.problem? start.registry = some err ∨
        ∃ f ∈ faults, err = .source f) e := by
  refine .refreshPartials (fun hloaded => ?loaded) fun _ answer hanswer e' hrely => ?read
  case loaded =>
    rw [Bool.and_eq_true] at hloaded
    obtain ⟨hproblem, hregistry⟩ := hkept.hasPartials hloaded.2
    exact ⟨hproblem, hkept, hregistry⟩
  case read =>
    have hkept' := hrely.1 hkept
    rcases hanswer with rfl | ⟨fault, hfault, hfound, rfl⟩
    · refine ⟨fun err herror => .inl (by rw [problem?, herror]), fun partials hpartials => ?_⟩
      refine (register_ensures hpartials hkept').mono fun r e'' h => ?_
      obtain ⟨hready, hproblem⟩ := h
      cases r with
      | error err => exact .inl hproblem
      | ok _ =>
        have hnoted : source.Kept start { e'' with hasPartials := true } :=
          { hready.toKept with hasPartials := fun _ => ⟨hproblem, hready.extended⟩ }
        obtain ⟨hwrite, hready'⟩ := hready.write hnoted rfl rfl
        exact ⟨fun _ => ⟨hwrite, hproblem, hready'⟩, fun _ => ⟨hproblem, hready⟩⟩
    · rw [partialsOf_of_fault hfound]
      refine ⟨fun err herror => ?_, fun _ hok => by cases hok⟩
      cases herror
      exact .inr ⟨fault, hfault, rfl⟩

/-- A view and a layout are selected as if nothing were kept, or the result is a fault. -/
theorem select_ensures (name : String) (request : Request) (hkept : source.Kept start e) :
    (Engine.select name request).Ensures (source.terms start faults) (fun r e =>
      Agrees faults (source.selection start name request) r ∧
        ∀ selection, r = .ok selection → source.Ready start e) e := by
  rw [Engine.select, Rendering.ensures_get_bind, hkept.keyOf]
  refine (refreshPartials_ensures request.reuse hkept).bind ?_ ?_
  · rintro ⟨⟩ e' ⟨hproblem, hready⟩
    have hgives : source.Gives start faults (do
        let standard ← obtainDefault request.reuse
        let template ← obtain (start.keyOf name) request.reuse
        let layout ← layoutFor template request standard
        pure (template, layout)) (source.selection start name request) := by
      unfold selection
      rw [hproblem]
      refine .bind (obtainDefault_gives _) fun standard _ => ?_
      refine .bind (obtain_gives _ _) fun template htemplate => ?_
      exact .bind (layoutFor_gives htemplate _ _) fun layout _ => .pure _
    exact (hgives e' hready).mono fun r e h => ⟨h.2, fun _ _ => h.1⟩
  · rintro err e' hends
    refine ⟨?_, fun _ h => by cases h⟩
    rcases hends with hproblem | ⟨fault, hfault, rfl⟩
    · left
      unfold selection
      rw [hproblem]
    · exact .inr ⟨fault, hfault, rfl⟩

end gives

end Source
end Views
