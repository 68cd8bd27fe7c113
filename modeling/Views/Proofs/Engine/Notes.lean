import Views.Proofs.Engine.Conduct
import Views.Proofs.Engine.Origins
import Views.Proofs.Registration
/-!
# Noted layouts among other calls

A call notes the layout that a directive names after it has waited for that layout, and by then
another edition of its view may be kept. So a layout that is noted was named by some source that was
heard for the identity of the entry (`noted_of_run`), which need not be the source of the entry
(`noted_beside_other_edition`). If all sources that are heard for the identity agree on the
directive, it is the one that the source of the entry names (`noted_of_agreeing`).

The note is written under the identity of the view, whatever is kept there by then. In
`noted_beside_other_edition` the view is forgotten and read again by another call while the first
one waits for the layout; the second edition has no directive, and gets the layout of the first. The
premise of `noted_of_agreeing` is about the answers that were heard, not about what is kept, so it
can be checked against the sources alone.
-/

namespace Views

open Engine

/-- A source that comes with the answers of some events, whichever call hears it and whenever.
Nothing is said of whether the call was still there to hear it. -/
def HeardFor (events : List Event) (id : TemplateKey) (text : String) : Prop :=
  ∃ place answers, .hears place answers ∈ events ∧ answers (.template id) = .ok text

/-- Some source that was given for an identity names a layout, and that is the one. -/
def NamedBy (given : TemplateKey → String → Prop) (extname : String) (id : TemplateKey)
    (l : LoadedTemplate) : Prop :=
  ∃ text name, given id text ∧ Directive.find? text = some name ∧
    l.id = .resolve id.directory name extname

/-- What is heard, with layouts that some source names: the origin that is read off the traffic
itself. -/
def heardOrigin (events : List Event) (extname : String) : Origin where
  given := HeardFor events
  beside := NamedBy (HeardFor events) extname

namespace Origin

variable {o : Origin}

/-- Calls may count on it that what is kept comes from the origin. -/
def conduct (o : Origin) : Conduct where
  rely := o.Preserves
  allows := o.Allows
  refl := .refl
  trans := .trans
  forget _ := ⟨rfl, fun _ => .of_new rfl rfl⟩

/-- An origin's conduct suits the engines it explains, since its own writes are explained by what it
has heard. -/
theorem conduct_suits {settings : Settings} (hdirects : o.Directs settings.extname) :
    o.conduct.Suits (fun e => o.Explains e ∧ e.settings = settings) fun _ _ _ _ _ => True where
  keeps hrely h := ⟨hrely.2 h.1, hrely.1.trans h.2⟩
  stable _ _ := trivial
  render name request arrangement faults e h := by
    obtain ⟨hexplains, hsettings⟩ := h
    rw [← hsettings] at hdirects
    exact (render_explained hexplains hdirects name request arrangement).of_terms id And.left id

end Origin

/-- The origin of what was heard takes its directives from the texts that were heard. -/
theorem directs_heardOrigin (events : List Event) (extname : String) :
    (heardOrigin events extname).Directs extname :=
  fun {template} _ name hgave hfind hid => ⟨template.source, name, hgave, hfind, hid⟩

/-- Every event of the traffic is one that the origin of the same traffic allows. -/
theorem allowed_heardOrigin {events : List Event} {extname : String} {event : Event}
    (hevent : event ∈ events) : event.Allowed (heardOrigin events extname).conduct.allows := by
  cases event with
  | arrives name request arrangement => trivial
  | forgets => trivial
  | hears place answers =>
    intro question
    cases question with
    | partials => trivial
    | values batch => trivial
    | template id =>
      cases hanswer : answers (.template id) with
      | error err => trivial
      | ok text => exact ⟨place, answers, hevent, hanswer⟩

section run

variable {settings : Settings} {sourceCheck : Except SetupError Unit} {registry : Registry}
  {helpers : List (String × Helper)} {partials : List (String × String)} {built : Engine}
  (hbuild : build settings sourceCheck registry helpers partials = .ok built)
  (tokens : TokenSupply)

include hbuild

/-- Whatever happens, all that is kept comes from what was heard. -/
theorem explained_run (events : List Event) :
    (heardOrigin events built.settings.extname).Explains
      (Traffic.run { engine := { built with tokens } } events).engine := by
  obtain ⟨hcache, hdefault, -⟩ := build_new hbuild
  have hsuits := Origin.conduct_suits (directs_heardOrigin events built.settings.extname)
  have hnew : (heardOrigin events built.settings.extname).Explains { built with tokens } :=
    .of_new hcache hdefault
  have hstart : Traffic.Sound { engine := { built with tokens } }
      (heardOrigin events built.settings.extname).conduct
      (fun e => (heardOrigin events built.settings.extname).Explains e ∧
        e.settings = built.settings) fun _ _ _ _ _ => True :=
    ⟨⟨hnew, rfl⟩, fun _ hmem => by cases hmem⟩
  exact (hstart.run hsuits fun _ => allowed_heardOrigin).2.inv.1

variable {events : List Event} {id : TemplateKey} {entry : Cache.Entry} {l : LoadedTemplate}

/-- A layout that is noted was named by a source that was heard for the identity of the entry. -/
theorem noted_of_run
    (hget : (Traffic.run { engine := { built with tokens } } events).engine.cache.get? id =
      some entry) (hlayout : entry.layout = some l) :
    NamedBy (HeardFor events) built.settings.extname id l :=
  ((explained_run hbuild tokens events).kept.layout hget hlayout).2

/-- Any number of calls go on in any order, while sources change and what was read is forgotten. If
all sources that are heard for an identity agree on the directive, then a layout that is noted with
the template that is kept is the one that the source of the template names. -/
theorem noted_of_agreeing
    (hget : (Traffic.run { engine := { built with tokens } } events).engine.cache.get? id =
      some entry) (hlayout : entry.layout = some l)
    (hagree : ∀ text text', HeardFor events id text → HeardFor events id text' →
      Directive.find? text' = Directive.find? text) :
    ∃ name, Directive.find? entry.template.source = some name ∧
      l.id = .resolve id.directory name built.settings.extname := by
  obtain ⟨hid, hheard⟩ := (explained_run hbuild tokens events).kept.template hget
  rw [Origin.Gave, hid] at hheard
  obtain ⟨text, name, htext, hfind, hl⟩ := noted_of_run hbuild tokens hget hlayout
  exact ⟨name, (hagree text _ htext hheard).trans hfind, hl⟩

end run

/-- What a source answers that has some edition of a page. -/
def editionAnswers (edition : String) : (question : Question) → question.Answer :=
  pageAnswers edition "<\x7b\x7b\x7bbody\x7d\x7d\x7d>"

/-- An edition of a page that names a layout. -/
def withDirective (text : String) : String := "\x7b\x7b!< main\x7d\x7d" ++ text

/-- A call has read its view and waits for the layout while what was read is forgotten and another
call reads the second edition of the view. -/
def overtaking (first second : String) : List Event :=
  [.arrives "page" { reuse := true } {}, .hears 0 (editionAnswers first),
    .hears 0 (editionAnswers first), .forgets, .arrives "page" { reuse := true } {},
    .hears 1 (editionAnswers second), .hears 1 (editionAnswers second),
    .hears 0 (editionAnswers first)]

/-- In the overtaking traffic the page has been heard with its first text and with its second, and
with no other. -/
theorem mem_of_heardFor_overtaking {first second text : String}
    (h : HeardFor (overtaking first second) ⟨"page.hbs"⟩ text) : text = first ∨ text = second := by
  obtain ⟨place, answers, hmem, hanswer⟩ := h
  have hpage : ∀ edition, editionAnswers edition (.template ⟨"page.hbs"⟩) = .ok edition :=
    fun _ => rfl
  simp only [overtaking, List.mem_cons, Event.hears.injEq, reduceCtorEq, List.not_mem_nil,
    false_or, or_false] at hmem
  rcases hmem with ⟨-, rfl⟩ | ⟨-, rfl⟩ | ⟨-, rfl⟩ | ⟨-, rfl⟩ | ⟨-, rfl⟩
  all_goals
    rw [hpage] at hanswer
    cases hanswer
    simp

/-- Both editions name the layout. -/
theorem noted_of_two_editions :
    ∃ entry l name, (Traffic.run { engine := .plain }
        (overtaking (withDirective "first") (withDirective "second"))).engine.cache.get?
          ⟨"page.hbs"⟩ = some entry ∧ entry.layout = some l ∧
      Directive.find? entry.template.source = some name ∧
      l.id = .resolve (TemplateKey.directory ⟨"page.hbs"⟩) name ".hbs" := by
  have hnoted : ((Traffic.run { engine := .plain }
      (overtaking (withDirective "first") (withDirective "second"))).engine.cache.layoutOf
        ⟨"page.hbs"⟩).isSome := by decide +kernel
  -- The events are left open here, so that only the engines are compared.
  have hnamed : ∀ {events id entry l}, (Traffic.run { engine := .plain } events).engine.cache.get?
      id = some entry → entry.layout = some l → (∀ text text', HeardFor events id text →
        HeardFor events id text' → Directive.find? text' = Directive.find? text) →
      ∃ name, Directive.find? entry.template.source = some name ∧
        l.id = .resolve id.directory name ".hbs" := noted_of_agreeing build_plain {}
  obtain ⟨l, hl⟩ := Option.isSome_iff_exists.mp hnoted
  obtain ⟨entry, hget, hlayout⟩ := Option.bind_eq_some_iff.mp hl
  have hfirst : Directive.find? (withDirective "first") = some "main" := by decide +kernel
  have hsecond : Directive.find? (withDirective "second") = some "main" := by decide +kernel
  have hfind : ∀ text, HeardFor (overtaking (withDirective "first") (withDirective "second"))
      ⟨"page.hbs"⟩ text → Directive.find? text = some "main" := by
    intro text htext
    rcases mem_of_heardFor_overtaking htext with rfl | rfl
    · exact hfirst
    · exact hsecond
  obtain ⟨name, hname, hid⟩ := hnamed hget hlayout
    fun text text' htext htext' => (hfind text' htext').trans (hfind text htext).symm
  exact ⟨entry, l, name, hget, hlayout, hname, hid⟩

/-- Only the first edition names the layout, and that is noted beside the second. -/
theorem noted_beside_other_edition :
    ∃ entry l, (Traffic.run { engine := .plain }
        (overtaking (withDirective "first") "second")).engine.cache.get? ⟨"page.hbs"⟩ = some entry ∧
      entry.layout = some l ∧ entry.template.source = "second" ∧
      Directive.find? entry.template.source = none := by
  have hnoted : ((Traffic.run { engine := .plain }
      (overtaking (withDirective "first") "second")).engine.cache.layoutOf
        ⟨"page.hbs"⟩).isSome := by decide +kernel
  have hkept : ((Traffic.run { engine := .plain }
      (overtaking (withDirective "first") "second")).engine.cache.get? ⟨"page.hbs"⟩).map
        (fun entry => entry.template.source) = some "second" := by
    decide +kernel
  obtain ⟨l, hl⟩ := Option.isSome_iff_exists.mp hnoted
  obtain ⟨entry, hget, hlayout⟩ := Option.bind_eq_some_iff.mp hl
  rw [hget] at hkept
  have hsource : entry.template.source = "second" := Option.some.inj hkept
  refine ⟨entry, l, hget, hlayout, hsource, ?_⟩
  rw [hsource]
  decide +kernel

end Views
