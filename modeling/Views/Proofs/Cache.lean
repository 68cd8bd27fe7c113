import Views.Cache
import Views.Proofs.Assoc
/-!
# What a cache keeps

`Source.fetch` is what a source has for an identity. Looking a template up keeps nothing new
(`Cache.consult_entries`), and an answer of a source puts one entry in or nothing
(`Cache.receive_cases`). `Cache.Holds` says of every entry that its
template is good and that a layout noted with it belongs beside it; taking in an answer and noting
a layout preserve that if what they bring is good (`Cache.Holds.receive`, `Cache.Holds.setLayout`).

The invariants of the modules on engines are all of this form. `Cache.Holds` takes two properties as
parameters, one of templates and one of the layouts noted with them, so that each of these modules
says what is good in its own sense and need not look at the entries again: that a template was given
by a source, that it is what its source has now, or that it stands under its own identity.
-/

namespace Views

namespace Source

/-- The template that the source has for an identity, compiled. -/
def fetch (source : Source) (id : TemplateKey) : Except ViewError LoadedTemplate :=
  match source.template id with
  | .error e => .error (.source e)
  | .ok text => match LoadedTemplate.compile id text with
    | .error e => .error (.uncompilable e)
    | .ok template => .ok template

/-- A template that is fetched has the identity that was asked for. -/
theorem id_of_fetch {source : Source} {id : TemplateKey} {template : LoadedTemplate}
    (h : source.fetch id = .ok template) : template.id = id := by
  unfold fetch at h
  split at h
  · cases h
  · split at h
    · cases h
    · rename_i hcompile
      cases h
      exact (LoadedTemplate.id_source_of_compile hcompile).1

/-- What is taken in of the answer of the source is what it has. -/
theorem receive_template (source : Source) (cache : Cache) (id : TemplateKey) (reuse : Bool) :
    (cache.receive id reuse (source.template id)).1 = source.fetch id := by
  unfold Cache.receive fetch
  cases source.template id with
  | error e => rfl
  | ok text =>
    dsimp only
    cases LoadedTemplate.compile id text <;> rfl

end Source

namespace Cache

/-- The template that is kept under an identity. -/
def templateOf (cache : Cache) (id : TemplateKey) : Option LoadedTemplate :=
  (cache.get? id).map Entry.template

/-- Keeps a template, with no layout noted, in place of what was kept under its identity. -/
def insert (cache : Cache) (id : TemplateKey) (template : LoadedTemplate) : Cache :=
  { cache with entries := Assoc.put id { template } cache.entries }

/-! ## Looking up -/

/-- Looking a template up keeps nothing new. -/
theorem consult_entries (cache : Cache) (id : TemplateKey) (reuse : Bool) :
    (cache.consult id reuse).2.entries = cache.entries := by
  unfold consult
  split <;> rfl

/-- A look-up finds what is kept, if that may be reused, or nothing. -/
theorem consult_cases (cache : Cache) (id : TemplateKey) (reuse : Bool) :
    (∃ entry, reuse = true ∧ cache.get? id = some entry ∧
      cache.consult id reuse = (some entry.template, { cache with hits := cache.hits + 1 })) ∨
    (reuse = true → cache.get? id = none) ∧
      cache.consult id reuse = (none, { cache with misses := cache.misses + 1 }) := by
  unfold consult
  cases reuse with
  | false => exact .inr ⟨fun h => (Bool.false_ne_true h).elim, rfl⟩
  | true =>
    have hfound : (if true then cache.get? id else none) = cache.get? id := rfl
    rw [hfound]
    cases hget : cache.get? id with
    | some entry => exact .inl ⟨entry, rfl, rfl, rfl⟩
    | none => exact .inr ⟨fun _ => rfl, rfl⟩

/-! ## Taking in an answer -/

/-- What may not be reused is not kept. -/
theorem receive_entries (cache : Cache) (id : TemplateKey) (answer : Except SourceError String) :
    (cache.receive id false answer).2.entries = cache.entries := by
  unfold receive
  cases answer with
  | error e => rfl
  | ok text =>
    dsimp only
    split <;> rfl

/-- An answer leaves the cache as it is, or it brings a template, which is kept if it may be
reused. -/
theorem receive_cases (cache : Cache) (id : TemplateKey) (reuse : Bool)
    (answer : Except SourceError String) :
    (∃ err, cache.receive id reuse answer = (.error err, cache)) ∨
    ∃ text template, answer = .ok text ∧ LoadedTemplate.compile id text = .ok template ∧
      cache.receive id reuse answer =
        (.ok template, if reuse then cache.insert id template else cache) := by
  unfold receive
  cases answer with
  | error e => exact .inl ⟨_, rfl⟩
  | ok text =>
    dsimp only
    cases hcompile : LoadedTemplate.compile id text with
    | error e => exact .inl ⟨_, rfl⟩
    | ok template => exact .inr ⟨text, template, rfl, hcompile, rfl⟩

/-- What comes of an answer is what its text compiles to. -/
theorem of_receive_ok {cache : Cache} {id : TemplateKey} {reuse : Bool}
    {answer : Except SourceError String} {template : LoadedTemplate}
    (h : (cache.receive id reuse answer).1 = .ok template) :
    answer = .ok template.source ∧ template.id = id := by
  rcases receive_cases cache id reuse answer with
    ⟨err, hreceive⟩ | ⟨text, found, hanswer, hcompile, hreceive⟩
  · rw [hreceive] at h
    cases h
  · rw [hreceive] at h
    cases h
    obtain ⟨hid, hsource⟩ := LoadedTemplate.id_source_of_compile hcompile
    rw [hsource]
    exact ⟨hanswer, hid⟩

/-! ## Entries after an insertion and after a note -/

section entries

variable {cache : Cache} {id other : TemplateKey} {template l : LoadedTemplate}

@[simp] theorem get?_insert_self : (cache.insert id template).get? id = some { template } :=
  Assoc.find?_put_self ..

/-- Entries of other identities stay. -/
theorem get?_insert_of_ne (h : other ≠ id) :
    (cache.insert id template).get? other = cache.get? other :=
  Assoc.find?_put_of_ne h ..

/-- A layout is noted with the entry of an identity, if there is one. -/
theorem get?_setLayout_self :
    (cache.setLayout id l).get? id =
      (cache.get? id).map fun entry => { entry with layout := some l } := by
  unfold setLayout
  cases hget : cache.get? id with
  | some entry => exact Assoc.find?_put_self ..
  | none => exact hget

/-- If a layout is noted after a note, it is that one. -/
theorem eq_of_layoutOf_setLayout {noted : LoadedTemplate}
    (h : (cache.setLayout id l).layoutOf id = some noted) : noted = l := by
  obtain ⟨entry, hget, hlayout⟩ := Option.bind_eq_some_iff.mp h
  rw [get?_setLayout_self, Option.map_eq_some_iff] at hget
  obtain ⟨old, -, rfl⟩ := hget
  exact (Option.some.inj hlayout).symm

/-- It leaves the other entries alone. -/
theorem get?_setLayout_of_ne (h : other ≠ id) :
    (cache.setLayout id l).get? other = cache.get? other := by
  unfold setLayout
  cases cache.get? id with
  | some entry => exact Assoc.find?_put_of_ne h ..
  | none => rfl

/-- What an entry holds is what is kept for its identity. -/
theorem templateOf_of_get? {entry : Entry} (h : cache.get? id = some entry) :
    cache.templateOf id = some entry.template := by
  rw [templateOf, h]
  rfl

@[simp] theorem templateOf_insert_self : (cache.insert id template).templateOf id = some template :=
  templateOf_of_get? get?_insert_self

/-- Noting a layout leaves the templates as they are. -/
theorem templateOf_setLayout :
    (cache.setLayout id l).templateOf other = cache.templateOf other := by
  unfold templateOf
  by_cases h : other = id
  · subst h
    rw [get?_setLayout_self, Option.map_map]
    rfl
  · rw [get?_setLayout_of_ne h]

/-- A template that is kept stays, if what is inserted is not kept yet. -/
theorem templateOf_insert (h : cache.get? id = none) {kept : LoadedTemplate}
    (hkept : cache.templateOf other = some kept) :
    (cache.insert id template).templateOf other = some kept := by
  have hne : other ≠ id := by
    rintro rfl
    rw [templateOf, h] at hkept
    cases hkept
  rw [templateOf, get?_insert_of_ne hne]
  exact hkept

end entries

section same

variable {cache cache' : Cache} (h : cache'.entries = cache.entries)

include h

/-- The same is kept for each identity. -/
theorem get?_eq_of_entries (id : TemplateKey) : cache'.get? id = cache.get? id := by
  unfold get?
  rw [h]

/-- The same templates are kept. -/
theorem templateOf_eq_of_entries (id : TemplateKey) :
    cache'.templateOf id = cache.templateOf id := by
  unfold templateOf
  rw [get?_eq_of_entries h]

/-- A look-up finds the same. -/
theorem consult_eq_of_entries (id : TemplateKey) (reuse : Bool) :
    (cache'.consult id reuse).1 = (cache.consult id reuse).1 := by
  unfold consult
  rw [get?_eq_of_entries h]
  split <;> rfl

/-- What an answer comes to is the same, and so are the entries after it. -/
theorem receive_eq_of_entries (id : TemplateKey) (reuse : Bool)
    (answer : Except SourceError String) :
    (cache'.receive id reuse answer).1 = (cache.receive id reuse answer).1 ∧
      (cache'.receive id reuse answer).2.entries = (cache.receive id reuse answer).2.entries := by
  unfold receive
  cases answer with
  | error e => exact ⟨rfl, h⟩
  | ok text =>
    dsimp only
    split
    · exact ⟨rfl, h⟩
    · refine ⟨rfl, ?_⟩
      split
      · exact congrArg (Assoc.put id _) h
      · exact h

/-- The entries are the same after a layout was noted. -/
theorem setLayout_eq_of_entries (id : TemplateKey) (layout : LoadedTemplate) :
    (cache'.setLayout id layout).entries = (cache.setLayout id layout).entries := by
  unfold setLayout
  rw [get?_eq_of_entries h]
  split
  · exact congrArg (Assoc.put id _) h
  · exact h

end same

/-! ## What holds of every entry -/

/-- Every template that is kept is good for its identity, and every layout that is noted belongs
beside the template of its entry. -/
structure Holds (good : TemplateKey → LoadedTemplate → Prop)
    (beside : TemplateKey → LoadedTemplate → LoadedTemplate → Prop) (cache : Cache) : Prop where
  template : ∀ {id entry}, cache.get? id = some entry → good id entry.template
  layout : ∀ {id entry l}, cache.get? id = some entry → entry.layout = some l →
    beside id entry.template l

namespace Holds

variable {good good' : TemplateKey → LoadedTemplate → Prop}
  {beside beside' : TemplateKey → LoadedTemplate → LoadedTemplate → Prop} {cache cache' : Cache}

/-- It holds of a cache in which nothing is kept. -/
theorem of_empty (h : cache.entries = []) : Holds good beside cache where
  template hget := by
    rw [get?, h] at hget
    cases hget
  layout hget := by
    rw [get?, h] at hget
    cases hget

/-- It depends on the entries alone, not on what is counted. -/
theorem of_entries (h : Holds good beside cache) (hentries : cache'.entries = cache.entries) :
    Holds good beside cache' where
  template hget := h.template ((get?_eq_of_entries hentries _).symm.trans hget)
  layout hget := h.layout ((get?_eq_of_entries hentries _).symm.trans hget)

theorem mono (h : Holds good beside cache) (hgood : ∀ {id template}, good id template →
      good' id template)
    (hbeside : ∀ {id template l}, beside id template l → beside' id template l) :
    Holds good' beside' cache where
  template hget := hgood (h.template hget)
  layout hget hlayout := hbeside (h.layout hget hlayout)

/-- It holds of each template that is kept. -/
theorem of_templateOf (h : Holds good beside cache) {id : TemplateKey} {template : LoadedTemplate}
    (hkept : cache.templateOf id = some template) : good id template := by
  obtain ⟨entry, hget, rfl⟩ := Option.map_eq_some_iff.mp hkept
  exact h.template hget

/-- A good template may be kept, whatever was kept in its place. -/
theorem insert (h : Holds good beside cache) {id : TemplateKey} {template : LoadedTemplate}
    (hgood : good id template) : Holds good beside (cache.insert id template) where
  template hget := by
    rcases Assoc.find?_put_cases hget with ⟨rfl, rfl⟩ | hget
    · exact hgood
    · exact h.template hget
  layout hget hlayout := by
    rcases Assoc.find?_put_cases hget with ⟨rfl, rfl⟩ | hget
    · cases hlayout
    · exact h.layout hget hlayout

/-- An answer may be taken in, if what it compiles to is good in case it is kept. -/
theorem receive (h : Holds good beside cache) {id : TemplateKey} {reuse : Bool}
    {answer : Except SourceError String}
    (hgood : reuse = true → ∀ text template, answer = .ok text →
      LoadedTemplate.compile id text = .ok template → good id template) :
    Holds good beside (cache.receive id reuse answer).2 := by
  rcases receive_cases cache id reuse answer with ⟨err, hreceive⟩ |
    ⟨text, template, hanswer, hcompile, hreceive⟩
  · rw [hreceive]
    exact h
  · rw [hreceive]
    cases reuse with
    | true => exact h.insert (hgood rfl text template hanswer hcompile)
    | false => exact h

/-- A layout may be noted that belongs beside the template that is kept. -/
theorem setLayout (h : Holds good beside cache) {id : TemplateKey} {l : LoadedTemplate}
    (hbeside : ∀ template, cache.templateOf id = some template → beside id template l) :
    Holds good beside (cache.setLayout id l) where
  template {other entry} hget := by
    refine h.of_templateOf ?_
    rw [← templateOf_setLayout]
    exact templateOf_of_get? hget
  layout {other entry l'} hget hlayout := by
    by_cases hother : other = id
    · subst hother
      rw [get?_setLayout_self, Option.map_eq_some_iff] at hget
      obtain ⟨old, hold, rfl⟩ := hget
      cases hlayout
      exact hbeside old.template (templateOf_of_get? hold)
    · rw [get?_setLayout_of_ne hother] at hget
      exact h.layout hget hlayout

end Holds

end Cache
end Views
