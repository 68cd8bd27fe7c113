import Views.Proofs.Assoc
import Views.Source.Documents
import Mathlib.Data.List.Induction
import Mathlib.Data.List.Nodup
/-!
# Documents that are inserted one after the other

A document store keeps a list of documents; a new one takes the place of the one with its name. That
no name stands twice (`DocumentStore.nodup_names_ofInsertions`) makes the store a map in which the
last insertion of a name counts (`DocumentStore.mem_ofInsertions`), both for templates, which are
the first document found under a name, and for partials, which are the documents marked as such. The
two reads are put together in `DocumentStore.keepsLast`.

A name that changes its kind is the case to look at. A partial that is inserted again as a template
is no longer a partial, and a template that is inserted again as a partial can still be had as a
template, since templates are looked up by name alone.
-/

namespace Views

namespace DocumentStore

variable {documents insertions : List Document} {document d : Document} {name : String}

/-- The documents of a store after some insertions. -/
def ofInsertions (insertions : List Document) : List Document := insertions.foldl insert []

/-- The document that was inserted last under a name. -/
def last? (name : String) (insertions : List Document) : Option Document :=
  insertions.reverse.find? fun d => d.name == name

/-- One more insertion comes after the others. -/
theorem ofInsertions_concat (insertions : List Document) (document : Document) :
    ofInsertions (insertions ++ [document]) = insert (ofInsertions insertions) document := by
  simp [ofInsertions]

/-- The last document of a name is the one that is inserted last, if it has the name. -/
theorem last?_concat (name : String) (insertions : List Document) (document : Document) :
    last? name (insertions ++ [document]) =
      if document.name = name then some document else last? name insertions := by
  by_cases h : document.name = name <;> simp [last?, h]

/-- It has the name. -/
theorem name_of_last? (h : last? name insertions = some d) : d.name = name := by
  simpa using List.find?_some h

/-- There is one just if a document of the name was inserted at all. -/
theorem exists_last?_iff :
    (∃ d, last? name insertions = some d) ↔ ∃ d ∈ insertions, d.name = name := by
  rw [← Option.isSome_iff_exists, last?, List.find?_isSome]
  simp

/-! ## The documents of a store -/

/-- After an insertion there are the new document and those of other names. -/
theorem mem_insert : d ∈ insert documents document ↔
    d = document ∨ d ∈ documents ∧ d.name ≠ document.name := by
  simp [insert, or_comm]

/-- An insertion leaves no name twice. -/
theorem nodup_names_insert (h : (documents.map Document.name).Nodup) (document : Document) :
    ((insert documents document).map Document.name).Nodup := by
  rw [insert, List.map_append, List.map_singleton, List.nodup_append_comm]
  refine List.nodup_cons.mpr ⟨?_, (h.sublist (List.filter_sublist.map _))⟩
  simp

/-- However documents were inserted, no two have the same name. -/
theorem nodup_names_ofInsertions (insertions : List Document) :
    ((ofInsertions insertions).map Document.name).Nodup := by
  induction insertions using List.reverseRecOn with
  | nil => exact List.nodup_nil
  | append_singleton insertions document ih =>
    rw [ofInsertions_concat]
    exact nodup_names_insert ih document

/-- The documents are those that were inserted last under their names. -/
theorem mem_ofInsertions : d ∈ ofInsertions insertions ↔ last? d.name insertions = some d := by
  induction insertions using List.reverseRecOn with
  | nil => simp [ofInsertions, last?]
  | append_singleton insertions document ih =>
    rw [ofInsertions_concat, mem_insert, last?_concat, ih]
    by_cases h : document.name = d.name
    · simp [h, eq_comm]
    · have hne : d ≠ document := fun he => h (he ▸ rfl)
      simp [h, hne, Ne.symm h]

/-! ## Reading them -/

/-- If no name stands twice, a document is the one found under its name. -/
theorem find?_eq_some_iff (h : (documents.map Document.name).Nodup) :
    documents.find? (fun d => d.name == name) = some d ↔ d ∈ documents ∧ d.name = name := by
  constructor
  · intro hfind
    exact ⟨List.mem_of_find?_eq_some hfind, by simpa using List.find?_some hfind⟩
  · rintro ⟨hmem, rfl⟩
    cases hfind : documents.find? fun e => e.name == d.name with
    | none => exact absurd (List.find?_eq_none.mp hfind d hmem) (by simp)
    | some e =>
      have hname : e.name = d.name := by simpa using List.find?_some hfind
      exact congrArg some
        (List.inj_on_of_nodup_map h (List.mem_of_find?_eq_some hfind) hmem hname)

/-- What is found under a name is the last document of the name. -/
theorem find?_ofInsertions (name : String) (insertions : List Document) :
    (ofInsertions insertions).find? (fun d => d.name == name) = last? name insertions := by
  refine Option.ext fun d => ?_
  rw [find?_eq_some_iff (nodup_names_ofInsertions insertions), mem_ofInsertions]
  constructor
  · rintro ⟨hlast, rfl⟩
    exact hlast
  · intro hlast
    have hname := name_of_last? hlast
    exact ⟨hname ▸ hlast, hname⟩

/-- The texts of documents by their names. -/
def texts (documents : List Document) : Partials :=
  documents.foldl (fun found d => Assoc.put d.name d.text found) []

/-- One more document sets one more text. -/
theorem texts_concat (documents : List Document) (document : Document) :
    texts (documents ++ [document]) = Assoc.put document.name document.text (texts documents) := by
  simp [texts]

/-- Each name has one text. -/
theorem nodup_keys_texts (documents : List Document) :
    ((texts documents).map Prod.fst).Nodup := by
  induction documents using List.reverseRecOn with
  | nil => exact List.nodup_nil
  | append_singleton documents document ih =>
    rw [texts_concat]
    exact Assoc.nodup_keys_put ih _ _

/-- If no name stands twice, every document has its text under its name. -/
theorem find?_texts (h : (documents.map Document.name).Nodup) {text : String} :
    Assoc.find? name (texts documents) = some text ↔
      ∃ d ∈ documents, d.name = name ∧ d.text = text := by
  induction documents using List.reverseRecOn with
  | nil => simp [texts]
  | append_singleton documents document ih =>
    rw [List.map_append, List.nodup_append_comm] at h
    obtain ⟨hnew, hrest⟩ := List.nodup_cons.mp h
    rw [texts_concat]
    by_cases he : name = document.name
    · subst he
      have hnone : ∀ d ∈ documents, d.name ≠ document.name :=
        fun d hd hname => hnew (hname ▸ List.mem_map_of_mem hd)
      rw [Assoc.find?_put_self, Option.some_inj]
      constructor
      · rintro rfl
        exact ⟨document, by simp, rfl, rfl⟩
      · rintro ⟨d, hd, hname, htext⟩
        rcases List.mem_append.mp hd with hd | hd
        · exact absurd hname (hnone d hd)
        · rw [List.mem_singleton.mp hd] at htext
          exact htext
    · rw [Assoc.find?_put_of_ne he, ih hrest]
      simp only [List.mem_append, List.mem_singleton]
      constructor
      · rintro ⟨d, hd, hdoc⟩
        exact ⟨d, .inl hd, hdoc⟩
      · rintro ⟨d, hd | rfl, hname, htext⟩
        · exact ⟨d, hd, hname, htext⟩
        · exact absurd hname.symm he

/-- What a store of documents answers, given what was inserted: as templates the last document of
each name, and as partials those of them that were inserted as partials. -/
structure KeepsLast (documents insertions : List Document) : Prop where
  /-- No two documents have one name. -/
  nodup_names : (documents.map Document.name).Nodup
  /-- There is a template exactly if a document of its name was inserted. -/
  template_exists_iff : ∀ (s : DocumentSource) (id : TemplateKey),
    (∃ text, s.template (ofDocuments documents) id = .ok text) ↔
      ∃ d ∈ insertions, d.name = s.documentName id
  /-- Its text is that of the document that was inserted last. -/
  template_iff : ∀ (s : DocumentSource) (id : TemplateKey) (text : String),
    s.template (ofDocuments documents) id = .ok text ↔
      ∃ d, last? (s.documentName id) insertions = some d ∧ d.text = text
  /-- There are always partials: the names that were last inserted as such, once each, with the
  texts that were inserted then. -/
  partials : ∀ s : DocumentSource, ∃ found, s.partials (ofDocuments documents) = .ok found ∧
    (found.map Prod.fst).Nodup ∧ ∀ name text, Assoc.find? name found = some text ↔
      ∃ d, last? name insertions = some d ∧ d.isPartial = true ∧ d.text = text

/-- A template is read as the text of the last document of its name, and is not found without one.
-/
theorem template_ofInsertions (s : DocumentSource) (id : TemplateKey)
    (insertions : List Document) :
    s.template (ofDocuments (ofInsertions insertions)) id =
      match last? (s.documentName id) insertions with
      | some d => .ok d.text
      | none => .error (.notFound id.text) := by
  unfold DocumentSource.template ofDocuments
  dsimp only
  rw [find?_ofInsertions]
  cases last? (s.documentName id) insertions <;> rfl

/-- Whatever is inserted, and however often a name changes its kind, the last insertion of a name
counts. -/
theorem keepsLast (insertions : List Document) :
    KeepsLast (ofInsertions insertions) insertions where
  nodup_names := nodup_names_ofInsertions insertions
  template_exists_iff := by
    intro s id
    rw [template_ofInsertions, ← exists_last?_iff]
    cases last? (s.documentName id) insertions <;> simp
  template_iff := by
    intro s id text
    rw [template_ofInsertions]
    cases last? (s.documentName id) insertions <;> simp
  partials := by
    intro s
    refine ⟨texts ((ofInsertions insertions).filter Document.isPartial), rfl,
      nodup_keys_texts _, fun name text => ?_⟩
    have hnodup := (nodup_names_ofInsertions insertions).sublist
      ((List.filter_sublist (p := Document.isPartial)).map Document.name)
    rw [find?_texts hnodup]
    constructor
    · rintro ⟨d, hd, rfl, htext⟩
      obtain ⟨hmem, hpartial⟩ := List.mem_filter.mp hd
      exact ⟨d, mem_ofInsertions.mp hmem, hpartial, htext⟩
    · rintro ⟨d, hlast, hpartial, htext⟩
      obtain rfl := name_of_last? hlast
      exact ⟨d, List.mem_filter.mpr ⟨mem_ofInsertions.mpr hlast, hpartial⟩, rfl, htext⟩

end DocumentStore
end Views
