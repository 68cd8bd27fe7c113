import Views.Proofs.Assoc
import Views.Source.Keyed
import Mathlib.Data.List.Infix
/-!
# Templates and partials in one key-value store

Templates and partials share a store, each kind behind a text of its own that its keys start with.
`KeyedSource.check` refuses two texts that are empty or equal. What keeps the kinds apart is more
than that: neither text may start with the other (`KeyedSource.keepsApart_iff`). Then no key of a
template is read for a partial, and storing one kind leaves what is read of the other as it was.

That one of the texts starts with the other is enough to mix the kinds up, though the check lets it
pass: with `hbs:t:` for templates and `hbs:` for partials every template is listed as a partial,
under the name that is left of its key. The other way round a partial may be stored under the key of
a template and take its place.
-/

namespace Views

namespace KeyedStore

/-- A key starts with a prefix where the prefix's characters begin its own. -/
theorem startsWith_iff {start key : String} :
    startsWith start key = true ↔ start.toList <+: key.toList :=
  List.isPrefixOf_iff_prefix

/-- The keys that the store lists start with the text that it was asked for. -/
def ListsTruly (store : KeyedStore) : Prop :=
  ∀ start keys, store.keys start = .ok keys → ∀ key ∈ keys, startsWith start key = true

/-- A store made of entries lists the keys that it has. -/
theorem listsTruly_ofEntries (entries : Assoc String String) : (ofEntries entries).ListsTruly := by
  intro start keys h key hkey
  obtain rfl : entries.keys.filter (startsWith start) = keys := by
    simpa [ofEntries] using h
  exact (List.mem_filter.mp hkey).2

/-- A new entry under a key of another kind is not listed. -/
theorem filter_keys_put {start key : String} (h : startsWith start key = false) (text : String)
    (entries : Assoc String String) :
    (Assoc.put key text entries).keys.filter (startsWith start) =
      entries.keys.filter (startsWith start) := by
  induction entries with
  | nil => simp [Assoc.put, Assoc.keys, h]
  | cons p rest ih =>
    obtain ⟨k, v⟩ := p
    by_cases hk : k = key
    · simp [Assoc.put, Assoc.keys, hk]
    · simp only [Assoc.keys] at ih
      simp [Assoc.put, Assoc.keys, hk, List.filter_cons, ih]

end KeyedStore

namespace KeyedSource

variable {s : KeyedSource} {store other : KeyedStore} {keys : List String} {key : String}

/-! ## What is read -/

/-- The key of a template is the template prefix and then the identity. -/
theorem toList_templateKey (s : KeyedSource) (id : TemplateKey) :
    (s.templateKey id).toList = s.templateSpace.toList ++ id.text.toList := by
  simp [templateKey]

/-- Partials are read from the keys that are listed and still there. -/
def ReadsPartial (s : KeyedSource) (store : KeyedStore) (key : String) : Prop :=
  ∃ keys text, store.keys s.partialSpace = .ok keys ∧ key ∈ keys ∧ store.get key = .ok (some text)

/-- What is read depends on what is under the listed keys. -/
theorem readPartials_congr (h : ∀ key ∈ keys, store.get key = other.get key) (found : Partials) :
    s.readPartials store keys found = s.readPartials other keys found := by
  induction keys generalizing found with
  | nil => rfl
  | cons key rest ih =>
    obtain ⟨hkey, hrest⟩ := List.forall_mem_cons.mp h
    unfold readPartials
    rw [hkey]
    split
    · exact ih hrest _
    · exact ih hrest _
    · rfl

/-! ## Keys of two kinds -/

/-- Templates and partials are kept apart: no key of a template is read for a partial, whatever the
store holds, and to store one kind leaves what is read of the other as it was. -/
structure KeepsApart (s : KeyedSource) : Prop where
  /-- No key of a template is one that partials are read from. -/
  keys : ∀ store : KeyedStore, store.ListsTruly →
    ∀ id, ¬ s.ReadsPartial store (s.templateKey id)
  /-- A template that is stored does not change the partials. -/
  partials : ∀ entries id text,
    s.partials (.ofEntries (Assoc.put (s.templateKey id) text entries)) =
      s.partials (.ofEntries entries)
  /-- A partial that is stored does not change the templates. -/
  templates : ∀ entries key text, KeyedStore.startsWith s.partialSpace key = true →
    ∀ id, s.template (.ofEntries (Assoc.put key text entries)) id =
      s.template (.ofEntries entries) id

/-- So a template's key falls among the partials exactly where the partial prefix begins that text.
-/
theorem startsWith_templateKey {id : TemplateKey} :
    KeyedStore.startsWith s.partialSpace (s.templateKey id) = true ↔
      s.partialSpace.toList <+: s.templateSpace.toList ++ id.text.toList := by
  rw [KeyedStore.startsWith_iff, toList_templateKey]

/-- Some key of a template starts as the keys of partials do just if one of the two texts starts
with the other. -/
theorem exists_startsWith_iff (s : KeyedSource) :
    (∃ id, KeyedStore.startsWith s.partialSpace (s.templateKey id) = true) ↔
      s.templateSpace.toList <+: s.partialSpace.toList ∨
        s.partialSpace.toList <+: s.templateSpace.toList := by
  constructor
  · rintro ⟨id, h⟩
    rw [startsWith_templateKey] at h
    exact List.prefix_or_prefix_of_prefix (List.prefix_append _ _) h
  · rintro (⟨rest, hrest⟩ | h)
    · exact ⟨⟨String.ofList rest⟩, startsWith_templateKey.mpr (by simp [hrest])⟩
    · exact ⟨⟨""⟩, startsWith_templateKey.mpr (h.trans (List.prefix_append _ _))⟩

/-- If no key of a template starts as those of partials do, storing a template lists no new key
and changes none of the listed ones. -/
theorem partials_put (h : KeyedStore.startsWith s.partialSpace key = false) (text : String)
    (entries : Assoc String String) :
    s.partials (.ofEntries (Assoc.put key text entries)) = s.partials (.ofEntries entries) := by
  have hkeys := KeyedStore.filter_keys_put h text entries
  unfold partials
  simp only [KeyedStore.ofEntries, hkeys]
  refine readPartials_congr (fun listed hlisted => ?_) []
  have hne : listed ≠ key := by
    intro he
    have hstart := (List.mem_filter.mp hlisted).2
    rw [he, h] at hstart
    cases hstart
  exact congrArg Except.ok (Assoc.find?_put_of_ne hne text entries)

/-- If templates and partials are kept apart, no key of a template starts as those of partials
do. -/
theorem KeepsApart.not_startsWith (h : s.KeepsApart) (id : TemplateKey) :
    ¬ KeyedStore.startsWith s.partialSpace (s.templateKey id) = true := by
  intro hstart
  -- A store with that key alone lists it among those of partials.
  refine h.keys (.ofEntries [(s.templateKey id, "")]) (KeyedStore.listsTruly_ofEntries _) id ?_
  refine ⟨_, "", rfl, ?_, ?_⟩
  · simp [Assoc.keys, hstart]
  · simp [KeyedStore.ofEntries, Assoc.find?]

/-- Templates and partials are kept apart exactly if neither of the texts that their keys start
with starts with the other. -/
theorem keepsApart_iff (s : KeyedSource) :
    s.KeepsApart ↔ ¬ s.templateSpace.toList <+: s.partialSpace.toList ∧
      ¬ s.partialSpace.toList <+: s.templateSpace.toList := by
  rw [← not_or, ← exists_startsWith_iff, not_exists]
  constructor
  · exact KeepsApart.not_startsWith
  · intro h
    refine ⟨?_, ?_, ?_⟩
    · rintro store htruly id ⟨keys, text, hkeys, hkey, -⟩
      exact h id (htruly s.partialSpace keys hkeys _ hkey)
    · intro entries id text
      exact partials_put (by simpa using h id) text entries
    · intro entries key text hstart id
      have hne : s.templateKey id ≠ key := fun he => h id (he ▸ hstart)
      unfold template
      simp only [KeyedStore.ofEntries, Assoc.find?_put_of_ne hne]

/-- The check lets pass a text for partials that the one for templates starts with. A template is
then read for a partial as well. -/
theorem not_keepsApart_nested :
    let s : KeyedSource := ⟨"hbs:t:", "hbs:"⟩
    let store : KeyedStore := .ofEntries [("hbs:t:index.hbs", "page")]
    s.check = .ok () ∧ s.template store ⟨"index.hbs"⟩ = .ok "page" ∧
      s.partials store = .ok [("t:index.hbs", "page")] ∧ ¬ s.KeepsApart := by
  refine ⟨by simp [check], by rfl, by rfl, fun h => ?_⟩
  exact h.not_startsWith ⟨"index.hbs"⟩ (by decide +kernel)

end KeyedSource
end Views
