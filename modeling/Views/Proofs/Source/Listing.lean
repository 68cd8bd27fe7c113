import Views.Proofs.Source.Keyed
/-!
# Listing and reading the partials of a key-value store

The partials are read key by key from a listing, which may come in any order and name keys that are
gone by then. `KeyedSource.partials_exact` says that what comes of it is what the store holds: a
name is bound exactly if the store holds a text under the key that is made for the name, and reading
fails exactly if the listing or a listed key cannot be read.

Between the listing and the reading of a key the store may change. A key that was listed and is gone
is passed over, and so is nothing else: a key that cannot be read makes the whole reading fail, with
that key in the error. A name is what is left of its key, and no two keys leave the same name, so
that each partial has one source.
-/

namespace Views

/-- A way to a store that holds some texts. What is read under a key is what the store holds there.
Of the keys that it holds those are listed that start with a text, in any order; keys that it does
not hold may be listed as well. Both reading and listing may fail. -/
structure KeyedStore.Reaches (store : KeyedStore) (content : String → Option String)
    (start : String) : Prop where
  get_eq : ∀ {key value}, store.get key = .ok value → value = content key
  mem_keys_iff : ∀ {keys}, store.keys start = .ok keys → ∀ {key text}, content key = some text →
    (key ∈ keys ↔ startsWith start key = true)

/-- A key that is listed and held starts with the text that was asked for. -/
theorem KeyedStore.Reaches.startsWith_of_mem {store : KeyedStore}
    {content : String → Option String} {start key text : String} {keys : List String}
    (h : store.Reaches content start) (hkeys : store.keys start = .ok keys) (hkey : key ∈ keys)
    (hget : store.get key = .ok (some text)) : startsWith start key = true :=
  (h.mem_keys_iff hkeys (h.get_eq hget).symm).mp hkey

namespace KeyedSource

variable {s : KeyedSource} {store : KeyedStore} {content : String → Option String}
  {keys : List String} {found found' : Partials} {key other name : String}

/-! ## Keys and names -/

/-- The key of a partial is among the keys that the store lists for partials. -/
theorem startsWith_append (s : KeyedSource) (name : String) :
    KeyedStore.startsWith s.partialSpace (s.partialSpace ++ name) = true := by
  rw [KeyedStore.startsWith_iff, String.toList_append]
  exact List.prefix_append _ _

/-- The name of a partial is what its key has after the text that such keys start with. -/
theorem append_partialName (h : KeyedStore.startsWith s.partialSpace key = true) :
    s.partialSpace ++ s.partialName key = key := by
  obtain ⟨rest, hrest⟩ := KeyedStore.startsWith_iff.mp h
  rw [partialName, if_pos h, ← hrest, ← String.length_toList, List.drop_left]
  refine String.toList_injective ?_
  rw [String.toList_append, String.toList_ofList, hrest]

/-- A partial's name is what follows the prefix in its key. -/
theorem partialName_append (s : KeyedSource) (name : String) :
    s.partialName (s.partialSpace ++ name) = name := by
  have h := append_partialName (s.startsWith_append name)
  refine String.toList_injective ((List.append_right_inj s.partialSpace.toList).mp ?_)
  rw [← String.toList_append, ← String.toList_append, h]

/-- No two keys of partials have one name. -/
theorem partialName_inj (hkey : KeyedStore.startsWith s.partialSpace key = true)
    (hother : KeyedStore.startsWith s.partialSpace other = true)
    (h : s.partialName key = s.partialName other) : key = other := by
  rw [← append_partialName hkey, h, append_partialName hother]

/-! ## Reading some keys -/

/-- Reading succeeds exactly if every key can be read, be there something under it or not. -/
theorem readPartials_ok_iff :
    (∃ found', s.readPartials store keys found = .ok found') ↔
      ∀ key ∈ keys, ∃ value, store.get key = .ok value := by
  induction keys generalizing found with
  | nil => simp [readPartials]
  | cons key rest ih =>
    rw [List.forall_mem_cons]
    unfold readPartials
    split
    · rename_i text hget
      rw [ih]
      exact (and_iff_right ⟨_, hget⟩).symm
    · rename_i hget
      rw [ih]
      exact (and_iff_right ⟨_, hget⟩).symm
    · rename_i cause hget
      simp [hget]

/-- What reading fails with is that one of the keys could not be read. -/
theorem readPartials_error {e : SourceError} (h : s.readPartials store keys found = .error e) :
    ∃ key ∈ keys, ∃ cause, store.get key = .error cause ∧ e = .unreadable key cause := by
  induction keys generalizing found with
  | nil => cases h
  | cons key rest ih =>
    unfold readPartials at h
    split at h
    · obtain ⟨key', hmem, hfault⟩ := ih h
      exact ⟨key', List.mem_cons_of_mem _ hmem, hfault⟩
    · obtain ⟨key', hmem, hfault⟩ := ih h
      exact ⟨key', List.mem_cons_of_mem _ hmem, hfault⟩
    · rename_i cause hget
      cases h
      exact ⟨key, List.mem_cons_self, cause, hget, rfl⟩

/-- What a name is bound to after some keys are read: what is under the key for the name, if that is
among them, and what it was bound to before otherwise. -/
theorem find?_readPartials (hget : ∀ {key value}, store.get key = .ok value → value = content key)
    (hstart : ∀ key ∈ keys, ∀ text, store.get key = .ok (some text) →
      KeyedStore.startsWith s.partialSpace key = true)
    (h : s.readPartials store keys found = .ok found') (name : String) :
    Assoc.find? name found' =
      (if s.partialSpace ++ name ∈ keys then content (s.partialSpace ++ name) else none).or
        (Assoc.find? name found) := by
  induction keys generalizing found with
  | nil =>
    obtain rfl : found = found' := by simpa [readPartials] using h
    rfl
  | cons key rest ih =>
    obtain ⟨hkey, hrest⟩ := List.forall_mem_cons.mp hstart
    have hlater : key ≠ s.partialSpace ++ name →
        (s.partialSpace ++ name ∈ key :: rest ↔ s.partialSpace ++ name ∈ rest) :=
      fun he => by simp [Ne.symm he]
    unfold readPartials at h
    split at h
    · rename_i text htext
      have hcontent := hget htext
      rw [ih hrest h]
      by_cases he : key = s.partialSpace ++ name
      · -- The key for the name is read here; reading it again later gives the same text.
        subst he
        rw [partialName_append, Assoc.find?_put_self, ← hcontent, if_pos List.mem_cons_self]
        split <;> rfl
      · have hne : name ≠ s.partialName key := by
          rintro rfl
          exact he (append_partialName (hkey text htext)).symm
        simp only [Assoc.find?_put_of_ne hne, hlater he]
    · rename_i hnone
      have hcontent := hget hnone
      rw [ih hrest h]
      by_cases he : key = s.partialSpace ++ name
      · subst he
        rw [← hcontent, ite_self, ite_self]
      · simp only [hlater he]
    · cases h

/-! ## All partials -/

/-- The partials of a source are exactly those that the store holds: under each name the text that
is stored under its key, and no other name. Where something cannot be read there is an error that
names it. -/
structure ListsExactly (s : KeyedSource) (store : KeyedStore) (content : String → Option String) :
    Prop where
  /-- There is a set of partials exactly if the listing and every listed key can be read. -/
  ok_iff : (∃ found, s.partials store = .ok found) ↔
    ∃ keys, store.keys s.partialSpace = .ok keys ∧ ∀ key ∈ keys, ∃ value, store.get key = .ok value
  /-- A name is bound to a text exactly if the store holds the text under the key for the name. -/
  find?_iff : ∀ {found}, s.partials store = .ok found → ∀ name text,
    Assoc.find? name found = some text ↔ content (s.partialSpace ++ name) = some text
  /-- No name is that of two keys. -/
  key_unique : ∀ {key other}, s.ReadsPartial store key → s.ReadsPartial store other →
    s.partialName key = s.partialName other → key = other
  /-- What a failed listing leads to. -/
  listing_fault : ∀ {cause}, store.keys s.partialSpace = .error cause →
    s.partials store = .error (.unreadable (s.partialSpace ++ "*") cause)
  /-- What a failed reading leads to. -/
  reading_fault : ∀ {keys e}, store.keys s.partialSpace = .ok keys → s.partials store = .error e →
    ∃ key ∈ keys, ∃ cause, store.get key = .error cause ∧ e = .unreadable key cause

/-- Where the store lists its keys, the partials are read from them in that order. -/
theorem partials_of_keys (h : store.keys s.partialSpace = .ok keys) :
    s.partials store = s.readPartials store keys [] := by
  rw [partials, h]

/-- Where it cannot, the failure names the pattern it was asked to list. -/
theorem partials_of_no_keys {cause : StoreFault} (h : store.keys s.partialSpace = .error cause) :
    s.partials store = .error (.unreadable (s.partialSpace ++ "*") cause) := by
  rw [partials, h]

/-- Whatever the store holds, in whatever order its keys are listed, whichever keys are listed that
are gone and whichever cannot be read, the partials are those that the store holds. -/
theorem partials_exact (h : store.Reaches content s.partialSpace) :
    s.ListsExactly store content where
  ok_iff := by
    cases hkeys : store.keys s.partialSpace with
    | ok keys => simpa [partials_of_keys hkeys] using readPartials_ok_iff
    | error cause => simp [partials_of_no_keys hkeys]
  find?_iff := by
    intro found hfound name text
    cases hkeys : store.keys s.partialSpace with
    | ok keys =>
      rw [partials_of_keys hkeys] at hfound
      have hstart : ∀ key ∈ keys, ∀ text, store.get key = .ok (some text) →
          KeyedStore.startsWith s.partialSpace key = true :=
        fun key hkey text hget => h.startsWith_of_mem hkeys hkey hget
      rw [find?_readPartials h.get_eq hstart hfound, Assoc.find?_nil, Option.or_none]
      constructor
      · intro hread
        split at hread
        · exact hread
        · cases hread
      · intro htext
        rw [if_pos ((h.mem_keys_iff hkeys htext).mpr (s.startsWith_append name)), htext]
    | error cause =>
      rw [partials_of_no_keys hkeys] at hfound
      cases hfound
  key_unique := by
    rintro key other ⟨keys, text, hkeys, hkey, hget⟩ ⟨keys', text', hkeys', hother, hget'⟩ hname
    exact partialName_inj (h.startsWith_of_mem hkeys hkey hget)
      (h.startsWith_of_mem hkeys' hother hget') hname
  listing_fault := partials_of_no_keys
  reading_fault := fun hkeys he => readPartials_error (partials_of_keys hkeys ▸ he)

/-- Two partials, the one without a name and the other with one that starts as keys do, with a key
listed that is gone. -/
theorem partials_exact_again :
    let entries : Assoc String String :=
      [("p:p:nav", "<nav>"), ("t:home.hbs", "Home"), ("p:", "nameless")]
    let store : KeyedStore :=
      { KeyedStore.ofEntries entries with keys := fun _ => .ok ["p:", "gone", "p:p:nav"] }
    let s : KeyedSource := ⟨"t:", "p:"⟩
    s.partials store = .ok [("", "nameless"), ("p:nav", "<nav>")] ∧
      s.ListsExactly store fun key => Assoc.find? key entries := by
  intro entries store s
  refine ⟨by decide +kernel, partials_exact ⟨fun h => (Except.ok.inj h).symm, ?_⟩⟩
  rintro keys ⟨⟩ key text hheld
  have hkey : key ∈ entries.map Prod.fst := List.mem_map_of_mem (Assoc.mem_of_find? hheld)
  exact (by decide +kernel : ∀ key ∈ entries.map Prod.fst,
    (key ∈ ["p:", "gone", "p:p:nav"] ↔ KeyedStore.startsWith s.partialSpace key = true)) key hkey

end KeyedSource
end Views
