import Views.Assoc
import Mathlib.Data.List.Nodup
/-!
# Binding keys one after the other

What comes of binding a key that is bound already, and of binding several keys: the later binding of
a key counts (`Assoc.put_put_self`) and a bound key keeps its place (`Assoc.put_put_comm`).

Registering partials, noting values and storing documents are all done by `Assoc.put`, one key after
the other. The modules on these use two of the facts here again and again: after a binding the bound
keys are those from before and the new one (`Assoc.mem_keys_put`), and to bind what is bound already
changes nothing (`Assoc.put_of_find?`).
-/

namespace Views

namespace Assoc

variable {α β : Type} [DecidableEq α] {key other : α} {v w : β} {m : Assoc α β}

@[simp] theorem put_put_self (key : α) (v w : β) (m : Assoc α β) :
    put key v (put key w m) = put key v m := by
  induction m with
  | nil => simp [put]
  | cons p rest ih =>
    obtain ⟨k, u⟩ := p
    by_cases h : k = key
    · simp [put, h]
    · simp [put, h, ih]

/-- Binding a key to what it is bound to changes nothing. -/
theorem put_of_find? (h : find? key m = some v) : put key v m = m := by
  induction m with
  | nil => cases h
  | cons p rest ih =>
    obtain ⟨k, u⟩ := p
    by_cases hk : k = key
    · subst hk
      simp only [find?, if_true] at h
      cases h
      simp [put]
    · simp only [find?, if_neg hk] at h
      simp [put, hk, ih h]

/-- A key that is bound already keeps its place, whatever else is bound. -/
theorem put_put_comm (hne : other ≠ key) (h : (find? key m).isSome) :
    put other w (put key v m) = put key v (put other w m) := by
  induction m with
  | nil => cases h
  | cons p rest ih =>
    obtain ⟨k, u⟩ := p
    by_cases hk : k = key
    · subst hk
      simp [put, hne.symm]
    · simp only [find?, if_neg hk] at h
      by_cases ho : k = other
      · subst ho
        simp [put, hk]
      · simp [put, hk, ho, ih h]

/-- A key that has a value keeps one, whatever key is set beside it. -/
theorem isSome_find?_put (h : (find? key m).isSome) (other : α) (w : β) :
    (find? key (put other w m)).isSome := by
  by_cases he : key = other
  · subst he
    simp
  · rw [find?_put_of_ne he]
    exact h

/-- What a look-up finds after a key is bound is what it was bound to, or was found before. -/
theorem find?_put_cases (h : find? other (put key v m) = some w) :
    other = key ∧ w = v ∨ find? other m = some w := by
  by_cases he : other = key
  · subst he
    rw [find?_put_self] at h
    exact .inl ⟨rfl, (Option.some.inj h).symm⟩
  · rw [find?_put_of_ne he] at h
    exact .inr h

/-- A key that is bound to nothing is not among the keys. -/
theorem find?_eq_none_iff : find? key m = none ↔ key ∉ m.map Prod.fst := by
  induction m with
  | nil => simp
  | cons p rest ih =>
    obtain ⟨k, u⟩ := p
    by_cases hk : k = key
    · simp [find?, hk]
    · rw [find?, if_neg hk, ih, List.map_cons, List.mem_cons, not_or]
      exact (and_iff_right (Ne.symm hk)).symm

/-- A key that is not bound yet comes last. -/
theorem put_of_notMem (h : key ∉ m.map Prod.fst) (value : β) :
    put key value m = m ++ [(key, value)] := by
  induction m with
  | nil => rfl
  | cons p rest ih =>
    obtain ⟨k, v⟩ := p
    rw [List.map_cons, List.mem_cons, not_or] at h
    rw [put, if_neg (Ne.symm h.1), ih h.2]
    rfl

/-- Setting a key adds that key, where it is new, and no other. -/
theorem mem_keys_put :
    other ∈ (put key v m).map Prod.fst ↔ other = key ∨ other ∈ m.map Prod.fst := by
  induction m with
  | nil => simp [put]
  | cons p rest ih =>
    obtain ⟨k, u⟩ := p
    by_cases h : k = key
    · subst h
      simp [put]
    · rw [put, if_neg h, List.map_cons, List.mem_cons, ih, List.map_cons, List.mem_cons]
      exact or_left_comm

/-- No key comes to stand twice. -/
theorem nodup_keys_put (h : (m.map Prod.fst).Nodup) (key : α) (v : β) :
    ((put key v m).map Prod.fst).Nodup := by
  induction m with
  | nil => exact List.nodup_singleton key
  | cons p rest ih =>
    obtain ⟨k, u⟩ := p
    obtain ⟨hk, hrest⟩ := List.nodup_cons.mp h
    by_cases he : k = key
    · subst he
      rw [put, if_pos rfl]
      exact h
    · rw [put, if_neg he]
      refine List.nodup_cons.mpr ⟨fun hmem => ?_, ih hrest⟩
      rcases mem_keys_put.mp hmem with heq | hmem
      · exact he heq
      · exact hk hmem

/-- If no key stands twice, what stands in the list is what its key is bound to. -/
theorem find?_of_mem_nodup (hmem : (key, v) ∈ m) (hnodup : (m.map Prod.fst).Nodup) :
    find? key m = some v := by
  induction m with
  | nil => cases hmem
  | cons p rest ih =>
    obtain ⟨k, v⟩ := p
    rw [List.map_cons, List.nodup_cons] at hnodup
    rcases List.mem_cons.mp hmem with he | hmem
    · cases he
      simp [find?]
    · have hkey : key ∈ rest.map Prod.fst := List.mem_map_of_mem hmem
      have hne : k ≠ key := fun he => hnodup.1 (he ▸ hkey)
      rw [find?, if_neg hne]
      exact ih hmem hnodup.2

/-- If no key stands twice, look-ups find what stands in the list. -/
theorem find?_eq_some_iff (h : (m.map Prod.fst).Nodup) : find? key m = some v ↔ (key, v) ∈ m :=
  ⟨mem_of_find?, fun hmem => find?_of_mem_nodup hmem h⟩

/-- If no key stands twice, the order does not matter to look-ups. -/
theorem find?_perm {m' : Assoc α β} (h : (m.map Prod.fst).Nodup) (hperm : m'.Perm m) (key : α) :
    find? key m' = find? key m := by
  have h' : (m'.map Prod.fst).Nodup := (hperm.map Prod.fst).nodup_iff.mpr h
  refine Option.ext fun v => ?_
  rw [find?_eq_some_iff h', find?_eq_some_iff h, hperm.mem_iff]

end Assoc

end Views
