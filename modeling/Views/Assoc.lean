/-!
# Finite maps as lists of pairs

Names are bound to things by lists of pairs in which each name stands once. `put` keeps a name's
place when it is bound again and appends a new one, and `erase` takes a name out. What a look-up
finds after `put` is all that the proofs of the library use.
-/

namespace Views

/-- A finite map from `α` to `β`: a list of pairs, in the order in which the keys were first
bound. -/
abbrev Assoc (α β : Type) := List (α × β)

namespace Assoc

variable {α β γ : Type} [DecidableEq α]

/-- What a key is bound to. -/
def find? (key : α) : Assoc α β → Option β
  | [] => none
  | (k, v) :: rest => if k = key then some v else find? key rest

/-- Binds a key. -/
def put (key : α) (value : β) : Assoc α β → Assoc α β
  | [] => [(key, value)]
  | (k, v) :: rest => if k = key then (key, value) :: rest else (k, v) :: put key value rest

/-- Unbinds a key. -/
def erase (key : α) : Assoc α β → Assoc α β
  | [] => []
  | (k, v) :: rest => if k = key then erase key rest else (k, v) :: erase key rest

/-- The keys in order. -/
def keys (m : Assoc α β) : List α := m.map Prod.fst

@[simp] theorem find?_nil (key : α) : find? key ([] : Assoc α β) = none := rfl

@[simp] theorem find?_put_self (key : α) (value : β) (m : Assoc α β) :
    find? key (put key value m) = some value := by
  induction m with
  | nil => simp [put, find?]
  | cons p rest ih =>
    obtain ⟨k, v⟩ := p
    simp only [put]
    split
    · simp [find?]
    · rename_i h
      simp [find?, h, ih]

theorem find?_put_of_ne {key other : α} (h : other ≠ key) (value : β) (m : Assoc α β) :
    find? other (put key value m) = find? other m := by
  induction m with
  | nil => simp [put, find?, Ne.symm h]
  | cons p rest ih =>
    obtain ⟨k, v⟩ := p
    simp only [put]
    split
    · rename_i e
      subst e
      simp [find?, Ne.symm h]
    · simp only [find?, ih]

theorem find?_map (f : β → γ) (key : α) (m : Assoc α β) :
    find? key (m.map fun (k, v) => (k, f v)) = (find? key m).map f := by
  induction m with
  | nil => rfl
  | cons p rest ih =>
    obtain ⟨k, v⟩ := p
    by_cases h : k = key
    · simp [find?, h]
    · simp [find?, h, ih]

/-- What a key is bound to stands in the list. -/
theorem mem_of_find? {key : α} {value : β} {m : Assoc α β} (h : find? key m = some value) :
    (key, value) ∈ m := by
  induction m with
  | nil => cases h
  | cons p rest ih =>
    obtain ⟨k, v⟩ := p
    by_cases he : k = key
    · subst he
      obtain rfl : v = value := by simpa [find?] using h
      exact List.mem_cons_self
    · exact List.mem_cons_of_mem _ (ih (by simpa [find?, he] using h))

/-- What stands in the list after a key is bound is the new pair or stood there before. -/
theorem mem_of_mem_put {key : α} {value : β} {m : Assoc α β} {p : α × β}
    (h : p ∈ put key value m) : p = (key, value) ∨ p ∈ m := by
  induction m with
  | nil => exact .inl (List.mem_singleton.mp h)
  | cons q rest ih =>
    obtain ⟨k, v⟩ := q
    rw [put] at h
    split at h
    · rcases List.mem_cons.mp h with rfl | h
      · exact .inl rfl
      · exact .inr (List.mem_cons_of_mem _ h)
    · rcases List.mem_cons.mp h with rfl | h
      · exact .inr List.mem_cons_self
      · exact (ih h).imp_right (List.mem_cons_of_mem _)

end Assoc
end Views
