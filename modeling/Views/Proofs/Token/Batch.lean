import Views.Deferred
import Views.Proofs.Assoc
/-!
# The values of a batch

If the tokens of a batch are not the same, `settle` gives each the outcome of its own job, in
whatever order the jobs end (`settle_eq_shown`). Values of later tokens come after those of earlier
ones (`TokenValues.extend_eq_append`). That the jobs of a batch, started together, deliver is
`delivers_arrivals`.

Jobs are told apart by their place in the batch, tokens by their text. That no token is in a batch
twice is what lets the two be exchanged; without it a later outcome would replace an earlier one.
-/

namespace Views

/-- A token with the text that is shown for it. -/
def Pending.shown (p : Pending) : Token × String := (p.token, p.job.outcome.shown)

namespace TokenValues

/-- Values of tokens that are not among the earlier ones come after them. -/
theorem extend_eq_append {values more : TokenValues}
    (h : ((values ++ more).map Prod.fst).Nodup) : values.extend more = values ++ more := by
  induction more generalizing values with
  | nil => exact (List.append_nil values).symm
  | cons p more ih =>
    have hshape : values ++ p :: more = values ++ [p] ++ more := by simp
    have hnew : p.1 ∉ values.map Prod.fst := by
      rw [List.map_append, List.map_cons, List.nodup_middle, List.nodup_cons] at h
      exact fun hmem => h.1 (List.mem_append_left _ hmem)
    rw [hshape] at h ⊢
    rw [extend, List.foldl_cons, Assoc.put_of_notMem hnew]
    exact ih h

/-- The tokens of a joined map are those of the two maps. -/
theorem mem_keys_extend {values more : TokenValues} {t : Token} :
    t ∈ (values.extend more).map Prod.fst ↔
      t ∈ values.map Prod.fst ∨ t ∈ more.map Prod.fst := by
  induction more generalizing values with
  | nil => simp [extend]
  | cons p more ih =>
    have hextend : values.extend (p :: more) = TokenValues.extend (values.put p.1 p.2) more := rfl
    rw [hextend, ih, Assoc.mem_keys_put, List.map_cons, List.mem_cons, or_assoc]
    exact or_left_comm

/-- Joining maps doubles no token. -/
theorem nodup_keys_extend {values : TokenValues} (h : (values.map Prod.fst).Nodup)
    (more : TokenValues) : ((values.extend more).map Prod.fst).Nodup := by
  induction more generalizing values with
  | nil => exact h
  | cons p more ih => exact ih (Assoc.nodup_keys_put h p.1 p.2)

end TokenValues

/-- The settlement of a batch, as an extension of no values. -/
theorem settle_eq_extend (batch : List Pending) (completions : List Completion) :
    settle batch completions = TokenValues.extend [] (batch.zipIdx.map fun (p, place) =>
      (p.token, ((Assoc.find? place completions).map Outcome.shown).getD "")) := by
  rw [settle, TokenValues.extend, List.foldl_map]

/-- Each token of a batch has one value, however the jobs end. -/
theorem keys_settle (batch : List Pending) (completions : List Completion) :
    ((settle batch completions).map Prod.fst).Nodup ∧
      ∀ t, t ∈ (settle batch completions).map Prod.fst ↔ t ∈ batch.map Pending.token := by
  rw [settle_eq_extend]
  refine ⟨TokenValues.nodup_keys_extend (by simp) _, fun t => ?_⟩
  have hkeys : (batch.zipIdx.map fun (p, place) => (p.token,
      ((Assoc.find? place completions).map Outcome.shown).getD "")).map Prod.fst =
      batch.map Pending.token := by
    refine List.ext_getElem (by simp) fun place h _ => ?_
    simp
  rw [TokenValues.mem_keys_extend, hkeys]
  simp

/-- The values of a batch are what is shown for its tokens, in whatever order the jobs end. -/
theorem settle_eq_extend_shown {batch : List Pending} {completions : List Completion}
    (hdelivers : Delivers batch completions) :
    settle batch completions = TokenValues.extend [] (batch.map Pending.shown) := by
  rw [settle_eq_extend]
  congr 1
  refine List.ext_getElem (by simp) fun place h _ => ?_
  have hplace : place < batch.length := by simpa using h
  simp [hdelivers place hplace, Pending.shown]

/-- Each token has the value that its own job ended with. -/
theorem settle_eq_shown {batch : List Pending} {completions : List Completion}
    (hdelivers : Delivers batch completions) (hnodup : (batch.map Pending.token).Nodup) :
    settle batch completions = batch.map Pending.shown := by
  have hkeys : (batch.map Pending.shown).map Prod.fst = batch.map Pending.token := by
    rw [List.map_map]
    rfl
  rw [settle_eq_extend_shown hdelivers, TokenValues.extend_eq_append]
  · rfl
  · rw [List.nil_append, hkeys]
    exact hnodup

/-- Jobs that start together deliver in the order of their delays. -/
theorem delivers_arrivals (batch : List Pending) : Delivers batch (arrivals batch) := by
  intro place hplace
  have hperm : (arrivals batch).Perm
      (batch.zipIdx.map fun (p, place) => (place, p.job.outcome)) := by
    have hsort := List.mergeSort_perm
      (batch.zipIdx.map fun (p, place) => (p.job.delay, (place, p.job.outcome)))
      fun a b => a.1 ≤ b.1
    have hmap := hsort.map Prod.snd
    rw [List.map_map] at hmap
    exact hmap
  refine Assoc.find?_of_mem_nodup ?_ ?_
  · refine hperm.mem_iff.mpr (List.mem_map.mpr ⟨(batch[place], place), ?_, rfl⟩)
    exact List.mem_zipIdx_iff_getElem?.mpr (by simp)
  · refine (hperm.map Prod.fst).nodup_iff.mpr ?_
    rw [List.map_map]
    have hkeys : (Prod.fst ∘ fun ((p, place) : Pending × Nat) => (place, p.job.outcome)) =
        Prod.snd := rfl
    rw [hkeys, List.zipIdx_map_snd]
    exact List.nodup_range'

end Views
