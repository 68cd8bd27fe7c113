import Views.Docket
import Views.Proofs.Token.Batch
import Mathlib.Data.List.DropRight
/-!
# Every value is delivered once

On a docket tokens are given out, jobs end and settlements are called for and return, in whatever
order. Each settlement takes the tokens given out since the one before (`Docket.batches_run`), and
what it returns gives each of them the outcome of its own job (`Docket.Sound.values`), so that it is
what `Deferrals.finish` gives. `Docket.accounted_run` puts this together: every token is in one
batch or waits, a settlement returns once its jobs have ended, and the order in which they end does
not show.

Tokens and jobs are kept apart until a settlement pairs them again. The invariant that carries the
proof is that the jobs of each batch stand side by side among the jobs started
(`Docket.Sound.batch`).
-/

namespace Views

/-- What a settlement returns is what is waited for when a page is finished. -/
theorem settle_eq_finish {batch : List Pending} {completions : List Completion}
    (h : Delivers batch completions) :
    settle batch completions = (Deferrals.finish ⟨batch⟩).1 := by
  have hfinish : (Deferrals.finish ⟨batch⟩).1 = settle batch (arrivals batch) := rfl
  rw [hfinish, settle_eq_extend_shown h, settle_eq_extend_shown (delivers_arrivals batch)]

namespace Settlement

variable {s : Settlement} {ended : List Completion}

/-- The ends of the jobs of a settlement, found by the numbers of the jobs. -/
theorem find?_ends (s : Settlement) (ended : List Completion) (place : Nat) :
    Assoc.find? place (s.ends ended) = Assoc.find? (s.first + place) ended := by
  unfold ends
  induction ended with
  | nil => rfl
  | cons p rest ih =>
    obtain ⟨number, outcome⟩ := p
    by_cases hfirst : s.first ≤ number
    · have hplace : number - s.first = place ↔ number = s.first + place := by omega
      simp [Assoc.find?, hfirst, hplace, ih]
    · have hplace : number ≠ s.first + place := by omega
      simp [Assoc.find?, hfirst, hplace, ih]

/-- A settlement is due just if each job of its batch has ended. -/
theorem isDue_iff : s.isDue ended ↔
    ∀ place < s.batch.length, (Assoc.find? (s.first + place) ended).isSome := by
  simp [isDue, find?_ends]

/-- A settlement that looks whether its jobs have ended stays as it is, or returns. -/
theorem resume_cases (s : Settlement) (ended : List Completion) :
    s.resume ended = s ∨ s.isDue ended ∧
      s.resume ended = { s with values? := some (settle s.batch (s.ends ended)) } := by
  unfold resume
  split
  · rename_i h
    exact .inr ⟨h.2, rfl⟩
  · exact .inl rfl

@[simp] theorem batch_resume (s : Settlement) (ended : List Completion) :
    (s.resume ended).batch = s.batch := by
  rcases s.resume_cases ended with h | ⟨-, h⟩ <;> rw [h]

@[simp] theorem first_resume (s : Settlement) (ended : List Completion) :
    (s.resume ended).first = s.first := by
  rcases s.resume_cases ended with h | ⟨-, h⟩ <;> rw [h]

end Settlement

namespace Docket

/-! ## Histories -/

/-- The token that is given out, if one is, with its job. -/
def Entry.given? : Entry → Option Pending
  | given token job => some ⟨token, job⟩
  | _ => none

/-- Whether a settlement is called for. -/
def Entry.isCall : Entry → Bool
  | called => true
  | _ => false

/-- An entry that calls for values gives no token. -/
theorem Entry.given?_of_isCall {entry : Entry} (h : entry.isCall = true) :
    entry.given? = none := by
  match entry, h with
  | .called, _ => rfl

/-- Whether something is asked of the docket: a token, or a settlement. -/
def Entry.isRequest (entry : Entry) : Bool := entry.isCall || entry.given?.isSome

/-- The tokens given out in a history. -/
def created (entries : List Entry) : List Pending := entries.filterMap Entry.given?

/-- The tokens given out, cut where settlements are called for. -/
def parts (entries : List Entry) : List (List Pending) :=
  (entries.splitOnP Entry.isCall).map created

/-- The tokens of the settlements, and last the tokens that wait. -/
def batches (docket : Docket) : List (List Pending) :=
  docket.settlements.map Settlement.batch ++ [docket.deferrals.pending]

variable {entries other : List Entry} {entry : Entry} {docket : Docket}

theorem parts_ne_nil (entries : List Entry) : parts entries ≠ [] := by
  simp [parts, List.splitOnP_ne_nil]

/-- A call closes the part before it. -/
theorem parts_cons_of_isCall (h : entry.isCall = true) :
    parts (entry :: entries) = [] :: parts entries := by
  rw [parts, List.splitOnP_cons_eq_if_modifyHead, if_pos h]
  rfl

/-- Any other entry belongs to the open part, and adds the token that it gives. -/
theorem parts_cons_of_not_isCall (h : entry.isCall = false) :
    parts (entry :: entries) = (parts entries).modifyHead (entry.given?.toList ++ ·) := by
  obtain ⟨first, rest, hsplit⟩ :=
    List.exists_cons_of_ne_nil (List.splitOnP_ne_nil Entry.isCall entries)
  rw [parts, List.splitOnP_cons_eq_if_modifyHead, if_neg (by simp [h]), parts, hsplit]
  cases hgiven : entry.given? <;> simp [created, hgiven]

/-- Cut or not, the same tokens are given out. -/
theorem flatten_parts (entries : List Entry) : (parts entries).flatten = created entries := by
  induction entries with
  | nil => rfl
  | cons entry entries ih =>
    cases hcall : entry.isCall with
    | true =>
      rw [parts_cons_of_isCall hcall, List.flatten_cons, ih]
      simp [created, Entry.given?_of_isCall hcall]
    | false =>
      obtain ⟨first, rest, hparts⟩ := List.exists_cons_of_ne_nil (parts_ne_nil entries)
      rw [parts_cons_of_not_isCall hcall, hparts, List.modifyHead_cons, List.flatten_cons,
        List.append_assoc, ← List.flatten_cons, ← hparts, ih]
      cases hgiven : entry.given? <;> simp [created, hgiven]

/-- The ends of jobs do not count for what is given out between settlements. -/
theorem parts_filter_isRequest (entries : List Entry) :
    parts (entries.filter Entry.isRequest) = parts entries := by
  induction entries with
  | nil => rfl
  | cons entry entries ih =>
    cases hcall : entry.isCall with
    | true =>
      have hrequest : entry.isRequest = true := by simp [Entry.isRequest, hcall]
      rw [List.filter_cons_of_pos hrequest, parts_cons_of_isCall hcall, parts_cons_of_isCall hcall,
        ih]
    | false =>
      rw [parts_cons_of_not_isCall hcall]
      cases hgiven : entry.given? with
      | some p =>
        have hrequest : entry.isRequest = true := by simp [Entry.isRequest, hgiven]
        rw [List.filter_cons_of_pos hrequest, parts_cons_of_not_isCall hcall, ih, hgiven]
      | none =>
        have hrequest : ¬ entry.isRequest = true := by simp [Entry.isRequest, hcall, hgiven]
        obtain ⟨first, rest, hparts⟩ := List.exists_cons_of_ne_nil (parts_ne_nil entries)
        rw [List.filter_cons_of_neg hrequest, ih, hparts]
        simp

/-! ## Which tokens settlements take -/

/-- Entries are taken up one after the other. -/
theorem run_append (entries more : List Entry) :
    run (entries ++ more) = more.foldl step (run entries) :=
  List.foldl_append

/-- Settlements stay what they are for while they look whether their jobs have ended. -/
theorem map_batch_modify (settlements : List Settlement) (place : Nat) (ended : List Completion) :
    (settlements.modify place (·.resume ended)).map Settlement.batch =
      settlements.map Settlement.batch := by
  refine List.ext_getElem? fun i => ?_
  rw [List.getElem?_map, List.getElem?_modify, List.getElem?_map]
  cases settlements[i]? with
  | none => rfl
  | some s =>
    by_cases h : place = i <;> simp [h]

/-- A call takes the tokens that wait; else they stay, and one may come to them. -/
theorem pending_step (docket : Docket) (entry : Entry) : (docket.step entry).deferrals.pending =
    if entry.isCall then [] else docket.deferrals.pending ++ entry.given?.toList := by
  cases entry with
  | given token job => rfl
  | ended number =>
    rw [step]
    split <;> simp [Entry.isCall, Entry.given?]
  | called => rfl
  | resumed place => simp [step, Entry.isCall, Entry.given?]

/-- One entry adds a batch, of all that is pending, if it is a call. -/
theorem map_batch_step (docket : Docket) (entry : Entry) :
    (docket.step entry).settlements.map Settlement.batch =
      docket.settlements.map Settlement.batch ++
        if entry.isCall then [docket.deferrals.pending] else [] := by
  cases entry with
  | given token job => simp [step, Entry.isCall]
  | ended number =>
    rw [step]
    split <;> simp [Entry.isCall]
  | called => simp [step, Entry.isCall, Deferrals.take]
  | resumed place => simp [step, Entry.isCall, map_batch_modify]

/-- The tokens that wait already go to the first settlement that is called for. -/
theorem batches_foldl (docket : Docket) (entries : List Entry) :
    (entries.foldl step docket).batches = docket.settlements.map Settlement.batch ++
      (parts entries).modifyHead (docket.deferrals.pending ++ ·) := by
  induction entries generalizing docket with
  | nil => simp [batches, parts, created]
  | cons entry entries ih =>
    rw [List.foldl_cons, ih, map_batch_step, pending_step]
    cases hcall : entry.isCall with
    | true =>
      obtain ⟨first, rest, hparts⟩ := List.exists_cons_of_ne_nil (parts_ne_nil entries)
      rw [parts_cons_of_isCall hcall, hparts]
      simp
    | false =>
      rw [parts_cons_of_not_isCall hcall, List.modifyHead_modifyHead]
      simp [Function.comp_def]

/-- Each settlement takes the tokens given out since the one before was called for, and those given
out since the last one wait. -/
theorem batches_run (entries : List Entry) : (run entries).batches = parts entries := by
  obtain ⟨first, rest, hparts⟩ := List.exists_cons_of_ne_nil (parts_ne_nil entries)
  rw [run, batches_foldl, hparts]
  rfl

/-- The tokens that wait are those given out since a settlement was last called for. -/
theorem pending_run (entries : List Entry) :
    (run entries).deferrals.pending = created (entries.rtakeWhile fun entry => !entry.isCall) := by
  induction entries using List.reverseRecOn with
  | nil => rfl
  | append_singleton entries entry ih =>
    rw [run_append, List.foldl_cons, List.foldl_nil, pending_step, ih]
    cases hcall : entry.isCall with
    | true =>
      rw [List.rtakeWhile_concat_neg _ _ _ (by simp [hcall])]
      rfl
    | false =>
      rw [List.rtakeWhile_concat_pos _ _ _ (by simp [hcall])]
      cases hgiven : entry.given? <;> simp [created, hgiven]

/-! ## What settlements return -/

/-- The jobs of each batch stand side by side among those started, jobs end as they do, and what a
settlement has returned is what is waited for when a page is finished. -/
structure Sound (docket : Docket) : Prop where
  pending : docket.deferrals.pending.map Pending.job <:+ docket.started
  batch : ∀ s ∈ docket.settlements, s.batch.map Pending.job <+: docket.started.drop s.first
  outcome : ∀ number outcome, Assoc.find? number docket.ended = some outcome →
    docket.started[number]?.map Job.outcome = some outcome
  values : ∀ s ∈ docket.settlements, ∀ values, s.values? = some values →
    values = (Deferrals.finish ⟨s.batch⟩).1

namespace Sound

variable {s : Settlement} {place : Nat}

/-- The number of a job leads from a place in a batch to the job of the token there. -/
theorem getElem?_started (h : docket.Sound) (hs : s ∈ docket.settlements)
    (hplace : place < s.batch.length) :
    docket.started[s.first + place]? = some s.batch[place].job := by
  obtain ⟨more, hmore⟩ := h.batch s hs
  rw [← List.getElem?_drop, ← hmore, List.getElem?_append_left (by simpa using hplace)]
  simp [hplace]

/-- If all jobs of a settlement have ended, it is told of each how it ended. -/
theorem delivers (h : docket.Sound) (hs : s ∈ docket.settlements)
    (hdue : s.isDue docket.ended) : Delivers s.batch (s.ends docket.ended) := by
  intro place hplace
  have hended := Settlement.isDue_iff.mp hdue place hplace
  obtain ⟨outcome, houtcome⟩ := Option.isSome_iff_exists.mp hended
  have hjob := h.outcome _ _ houtcome
  rw [h.getElem?_started hs hplace] at hjob
  rw [Settlement.find?_ends, houtcome, ← hjob]
  rfl

/-- A token that is given joins those that are pending, behind those that were started. -/
theorem given (h : docket.Sound) (token : Token) (job : Job) :
    (docket.step (.given token job)).Sound where
  pending := by
    obtain ⟨earlier, hearlier⟩ := h.pending
    exact ⟨earlier, by simp [step, Deferrals.defer, ← hearlier]⟩
  batch s hs := by
    refine (h.batch s hs).trans ?_
    simp only [step, List.drop_append]
    exact List.prefix_append _ _
  outcome number outcome houtcome := by
    have hjob := h.outcome number outcome houtcome
    obtain ⟨job', hjob', -⟩ := Option.map_eq_some_iff.mp hjob
    have hlt := (List.getElem?_eq_some_iff.mp hjob').1
    simp only [step]
    rw [List.getElem?_append_left hlt]
    exact hjob
  values := h.values

/-- That a job ends is noted once. -/
theorem ended (h : docket.Sound) (number : Nat) : (docket.step (.ended number)).Sound := by
  rw [step]
  split
  · rename_i job hjob
    refine { h with outcome := fun other outcome houtcome => ?_ }
    rcases Assoc.find?_put_cases houtcome with ⟨rfl, rfl⟩ | houtcome
    · simp [hjob]
    · exact h.outcome other outcome houtcome
  · exact h

/-- A call takes all that is pending for its batch. -/
theorem called (h : docket.Sound) : (docket.step .called).Sound where
  pending := List.nil_suffix
  batch s hs := by
    rcases List.mem_append.mp hs with hs | hs
    · exact h.batch s hs
    · obtain rfl := List.mem_singleton.mp hs
      have hdrop := List.suffix_iff_eq_drop.mp h.pending
      rw [List.length_map] at hdrop
      dsimp only
      exact hdrop ▸ List.prefix_rfl
  outcome := h.outcome
  values s hs values hvalues := by
    rcases List.mem_append.mp hs with hs | hs
    · exact h.values s hs values hvalues
    · obtain rfl := List.mem_singleton.mp hs
      cases hvalues

/-- A settlement that is resumed gets what has ended of its own batch. -/
theorem resumed (h : docket.Sound) (place : Nat) : (docket.step (.resumed place)).Sound := by
  have hmem : ∀ s ∈ (docket.step (.resumed place)).settlements,
      s ∈ docket.settlements ∨ ∃ t ∈ docket.settlements, s = t.resume docket.ended := by
    intro s hs
    obtain ⟨i, hi⟩ := List.mem_iff_getElem?.mp hs
    simp only [step] at hi
    rw [List.getElem?_modify] at hi
    obtain ⟨t, ht, rfl⟩ := Option.map_eq_some_iff.mp hi
    have ht := List.mem_of_getElem? ht
    by_cases hplace : place = i
    · exact .inr ⟨t, ht, by simp [hplace]⟩
    · exact .inl (by simpa [hplace] using ht)
  refine ⟨h.pending, fun s hs => ?_, h.outcome, fun s hs values hvalues => ?_⟩
  · rcases hmem s hs with hs | ⟨t, ht, rfl⟩
    · exact h.batch s hs
    · rw [Settlement.batch_resume, Settlement.first_resume]
      exact h.batch t ht
  · rcases hmem s hs with hs | ⟨t, ht, rfl⟩
    · exact h.values s hs values hvalues
    · rw [Settlement.batch_resume]
      rcases t.resume_cases docket.ended with hresume | ⟨hdue, hresume⟩
      · rw [hresume] at hvalues
        exact h.values t ht values hvalues
      · rw [hresume] at hvalues
        cases hvalues
        exact settle_eq_finish (h.delivers ht hdue)

/-- So any entry keeps a docket sound. One case for each kind of entry. -/
theorem step (h : docket.Sound) (entry : Entry) : (docket.step entry).Sound := by
  cases entry with
  | given token job => exact h.given token job
  | ended number => exact h.ended number
  | called => exact h.called
  | resumed place => exact h.resumed place

/-- A docket with nothing in it is sound. -/
theorem start : Sound {} where
  pending := List.nil_suffix
  batch _ hs := by cases hs
  outcome _ _ h := by cases h
  values _ hs := by cases hs

/-- Whatever happens, and in whatever order. -/
theorem run (entries : List Entry) : (run entries).Sound := by
  induction entries using List.reverseRecOn with
  | nil => exact start
  | append_singleton entries entry ih =>
    rw [run_append]
    exact ih.step entry

end Sound

/-! ## Returning -/

/-- Of lists that have nothing in common, one holds a given element. -/
theorem existsUnique_place {α : Type} {lists : List (List α)} (hnodup : lists.flatten.Nodup) {a : α}
    (ha : a ∈ lists.flatten) : ∃! place : Nat, ∃ list, lists[place]? = some list ∧ a ∈ list := by
  obtain ⟨list, hlist, hmem⟩ := List.mem_flatten.mp ha
  obtain ⟨place, hplace⟩ := List.mem_iff_getElem?.mp hlist
  refine ⟨place, ⟨list, hplace, hmem⟩, ?_⟩
  rintro place' ⟨list', hplace', hmem'⟩
  obtain ⟨hlt, rfl⟩ := List.getElem?_eq_some_iff.mp hplace
  obtain ⟨hlt', rfl⟩ := List.getElem?_eq_some_iff.mp hplace'
  have hdisjoint := List.pairwise_iff_getElem.mp (List.nodup_flatten.mp hnodup).2
  rcases Nat.lt_trichotomy place' place with h | h | h
  · exact absurd hmem (hdisjoint _ _ hlt' hlt h hmem')
  · exact h
  · exact absurd hmem' (hdisjoint _ _ hlt hlt' h hmem)

@[simp] theorem settlements_step_ended (docket : Docket) (number : Nat) :
    (docket.step (.ended number)).settlements = docket.settlements := by
  rw [step]
  split <;> rfl

@[simp] theorem started_step_ended (docket : Docket) (number : Nat) :
    (docket.step (.ended number)).started = docket.started := by
  rw [step]
  split <;> rfl

/-- The end of a job is written down, and none is forgotten. -/
theorem isSome_step_ended {number another : Nat} (hlt : another < docket.started.length)
    (h : (Assoc.find? another docket.ended).isSome ∨ another = number) :
    (Assoc.find? another (docket.step (.ended number)).ended).isSome := by
  rw [step]
  split
  · rcases h with h | rfl
    · exact Assoc.isSome_find?_put h _ _
    · simp
  · rename_i hnone
    rcases h with h | rfl
    · exact h
    · rw [List.getElem?_eq_none_iff] at hnone
      omega

/-- When jobs end, settlements stay as they are until they look. -/
theorem foldl_ended (docket : Docket) (numbers : List Nat) :
    let after := (numbers.map Entry.ended).foldl step docket
    after.settlements = docket.settlements ∧ ∀ number, number < docket.started.length →
      (Assoc.find? number docket.ended).isSome ∨ number ∈ numbers →
      (Assoc.find? number after.ended).isSome := by
  induction numbers generalizing docket with
  | nil => exact ⟨rfl, fun number _ h => h.resolve_right List.not_mem_nil⟩
  | cons first numbers ih =>
    obtain ⟨hsettlements, hended⟩ := ih (docket.step (.ended first))
    rw [settlements_step_ended] at hsettlements
    rw [started_step_ended] at hended
    refine ⟨hsettlements, fun number hlt h => hended number hlt ?_⟩
    rcases h with h | h
    · exact .inl (isSome_step_ended hlt (.inl h))
    · rcases List.mem_cons.mp h with rfl | h
      · exact .inl (isSome_step_ended hlt (.inr rfl))
      · exact .inr h

/-- A settlement all of whose jobs have ended returns, or has returned, what is waited for when a
page is finished. -/
theorem Sound.resume_eq (h : docket.Sound) {s : Settlement} (hs : s ∈ docket.settlements)
    (hdue : s.isDue docket.ended) :
    s.resume docket.ended = { s with values? := some (Deferrals.finish ⟨s.batch⟩).1 } := by
  unfold Settlement.resume
  cases hvalues : s.values? with
  | none =>
    rw [if_pos ⟨rfl, hdue⟩, settle_eq_finish (h.delivers hs hdue)]
  | some values =>
    rw [if_neg (by simp), ← h.values s hs values hvalues, ← hvalues]

/-- The jobs of a settlement were started. -/
theorem Sound.lt_length_started (h : docket.Sound) {s : Settlement} (hs : s ∈ docket.settlements)
    {place : Nat} (hplace : place < s.batch.length) : s.first + place < docket.started.length :=
  (List.getElem?_eq_some_iff.mp (h.getElem?_started hs hplace)).1

/-- Once its jobs have ended, in whatever order and among whatever others, a settlement returns when
it looks. -/
theorem returns_run {s : Settlement} {place : Nat} (numbers : List Nat)
    (hs : (run entries).settlements[place]? = some s)
    (hnumbers : ∀ number, s.first ≤ number → number < s.first + s.batch.length →
      number ∈ numbers) :
    (run (entries ++ numbers.map Entry.ended ++ [.resumed place])).settlements[place]? =
      some { s with values? := some (Deferrals.finish ⟨s.batch⟩).1 } := by
  have hmem := List.mem_of_getElem? hs
  obtain ⟨hsettlements, hended⟩ := foldl_ended (run entries) numbers
  have hsound := Sound.run (entries ++ numbers.map Entry.ended)
  rw [run_append] at hsound ⊢
  rw [run_append]
  set after := (numbers.map Entry.ended).foldl step (run entries)
  have hmem' : s ∈ after.settlements := hsettlements ▸ hmem
  have hdue : s.isDue after.ended := by
    refine Settlement.isDue_iff.mpr fun i hi => ?_
    have hlt := (Sound.run entries).lt_length_started hmem hi
    exact hended _ hlt (.inr (hnumbers _ (by omega) (by omega)))
  have hstep : (after.step (.resumed place)).settlements =
      after.settlements.modify place (·.resume after.ended) := rfl
  rw [List.foldl_cons, List.foldl_nil, hstep, List.getElem?_modify, hsettlements, hs]
  simp [hsound.resume_eq hmem' hdue]

/-- What is accounted for after a history: which tokens each settlement takes, what it returns, when
it returns, and which tokens wait. -/
structure Accounted (entries : List Entry) : Prop where
  /-- Each settlement takes the tokens given out since the one before was called for, and those
  given out since the last one wait. -/
  batches : (run entries).batches = parts entries
  /-- What a settlement has returned is a value for each of its tokens, that of its own job. -/
  values : ∀ s ∈ (run entries).settlements, ∀ values, s.values? = some values →
    values = s.batch.map Pending.shown
  /-- Every token given out is in the batch of one settlement alone, or waits and is in none. -/
  once : ∀ t ∈ (created entries).map Pending.token, ∃! place : Nat,
    ∃ batch, (run entries).batches[place]? = some batch ∧ t ∈ batch.map Pending.token
  /-- The tokens given out since a settlement was last called for are counted. -/
  count : (run entries).deferrals.count =
    (created (entries.rtakeWhile fun entry => !entry.isCall)).length
  /-- Once its jobs have ended, in whatever order, a settlement returns when it looks. -/
  returns : ∀ (numbers : List Nat) (place : Nat) (s : Settlement),
    (run entries).settlements[place]? = some s →
    (∀ number, s.first ≤ number → number < s.first + s.batch.length → number ∈ numbers) →
    (run (entries ++ numbers.map Entry.ended ++ [.resumed place])).settlements[place]? =
      some { s with values? := some (s.batch.map Pending.shown) }
  /-- If the same tokens are given out and the same settlements called for, the same is returned, in
  whatever order jobs end and settlements look. -/
  order : ∀ other, other.filter Entry.isRequest = entries.filter Entry.isRequest →
    ∀ (place : Nat) (s s' : Settlement), (run entries).settlements[place]? = some s →
    (run other).settlements[place]? = some s' →
    s'.batch = s.batch ∧ (s.values?.isSome → s'.values?.isSome → s'.values? = s.values?)

/-- If no token is given out twice, a batch holds none twice, and so each of its tokens gets the
value of its own job. -/
theorem finish_of_mem_settlements (hnodup : ((created entries).map Pending.token).Nodup)
    {s : Settlement} (hs : s ∈ (run entries).settlements) :
    (Deferrals.finish ⟨s.batch⟩).1 = s.batch.map Pending.shown := by
  have hbatch : s.batch ∈ (run entries).batches :=
    List.mem_append_left _ (List.mem_map_of_mem hs)
  rw [← flatten_parts, ← batches_run, List.map_flatten] at hnodup
  have hnodup' := (List.nodup_flatten.mp hnodup).1 _ (List.mem_map_of_mem hbatch)
  exact settle_eq_shown (delivers_arrivals s.batch) hnodup'

/-- What a settlement has returned is a value for each of its tokens, that of its own job. -/
theorem values_run (hnodup : ((created entries).map Pending.token).Nodup) {s : Settlement}
    (hs : s ∈ (run entries).settlements) {values : TokenValues}
    (hvalues : s.values? = some values) : values = s.batch.map Pending.shown := by
  rw [(Sound.run entries).values s hs values hvalues, finish_of_mem_settlements hnodup hs]

/-- The batch of a settlement stands at the place of the settlement. -/
theorem getElem?_batches {s : Settlement} {place : Nat}
    (hs : docket.settlements[place]? = some s) : docket.batches[place]? = some s.batch := by
  have hlt : place < (docket.settlements.map Settlement.batch).length := by
    rw [List.length_map]
    exact (List.getElem?_eq_some_iff.mp hs).1
  rw [batches, List.getElem?_append_left hlt, List.getElem?_map, hs]
  rfl

/-- Every deferred value is delivered once: whatever tokens are given out, in whatever order their
jobs end and settlements are called for and look, all is accounted for. -/
theorem accounted_run (hnodup : ((created entries).map Pending.token).Nodup) :
    Accounted entries where
  batches := batches_run entries
  values s hs values hvalues := values_run hnodup hs hvalues
  once t ht := by
    rw [← flatten_parts, ← batches_run, List.map_flatten] at hnodup ht
    simpa [List.getElem?_map] using existsUnique_place hnodup ht
  count := by rw [Deferrals.count, pending_run]
  returns numbers place s hs hnumbers := by
    rw [returns_run numbers hs hnumbers,
      finish_of_mem_settlements hnodup (List.mem_of_getElem? hs)]
  order other hother place s s' hs hs' := by
    have hparts : parts other = parts entries := by
      rw [← parts_filter_isRequest other, hother, parts_filter_isRequest]
    have hcreated : created other = created entries := by
      rw [← flatten_parts, hparts, flatten_parts]
    have hbatch : s'.batch = s.batch := by
      have hplace := getElem?_batches hs'
      rw [batches_run, hparts, ← batches_run, getElem?_batches hs] at hplace
      exact (Option.some.inj hplace).symm
    refine ⟨hbatch, fun hsome hsome' => ?_⟩
    obtain ⟨values, hvalues⟩ := Option.isSome_iff_exists.mp hsome
    obtain ⟨values', hvalues'⟩ := Option.isSome_iff_exists.mp hsome'
    have hnodup' : ((created other).map Pending.token).Nodup := hcreated ▸ hnodup
    rw [hvalues, hvalues', values_run hnodup (List.mem_of_getElem? hs) hvalues,
      values_run hnodup' (List.mem_of_getElem? hs') hvalues', hbatch]

/-- A settlement that looks too early, and is overtaken by one that was called for later. -/
theorem accounted_run_overtaken :
    let entries : List Entry := [.given "a" { outcome := .value "1" },
      .given "b" { outcome := .panicked }, .called, .given "c" { outcome := .failed "late" },
      .called, .ended 1, .resumed 0, .ended 2, .resumed 1, .ended 0, .resumed 0,
      .given "d" { outcome := .value "2" }]
    (run entries).settlements.map Settlement.values? =
        [some [("a", "1"), ("b", "")], some [("c", "")]] ∧
      (run entries).deferrals.count = 1 ∧ Accounted entries :=
  ⟨by decide +kernel, by decide +kernel, accounted_run (by decide +kernel)⟩

end Docket
end Views
