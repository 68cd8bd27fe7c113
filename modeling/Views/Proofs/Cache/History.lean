import Views.Cache.History
import Views.Proofs.Cache
import Mathlib.Data.List.Induction
import Mathlib.Data.List.TakeWhile
/-!
# A cache gives what its history says

What a cache gives for an identity is not what its source has, but what the source had when the
first successful look-up since the last clear read it. `Cache.Remembers` says so of one identity:
there is an entry just if there was such a look-up, with the template that it compiled and the last
layout noted since. One more call of any kind preserves it (`Cache.Remembers.step`), so it holds
after all of them (`Cache.remembers_run`), and what a look-up does next can be read off the history
(`Cache.recalls_run`).

* A second look-up that may reuse what is kept finds what the first one put in, whatever the source
  has by then.
* A look-up that may not reuse anything changes no entry, and gives what the source has.
* Noting a layout for an identity that is not kept does nothing; else the last note counts.
* Clearing forgets all of it, and no entry outlives it.

These are the clauses of `Cache.Recalls`. They are about one cache whose calls come one after the
other; what happens when several renders share it is the subject of the modules on engines.
-/

namespace Views

@[simp] theorem World.source_count (world : World) (question : Question) :
    (world.count question).source = world.source := by
  obtain ⟨files, supply⟩ := world
  cases supply <;> cases question <;> rfl

namespace Cache

variable {cache : Cache} {id other : TemplateKey} {reuse : Bool}

/-! ## What a look-up does -/

/-- The cache once a template was read, if it could be: it is kept if it may be reused. -/
def keep (cache : Cache) (id : TemplateKey) (reuse : Bool)
    (result : Except ViewError LoadedTemplate) : Cache :=
  match result with
  | .ok template => if reuse then cache.insert id template else cache
  | .error _ => cache

/-- A look-up that finds an entry asks nothing. -/
theorem obtain_of_get? {entry : Entry} (h : cache.get? id = some entry) (world : World) :
    cache.obtain world id true =
      (.ok entry.template, { cache with hits := cache.hits + 1 }, world) := by
  simp [obtain, consult, h]

/-- A look-up that finds nothing, or may not reuse it, gives what the source has now. -/
theorem obtain_of_miss (h : reuse = true → cache.get? id = none) (world : World) :
    cache.obtain world id reuse =
      (world.source.fetch id,
        { cache with misses := cache.misses + 1 }.keep id reuse (world.source.fetch id),
        world.count (.template id)) := by
  have hmiss : (if reuse = true then cache.get? id else none) = none := by
    by_cases hreuse : reuse = true
    · rw [if_pos hreuse, h hreuse]
    · rw [if_neg hreuse]
  have hanswer : (world.count (.template id)).answer (.template id) = world.source.template id :=
    congrArg (Source.template · id) (world.source_count _)
  simp only [obtain, consult, hmiss, World.reply, hanswer, receive, Source.fetch]
  cases world.source.template id with
  | error e => rfl
  | ok text =>
    dsimp only
    cases LoadedTemplate.compile id text <;> rfl

/-- A look-up finds an entry that may be reused, or gives what the source has now. -/
theorem obtain_cases (cache : Cache) (world : World) (id : TemplateKey) (reuse : Bool) :
    (∃ entry, reuse = true ∧ cache.get? id = some entry ∧ cache.obtain world id reuse =
      (.ok entry.template, { cache with hits := cache.hits + 1 }, world)) ∨
    (reuse = true → cache.get? id = none) ∧ cache.obtain world id reuse =
      (world.source.fetch id,
        { cache with misses := cache.misses + 1 }.keep id reuse (world.source.fetch id),
        world.count (.template id)) := by
  by_cases hmiss : reuse = true → cache.get? id = none
  · exact .inr ⟨hmiss, obtain_of_miss hmiss world⟩
  · obtain ⟨rfl, hfound⟩ := Classical.not_imp.mp hmiss
    obtain ⟨entry, hget⟩ := Option.ne_none_iff_exists'.mp hfound
    exact .inl ⟨entry, rfl, hget, obtain_of_get? hget world⟩

/-- A template that is not to be kept is fetched, and one more miss is counted. -/
theorem obtain_false (cache : Cache) (world : World) (id : TemplateKey) :
    cache.obtain world id false = (world.source.fetch id,
      { cache with misses := cache.misses + 1 }, world.count (.template id)) := by
  rw [obtain_of_miss (by simp)]
  cases world.source.fetch id <;> rfl

/-! ## Histories, one call at a time -/

variable {records : List Record} {r : Record}

/-- The history of acts goes on with that of the acts after them. -/
theorem history_append (cache : Cache) (acts more : List Act) :
    history cache (acts ++ more) = history cache acts ++ history (cache.run acts) more := by
  induction acts generalizing cache with
  | nil => rfl
  | cons first rest ih => simp [history, run, ih]

/-- One more act is recorded with the cache that it is done to. -/
theorem history_concat (cache : Cache) (acts : List Act) (next : Act) :
    history cache (acts ++ [next]) = history cache acts ++ [⟨next, cache.run acts⟩] :=
  history_append cache acts [next]

/-- Acts are done one after the other. -/
theorem run_append (cache : Cache) (acts more : List Act) :
    cache.run (acts ++ more) = (cache.run acts).run more :=
  List.foldl_append

theorem run_concat (cache : Cache) (acts : List Act) (next : Act) :
    cache.run (acts ++ [next]) = (cache.run acts).act next :=
  run_append cache acts [next]

/-- One more act is recent, and the only recent ones are those since the cache was cleared. -/
theorem recent_append (records : List Record) (r : Record) :
    recent (records ++ [r]) = if r.isClear then [] else recent records ++ [r] := by
  unfold recent
  rw [List.reverse_append, List.reverse_singleton, List.singleton_append, List.takeWhile_cons]
  cases r.isClear <;> simp

/-- The origin of an entry is the first of the acts since it came about. -/
theorem origin?_eq_head? (id : TemplateKey) (records : List Record) :
    origin? id records = (since id records).head? := by
  unfold origin? since
  rw [List.find?_eq_head?_dropWhile_not]

theorem since_eq_nil : since id records = [] ↔ origin? id records = none := by
  rw [origin?_eq_head?, List.head?_eq_none_iff]

/-- Clearing the cache ends them. -/
theorem since_append_of_isClear (h : r.isClear = true) : since id (records ++ [r]) = [] := by
  simp [since, recent_append, h]

/-- Before there is a template of the identity, calls do not count; after that, all do. -/
theorem since_append (h : r.isClear = false) :
    since id (records ++ [r]) =
      if since id records = [] ∧ r.brings id = false then [] else since id records ++ [r] := by
  unfold since
  rw [recent_append, h, if_neg Bool.false_ne_true, List.dropWhile_append]
  simp only [List.isEmpty_iff]
  split
  · rename_i hnil
    cases hbrings : r.brings id <;> simp [hnil, hbrings]
  · rename_i hsome
    rw [if_neg (fun hnone => hsome hnone.1)]

/-- After that nothing has an origin. -/
theorem origin?_append_of_isClear (h : r.isClear = true) : origin? id (records ++ [r]) = none :=
  since_eq_nil.mp (since_append_of_isClear h)

/-- Any other act is one more since the origin. -/
theorem since_append_of_some {first : Record} (hfirst : origin? id records = some first)
    (hclear : r.isClear = false) : since id (records ++ [r]) = since id records ++ [r] := by
  rw [since_append hclear, if_neg]
  rintro ⟨hnil, -⟩
  rw [since_eq_nil.mp hnil] at hfirst
  cases hfirst

/-- The first look-up that brought a template stays the first. -/
theorem origin?_append_of_some {first : Record} (hfirst : origin? id records = some first)
    (hclear : r.isClear = false) : origin? id (records ++ [r]) = some first := by
  rw [origin?_eq_head?] at hfirst ⊢
  rw [since_append_of_some (origin?_eq_head? id records ▸ hfirst) hclear, List.head?_append, hfirst]
  rfl

/-- The last layout that was noted is that of the call, or else stays the last. -/
theorem note?_append_of_some {first : Record} (hfirst : origin? id records = some first)
    (hclear : r.isClear = false) :
    note? id (records ++ [r]) = (r.noted? id).or (note? id records) := by
  unfold note?
  rw [since_append_of_some hfirst hclear, List.reverse_append]
  cases hnoted : r.noted? id <;> simp [hnoted]

/-- As long as no look-up has brought a template, the next one that does is the first. -/
theorem since_append_of_none (hnone : origin? id records = none) (hclear : r.isClear = false) :
    since id (records ++ [r]) = if r.brings id then [r] else [] := by
  rw [since_append hclear, since_eq_nil.mpr hnone]
  cases r.brings id <;> simp

/-! ## One call more -/

/-- Only the look-up of an identity touches its entry. -/
theorem get?_obtain_of_ne (h : id ≠ other) (world : World) :
    (cache.obtain world other reuse).2.1.get? id = cache.get? id := by
  rcases cache.obtain_cases world other reuse with ⟨entry, -, -, hafter⟩ | ⟨-, hafter⟩
  · rw [hafter]
    rfl
  · rw [hafter]
    dsimp only [keep]
    split
    · split
      · exact get?_insert_of_ne h
      · rfl
    · rfl

/-- No look-up touches an entry that is there. -/
theorem get?_obtain_of_some {entry : Entry} (h : cache.get? id = some entry) (world : World) :
    (cache.obtain world other reuse).2.1.get? id = some entry := by
  by_cases hother : id = other
  · subst hother
    cases reuse with
    | true =>
      rw [obtain_of_get? h]
      exact h
    | false =>
      rw [obtain_false]
      exact h
  · rw [get?_obtain_of_ne hother, h]

/-- An entry stays until the cache is cleared, with the last layout that is noted. -/
theorem get?_after_of_some {entry : Entry} (hget : r.before.get? id = some entry)
    (hclear : r.isClear = false) :
    r.after.get? id = some { entry with layout := (r.noted? id).or entry.layout } := by
  obtain ⟨next, before⟩ := r
  cases next with
  | obtain world other reuse => exact get?_obtain_of_some hget world
  | note other layout =>
    by_cases hother : other = id
    · subst hother
      have hset : (before.setLayout other layout).get? other = _ := get?_setLayout_self
      rw [hget] at hset
      simpa [Record.after, act, Record.noted?] using hset
    · have hset : (before.setLayout other layout).get? id = _ :=
        get?_setLayout_of_ne (Ne.symm hother)
      rw [hget] at hset
      simpa [Record.after, act, Record.noted?, hother] using hset
  | clear => cases hclear

/-- Where there is no entry, a call brings none unless it is a look-up that succeeds and may be
reused. -/
theorem get?_after_of_none (hget : r.before.get? id = none) (hbrings : r.brings id = false) :
    r.after.get? id = none := by
  obtain ⟨next, before⟩ := r
  cases next with
  | obtain world other reuse =>
    by_cases hother : id = other
    · subst hother
      cases reuse with
      | true =>
        have hmiss := obtain_of_miss (fun _ : true = true => hget) world
        cases hfetch : world.source.fetch id with
        | ok template =>
          simp [Record.brings, Record.sought?, Record.succeeds, hmiss, hfetch, Except.isOk,
            Except.toBool] at hbrings
        | error err =>
          simp only [Record.after, act, hmiss, hfetch, keep]
          exact hget
      | false =>
        simp only [Record.after, act, obtain_false]
        exact hget
    · simp only [Record.after, act, get?_obtain_of_ne hother]
      exact hget
  | note other layout =>
    by_cases hother : id = other
    · subst hother
      simp only [Record.after, act, get?_setLayout_self]
      rw [hget]
      rfl
    · simp only [Record.after, act, get?_setLayout_of_ne hother]
      exact hget
  | clear => rfl

/-- A look-up that brings the first template of an identity reads it from the source, compiles it
and keeps it. -/
theorem get?_after_of_brings (hget : r.before.get? id = none) (hbrings : r.brings id = true) :
    ∃ world template, r.act = .obtain world id true ∧ world.source.fetch id = .ok template ∧
      r.after.get? id = some { template, layout := none } := by
  obtain ⟨next, before⟩ := r
  cases next with
  | obtain world other reuse =>
    cases reuse with
    | true =>
      simp only [Record.brings, Record.sought?, Option.some.injEq, Bool.decide_and,
        Bool.and_eq_true, decide_eq_true_eq] at hbrings
      obtain ⟨rfl, hok⟩ := hbrings
      have hmiss := obtain_of_miss (fun _ : true = true => hget) world
      cases hfetch : world.source.fetch other with
      | ok template =>
        refine ⟨world, template, rfl, hfetch, ?_⟩
        simp only [Record.after, act, hmiss, hfetch, keep]
        exact get?_insert_self
      | error err => simp [Record.succeeds, hmiss, hfetch, Except.isOk, Except.toBool] at hok
    | false => simp [Record.brings, Record.sought?] at hbrings
  | note other layout => simp [Record.brings, Record.sought?] at hbrings
  | clear => simp [Record.brings, Record.sought?] at hbrings

/-- What a cache has of an identity is what its history says: nothing, if no look-up since the last
clear has read it, and else the template that the first one compiled, with the last layout noted
since. -/
structure Remembers (id : TemplateKey) (records : List Record) (cache : Cache) : Prop where
  absent : origin? id records = none → cache.get? id = none
  kept : ∀ {first}, origin? id records = some first → ∃ world template,
    first.act = .obtain world id true ∧ world.source.fetch id = .ok template ∧
      cache.get? id = some { template, layout := note? id records }

/-- A cache remembers nothing where there is no origin and no entry. -/
theorem Remembers.of_absent (horigin : origin? id records = none) (hget : cache.get? id = none) :
    Remembers id records cache where
  absent _ := hget
  kept hfirst := by
    rw [horigin] at hfirst
    cases hfirst

/-- It remembers what the origin has fetched, with the layout that was noted last. -/
theorem Remembers.of_kept {first : Record} {world : World} {template : LoadedTemplate}
    (horigin : origin? id records = some first) (hact : first.act = .obtain world id true)
    (hfetch : world.source.fetch id = .ok template)
    (hget : cache.get? id = some { template, layout := note? id records }) :
    Remembers id records cache where
  absent hnone := by
    rw [horigin] at hnone
    cases hnone
  kept hfirst := by
    rw [horigin] at hfirst
    cases hfirst
    exact ⟨world, template, hact, hfetch, hget⟩

/-- One more call of any kind. -/
theorem Remembers.step (h : Remembers id records r.before) :
    Remembers id (records ++ [r]) r.after := by
  cases hclear : r.isClear with
  | true =>
    refine .of_absent (origin?_append_of_isClear hclear) ?_
    obtain ⟨next, before⟩ := r
    cases next with
    | clear => rfl
    | obtain world other reuse => cases hclear
    | note other layout => cases hclear
  | false =>
    cases horigin : origin? id records with
    | some first =>
      obtain ⟨world, template, hact, hfetch, hget⟩ := h.kept horigin
      have hafter := get?_after_of_some hget hclear
      rw [← note?_append_of_some horigin hclear] at hafter
      exact .of_kept (origin?_append_of_some horigin hclear) hact hfetch hafter
    | none =>
      have hget := h.absent horigin
      have hsince := since_append_of_none horigin hclear
      have horigin' := origin?_eq_head? id (records ++ [r])
      rw [hsince] at horigin'
      cases hbrings : r.brings id with
      | true =>
        rw [hbrings] at hsince horigin'
        obtain ⟨world, template, hact, hfetch, hafter⟩ := get?_after_of_brings hget hbrings
        have hnote : note? id (records ++ [r]) = none := by
          simp [note?, hsince, Record.noted?, hact]
        rw [← hnote] at hafter
        exact .of_kept horigin' hact hfetch hafter
      | false =>
        rw [hbrings] at horigin'
        exact .of_absent horigin' (get?_after_of_none hget hbrings)

/-- After all calls a cache that was empty at first has of every identity what its history says. -/
theorem remembers_run (acts : List Act) (id : TemplateKey) :
    Remembers id (history {} acts) (run {} acts) := by
  induction acts using List.reverseRecOn with
  | nil => exact ⟨fun _ => rfl, fun hfirst => by cases hfirst⟩
  | append_singleton acts next ih =>
    rw [history_concat, run_concat]
    exact ih.step (r := ⟨next, run {} acts⟩)

/-- No identity has two entries. -/
theorem nodup_keys_act (h : cache.entries.keys.Nodup) (next : Act) :
    (cache.act next).entries.keys.Nodup := by
  cases next with
  | obtain world other reuse =>
    rcases cache.obtain_cases world other reuse with ⟨entry, -, -, hafter⟩ | ⟨-, hafter⟩
    · simp only [act, hafter]
      exact h
    · simp only [act, hafter, keep]
      split
      · split
        · exact Assoc.nodup_keys_put h other _
        · exact h
      · exact h
  | note other layout =>
    simp only [act, setLayout]
    split
    · exact Assoc.nodup_keys_put h other _
    · exact h
  | clear => exact List.nodup_nil

/-- Each identity has one entry. -/
theorem nodup_keys_run (acts : List Act) : (run {} acts).entries.keys.Nodup := by
  induction acts using List.reverseRecOn with
  | nil => exact List.nodup_nil
  | append_singleton acts next ih =>
    rw [run_concat]
    exact nodup_keys_act ih next

/-! ## What a look-up gives -/

/-- What a cache gives and keeps, read off its history. -/
structure Recalls (records : List Record) (cache : Cache) : Prop where
  /-- A look-up that may reuse what is kept gives what the first successful one since the last
  clear read and compiled, whatever the source has now, and asks nothing. -/
  found : ∀ {id first}, origin? id records = some first → ∃ world template,
    first.act = .obtain world id true ∧ world.source.fetch id = .ok template ∧
      ∀ now, cache.obtain now id true =
        (.ok template, { cache with hits := cache.hits + 1 }, now)
  /-- If there was none, it gives what the source has now. -/
  missed : ∀ {id}, origin? id records = none → ∀ now,
    (cache.obtain now id true).1 = now.source.fetch id ∧
      (cache.obtain now id true).2.2 = now.count (.template id)
  /-- So does a look-up that may not reuse anything. -/
  uncached : ∀ id now, (cache.obtain now id false).1 = now.source.fetch id ∧
    (cache.obtain now id false).2.2 = now.count (.template id)
  /-- A look-up that may not reuse anything, or that fails, leaves all entries as they are. -/
  unchanged : ∀ id now reuse,
    reuse = false ∨ (∃ err, (cache.obtain now id reuse).1 = .error err) →
      (cache.obtain now id reuse).2.1.entries = cache.entries
  /-- A look-up that reads and compiles a template adds its entry, with no layout noted, and leaves
  all others as they are. -/
  added : ∀ {id}, origin? id records = none → ∀ now template,
    (cache.obtain now id true).1 = .ok template →
      (cache.obtain now id true).2.1.entries =
        cache.entries ++ [(id, { template, layout := none })]
  /-- An entry has the template of its identity. -/
  identity : ∀ p ∈ cache.entries, p.2.template.id = p.1
  /-- The layout noted is the last one that was noted since the entry was made. -/
  layout : ∀ id, cache.layoutOf id = note? id records

/-- Entries are left alone where nothing is to be kept, and where nothing could be had. -/
theorem unchanged_obtain (world : World)
    (h : reuse = false ∨ ∃ err, (cache.obtain world id reuse).1 = .error err) :
    (cache.obtain world id reuse).2.1.entries = cache.entries := by
  rcases cache.obtain_cases world id reuse with ⟨entry, -, -, hafter⟩ | ⟨-, hafter⟩
  · rw [hafter]
  · rw [hafter] at h ⊢
    rcases h with rfl | ⟨err, hfetch⟩
    · cases world.source.fetch id <;> rfl
    · rw [show world.source.fetch id = .error err from hfetch]
      rfl

/-- One entry is added where something was asked for and could be had. -/
theorem added_obtain (h : cache.get? id = none) {world : World} {template : LoadedTemplate}
    (hresult : (cache.obtain world id true).1 = .ok template) :
    (cache.obtain world id true).2.1.entries =
      cache.entries ++ [(id, { template, layout := none })] := by
  rw [obtain_of_miss (fun _ => h)] at hresult ⊢
  rw [show world.source.fetch id = .ok template from hresult]
  exact Assoc.put_of_notMem (Assoc.find?_eq_none_iff.mp h) _

/-- Whatever calls were made on a cache, with whatever sources, it gives and keeps what its history
says. -/
theorem recalls_run (acts : List Act) : Recalls (history {} acts) (run {} acts) := by
  have hremembers := remembers_run acts
  refine ⟨?_, ?_, ?_, ?_, ?_, ?_, ?_⟩
  · intro id first hfirst
    obtain ⟨world, template, hact, hfetch, hget⟩ := (hremembers id).kept hfirst
    exact ⟨world, template, hact, hfetch, obtain_of_get? hget⟩
  · intro id hnone now
    rw [obtain_of_miss fun _ => (hremembers id).absent hnone]
    exact ⟨rfl, rfl⟩
  · intro id now
    rw [obtain_false]
    exact ⟨rfl, rfl⟩
  · intro id now reuse h
    exact unchanged_obtain now h
  · intro id hnone now template hresult
    exact added_obtain ((hremembers id).absent hnone) hresult
  · rintro ⟨id, entry⟩ hmem
    have hget := Assoc.find?_of_mem_nodup hmem (nodup_keys_run acts)
    cases hfirst : origin? id (history {} acts) with
    | none =>
      rw [← get?, (hremembers id).absent hfirst] at hget
      cases hget
    | some first =>
      obtain ⟨world, template, -, hfetch, hkept⟩ := (hremembers id).kept hfirst
      rw [← get?, hkept] at hget
      cases hget
      exact Source.id_of_fetch hfetch
  · intro id
    cases hfirst : origin? id (history {} acts) with
    | none =>
      have hnote : note? id (history {} acts) = none := by
        simp [note?, since_eq_nil.mpr hfirst]
      rw [layoutOf, (hremembers id).absent hfirst, hnote]
      rfl
    | some first =>
      obtain ⟨world, template, -, -, hget⟩ := (hremembers id).kept hfirst
      rw [layoutOf, hget]
      rfl

end Cache
end Views
