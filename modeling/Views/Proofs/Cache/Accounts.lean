import Views.Proofs.Cache.History
import Mathlib.Algebra.Ring.Nat
import Mathlib.Data.List.Dedup
/-!
# A cache counts its look-ups

Each look-up adds one to the hits or to the misses, and the source is asked once for each miss. So
the counters of a cache are the numbers of look-ups of the two kinds since it was last cleared, and
its entries are the identities that were read and compiled since then on behalf of look-ups that
might reuse them (`Cache.Tallies`, `Cache.Tallies.step`). `Cache.Accounts` puts together what
follows for a history of calls (`Cache.accounts_run`).

A look-up that finds nothing asks the source, whatever comes of it: a template that is missing or
does not compile counts as a miss and is no entry, and neither is one that was read for a look-up
that may not reuse it. So the number of misses is the number of questions, while the number of
entries may be less. Clearing sets the counters back as well as the entries, which is why the
accounts speak of the history since the last clear (`recent`).
-/

namespace Views

/-! ## How often templates are asked for -/

namespace Assoc

variable {α : Type} [DecidableEq α]

/-- A number put in the place of another one changes the sum by the difference. -/
theorem sum_put (key : α) (n : Nat) (m : Assoc α Nat) :
    ((put key n m).map Prod.snd).sum + (find? key m).getD 0 = (m.map Prod.snd).sum + n := by
  induction m with
  | nil => simp [put]
  | cons p rest ih =>
    obtain ⟨k, v⟩ := p
    by_cases hk : k = key
    · simp only [put, find?, if_pos hk, List.map_cons, List.sum_cons, Option.getD_some]
      omega
    · simp only [put, find?, if_neg hk, List.map_cons, List.sum_cons]
      omega

/-- A key that is bound already keeps its place among the keys. -/
theorem keys_put {β : Type} {key : α} {value : β} {m : Assoc α β}
    (h : (find? key m).isSome) : (put key value m).keys = m.keys := by
  induction m with
  | nil => cases h
  | cons p rest ih =>
    obtain ⟨k, v⟩ := p
    by_cases hk : k = key
    · simp [put, keys, hk]
    · rw [find?, if_neg hk] at h
      have hrest := ih h
      simp only [keys] at hrest
      simp [put, keys, hk, hrest]

end Assoc

/-- The total is the sum of the counts kept for the single identities. -/
theorem MemorySource.totalFetches_eq_sum (s : MemorySource) :
    s.totalFetches = (s.templateFetches.map Prod.snd).sum := by
  unfold totalFetches
  rw [List.sum_eq_foldl, List.foldl_map]

/-- Counting one template read raises the total by one, whichever template it is. -/
theorem MemorySource.totalFetches_countTemplate (s : MemorySource) (id : TemplateKey) :
    (s.countTemplate id).totalFetches = s.totalFetches + 1 := by
  have hsum := Assoc.sum_put id.text (s.fetchesOf id.text + 1) s.templateFetches
  rw [← fetchesOf] at hsum
  rw [totalFetches_eq_sum, totalFetches_eq_sum, countTemplate]
  dsimp only
  omega

namespace World

/-- How often templates were asked for, if the source counts. -/
def totalFetches? (world : World) : Option Nat :=
  match world.supply with
  | .memory s => some s.totalFetches
  | _ => none

/-- The same of the world a render runs against, where it keeps a count at all. -/
theorem totalFetches?_count_template (world : World) (id : TemplateKey) :
    (world.count (.template id)).totalFetches? = world.totalFetches?.map (· + 1) := by
  obtain ⟨files, supply⟩ := world
  cases supply with
  | memory s => exact congrArg some (s.totalFetches_countTemplate id)
  | keyed | documents | directory => rfl

/-- Other questions are not counted with the templates. -/
theorem totalFetches?_count {question : Question} (h : ∀ id, question ≠ .template id)
    (world : World) : (world.count question).totalFetches? = world.totalFetches? := by
  obtain ⟨files, supply⟩ := world
  cases question with
  | template id => exact absurd rfl (h id)
  | partials => cases supply <;> rfl
  | values batch => cases supply <;> rfl

end World

namespace Cache

variable {records : List Record} {r : Record} {cache : Cache} {id : TemplateKey} {reuse : Bool}
  {world : World}

/-! ## What one call counts -/

/-- What a look-up adds to the counters, and how often the source is asked for templates from the
world before it to the one after it. -/
inductive Record.Counted (r : Record) (before after : World) : Prop where
  /-- A template is found: one hit more, and the source is not asked. -/
  | hit (finds : r.finds = true) (asks : r.asks = false) (hits : r.after.hits = r.before.hits + 1)
      (misses : r.after.misses = r.before.misses)
      (fetches : after.totalFetches? = before.totalFetches?)
  /-- None is found: one miss more, and the source is asked once. -/
  | miss (finds : r.finds = false) (asks : r.asks = true) (hits : r.after.hits = r.before.hits)
      (misses : r.after.misses = r.before.misses + 1)
      (fetches : after.totalFetches? = before.totalFetches?.map (· + 1))

/-- A look-up is either a hit or a miss. -/
theorem counted_obtain (hact : r.act = .obtain world id reuse) :
    r.Counted world (r.before.obtain world id reuse).2.2 := by
  obtain ⟨next, before⟩ := r
  obtain rfl : next = .obtain world id reuse := hact
  rcases before.consult_cases id reuse with ⟨entry, rfl, hget, hconsult⟩ | ⟨hmiss, hconsult⟩
  · have hafter := obtain_of_get? hget world
    apply Record.Counted.hit
    · simp [Record.finds, hconsult]
    · simp [Record.asks, hconsult]
    · simp [Record.after, act, hafter]
    · simp [Record.after, act, hafter]
    · simp [hafter]
  · have hafter := obtain_of_miss hmiss world
    have hkeep : ∀ (cache : Cache) result, (cache.keep id reuse result).hits = cache.hits ∧
        (cache.keep id reuse result).misses = cache.misses := by
      intro cache result
      cases result <;> cases reuse <;> exact ⟨rfl, rfl⟩
    apply Record.Counted.miss
    · simp [Record.finds, hconsult]
    · simp [Record.asks, hconsult]
    · simp [Record.after, act, hafter, hkeep]
    · simp [Record.after, act, hafter, hkeep]
    · simp [hafter, World.totalFetches?_count_template]

/-- Every call but a clear adds to the counters what it is. -/
theorem counters_after (hclear : r.isClear = false) :
    r.after.hits = r.before.hits + [r].countP Record.finds ∧
      r.after.misses = r.before.misses + [r].countP Record.asks := by
  cases hact : r.act with
  | obtain world id reuse =>
    cases counted_obtain hact with
    | hit hfinds hasks hhits hmisses => simp [hfinds, hasks, hhits, hmisses]
    | miss hfinds hasks hhits hmisses => simp [hfinds, hasks, hhits, hmisses]
  | note other layout =>
    have hset : ∀ cache : Cache, (cache.setLayout other layout).hits = cache.hits ∧
        (cache.setLayout other layout).misses = cache.misses := by
      intro cache
      unfold setLayout
      split <;> exact ⟨rfl, rfl⟩
    simp [Record.after, act, hact, Record.finds, Record.asks, hset]
  | clear => simp [Record.isClear, hact] at hclear

/-- Every call but a clear adds the entry of what it has read and compiled, if that may be
reused. -/
theorem keys_after (hclear : r.isClear = false) :
    r.after.entries.keys = r.before.entries.keys ++ r.compiled?.toList := by
  obtain ⟨next, before⟩ := r
  cases next with
  | obtain world id reuse =>
    rcases before.consult_cases id reuse with ⟨entry, rfl, hget, hconsult⟩ | ⟨hmiss, hconsult⟩
    · simp [Record.after, act, obtain_of_get? hget, Record.compiled?, Record.asks, hconsult]
    · have hafter := obtain_of_miss hmiss world
      cases hfetch : world.source.fetch id with
      | error err =>
        simp [Record.after, act, hafter, hfetch, keep, Record.compiled?, Record.succeeds,
          Except.isOk, Except.toBool]
      | ok template =>
        cases reuse with
        | false => simp [Record.after, act, hafter, hfetch, keep, Record.compiled?, Record.sought?]
        | true =>
          have hnew : id ∉ before.entries.map Prod.fst :=
            Assoc.find?_eq_none_iff.mp (hmiss rfl)
          simp [Record.after, act, hafter, hfetch, keep, insert, Record.compiled?, Record.sought?,
            Record.asks, Record.succeeds, hconsult, Except.isOk, Except.toBool,
            Assoc.put_of_notMem hnew, Assoc.keys]
  | note other layout =>
    have hcompiled : Record.compiled? ⟨.note other layout, before⟩ = none := by
      simp [Record.compiled?, Record.asks]
    simp only [Record.after, act, setLayout, hcompiled, Option.toList_none, List.append_nil]
    split
    · rename_i entry hget
      exact Assoc.keys_put (by rw [← get?, hget]; rfl)
    · rfl
  | clear => cases hclear

/-! ## What all calls together count -/

/-- The counters and the entries of a cache are what its history since the last clear says. This is
the invariant of a history: it holds of a new cache, and each act preserves it. -/
structure Tallies (records : List Record) (cache : Cache) : Prop where
  hits : cache.hits = (recent records).countP Record.finds
  misses : cache.misses = (recent records).countP Record.asks
  keys : cache.entries.keys = (recent records).filterMap Record.compiled?

/-- One further act keeps the tally, whether it is answered by the cache or goes to the source. -/
theorem Tallies.step (h : Tallies records r.before) : Tallies (records ++ [r]) r.after := by
  cases hclear : r.isClear with
  | true =>
    have hafter : r.after = {} := by
      obtain ⟨next, before⟩ := r
      cases next with
      | clear => rfl
      | obtain world id reuse => cases hclear
      | note other layout => cases hclear
    refine ⟨?_, ?_, ?_⟩ <;> simp [recent_append, hclear, hafter, Assoc.keys]
  | false =>
    obtain ⟨hhits, hmisses⟩ := counters_after hclear
    have hrecent : recent (records ++ [r]) = recent records ++ [r] := by
      simp [recent_append, hclear]
    refine ⟨?_, ?_, ?_⟩
    · rw [hrecent, List.countP_append, hhits, h.hits]
    · rw [hrecent, List.countP_append, hmisses, h.misses]
    · rw [hrecent, List.filterMap_append, keys_after hclear, h.keys]
      cases hcompiled : r.compiled? <;> simp [hcompiled]

/-- The cache's counters agree with what its own history records, after any acts. -/
theorem tallies_run (acts : List Act) : Tallies (history {} acts) (run {} acts) := by
  induction acts using List.reverseRecOn with
  | nil => exact ⟨rfl, rfl, rfl⟩
  | append_singleton acts next ih =>
    rw [history_concat, run_concat]
    exact ih.step (r := ⟨next, run {} acts⟩)

/-- The cache that a call is made on tallies with the calls before it. -/
theorem tallies_before {acts : List Act} {before after : List Record}
    (h : history {} acts = before ++ r :: after) : Tallies before r.before := by
  induction acts using List.reverseRecOn generalizing after with
  | nil => cases before <;> cases h
  | append_singleton acts next ih =>
    rw [history_concat] at h
    rcases List.eq_nil_or_concat after with rfl | ⟨middle, last, rfl⟩
    · obtain ⟨rfl, hlast⟩ := List.append_inj' h rfl
      cases hlast
      exact tallies_run acts
    · rw [List.concat_eq_append, ← List.cons_append, ← List.append_assoc] at h
      exact ih (List.append_inj' h rfl).1

/-- Calls that do not clear the cache come to those since the last clear. -/
theorem recent_append_list {more : List Record} (h : ∀ r ∈ more, r.isClear = false) :
    recent (records ++ more) = recent records ++ more := by
  induction more using List.reverseRecOn with
  | nil => simp
  | append_singleton more last ih =>
    have hlast : last.isClear = false := h last (by simp)
    rw [← List.append_assoc, recent_append, hlast, if_neg Bool.false_ne_true,
      ih fun r hr => h r (by simp [hr]), List.append_assoc]

/-- What was read and compiled for a look-up that may reuse it is found by all such look-ups up to
the next clear. -/
theorem finds_of_compiled {acts : List Act} {before middle after : List Record} {later : Record}
    (hsplit : history {} acts = before ++ r :: (middle ++ later :: after))
    (hcompiled : r.compiled? = some id) (hclear : ∀ s ∈ middle, s.isClear = false)
    (hsought : later.sought? = some id) : later.finds = true := by
  have hkeep : r.isClear = false := by
    cases hact : r.act with
    | clear => simp [Record.compiled?, Record.sought?, hact] at hcompiled
    | obtain world other reuse => simp [Record.isClear, hact]
    | note other layout => simp [Record.isClear, hact]
  have htallies : Tallies (before ++ r :: middle) later.before :=
    tallies_before (by simpa using hsplit)
  have hmem : id ∈ later.before.entries.keys := by
    rw [htallies.keys, recent_append_list (List.forall_mem_cons.mpr ⟨hkeep, hclear⟩)]
    exact List.mem_filterMap.mpr ⟨r, by simp, hcompiled⟩
  have hfound : later.before.get? id ≠ none := fun hnone =>
    Assoc.find?_eq_none_iff.mp hnone hmem
  obtain ⟨entry, hget⟩ := Option.ne_none_iff_exists'.mp hfound
  obtain ⟨next, cache⟩ := later
  cases next with
  | obtain world other reuse =>
    cases reuse with
    | true =>
      obtain rfl : other = id := by simpa [Record.sought?] using hsought
      simp [Record.finds, consult, show cache.get? other = some entry from hget]
    | false => simp [Record.sought?] at hsought
  | note other layout => simp [Record.sought?] at hsought
  | clear => simp [Record.sought?] at hsought

/-! ## Accounts -/

/-- How a cache and a source that counts account for a history of calls. Counters and entries speak
of what was done since the last clear; the source counts for good. -/
structure Accounts (records : List Record) (cache : Cache) : Prop where
  /-- Each look-up is a hit or a miss, and is counted as such by cache and source. -/
  lookup : ∀ r ∈ records, ∀ {world id reuse}, r.act = .obtain world id reuse →
    r.Counted world (r.before.obtain world id reuse).2.2
  /-- A clear puts both counters to zero. -/
  clear : ∀ r ∈ records, r.isClear = true → r.after.hits = 0 ∧ r.after.misses = 0
  /-- The counters are the numbers of look-ups of the two kinds since the last clear. -/
  hits : cache.hits = (recent records).countP Record.finds
  misses : cache.misses = (recent records).countP Record.asks
  /-- Once a source was asked for and compiled for a look-up that may reuse it, no such look-up of
  the same identity asks again before the next clear. -/
  once : ∀ {before r middle later after id},
    records = before ++ r :: (middle ++ later :: after) → r.compiled? = some id →
      (∀ s ∈ middle, s.isClear = false) → later.sought? = some id → later.asks = false
  /-- There are as many entries as identities that were asked for and compiled since the last clear,
  for look-ups that may reuse them. -/
  size : cache.size = ((recent records).filterMap Record.compiled?).dedup.length

/-- A cache accounts for every history of calls. -/
theorem accounts_run (acts : List Act) : Accounts (history {} acts) (run {} acts) := by
  have htallies := tallies_run acts
  refine ⟨fun r _ world id reuse hact => counted_obtain hact, ?_, htallies.hits, htallies.misses,
    ?_, ?_⟩
  · intro r _ hclear
    obtain ⟨next, before⟩ := r
    cases next with
    | clear => exact ⟨rfl, rfl⟩
    | obtain world id reuse => cases hclear
    | note other layout => cases hclear
  · intro before r middle later after id hsplit hcompiled hclear hsought
    have hfinds := finds_of_compiled hsplit hcompiled hclear hsought
    cases hact : later.act with
    | obtain world other reuse =>
      cases counted_obtain hact with
      | hit _ hasks => exact hasks
      | miss hnone =>
        rw [hfinds] at hnone
        cases hnone
    | note other layout => simp [Record.asks, hact]
    | clear => simp [Record.asks, hact]
  · rw [← htallies.keys, (nodup_keys_run acts).dedup, Assoc.keys, List.length_map]
    rfl

end Cache
end Views
