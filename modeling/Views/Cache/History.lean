import Views.World
/-!
# What was done with a cache

A cache serves look-ups, notes the layouts of its templates and is cleared. Its history is the list
of these calls, each with the cache as it was before the call. A look-up comes with the world as it
is then, so that between two look-ups the source may change in any way, or fail.
-/

namespace Views.Cache

/-- A call on a cache. -/
inductive Act where
  | obtain (world : World) (id : TemplateKey) (reuse : Bool)
  | note (id : TemplateKey) (layout : LoadedTemplate)
  | clear

/-- The cache after a call. -/
def act (cache : Cache) : Act → Cache
  | .obtain world id reuse => (cache.obtain world id reuse).2.1
  | .note id layout => cache.setLayout id layout
  | .clear => {}

/-- The cache after one call after the other. -/
def run (cache : Cache) (acts : List Act) : Cache := acts.foldl act cache

/-- A call with the cache that it was made on. -/
structure Record where
  act : Act
  before : Cache

/-- The calls with the caches that they are made on, in turn. -/
def history (cache : Cache) : List Act → List Record
  | [] => []
  | next :: rest => ⟨next, cache⟩ :: history (cache.act next) rest

namespace Record

/-- The cache after the call. -/
def after (r : Record) : Cache := r.before.act r.act

/-- Whether the cache was cleared. -/
def isClear (r : Record) : Bool :=
  match r.act with
  | .clear => true
  | _ => false

/-- The identity that was looked up, by a look-up that might reuse what is kept. -/
def sought? (r : Record) : Option TemplateKey :=
  match r.act with
  | .obtain _ id true => some id
  | _ => none

/-- Whether the call was a look-up that found a template. -/
def finds (r : Record) : Bool :=
  match r.act with
  | .obtain _ id reuse => (r.before.consult id reuse).1.isSome
  | _ => false

/-- Whether the call was a look-up that found none, so that the source was asked. -/
def asks (r : Record) : Bool :=
  match r.act with
  | .obtain _ id reuse => (r.before.consult id reuse).1.isNone
  | _ => false

/-- Whether the call was a look-up that gave a template. -/
def succeeds (r : Record) : Bool :=
  match r.act with
  | .obtain world id reuse => (r.before.obtain world id reuse).1.isOk
  | _ => false

/-- Whether the call was a look-up of an identity that might reuse what is kept and gave a
template. -/
def brings (id : TemplateKey) (r : Record) : Bool := r.sought? = some id ∧ r.succeeds

/-- The identity whose source was asked for and compiled, by a look-up that might reuse what is
kept. -/
def compiled? (r : Record) : Option TemplateKey := if r.asks ∧ r.succeeds then r.sought? else none

/-- The layout that was noted for an identity. -/
def noted? (id : TemplateKey) (r : Record) : Option LoadedTemplate :=
  match r.act with
  | .note other layout => if other = id then some layout else none
  | _ => none

end Record

/-- The calls since the cache was last cleared. -/
def recent (records : List Record) : List Record :=
  (records.reverse.takeWhile fun r => !r.isClear).reverse

/-- The first successful look-up of an identity since the cache was last cleared, among those that
might reuse what is kept. -/
def origin? (id : TemplateKey) (records : List Record) : Option Record :=
  (recent records).find? (Record.brings id)

/-- The calls since then, that look-up included. -/
def since (id : TemplateKey) (records : List Record) : List Record :=
  (recent records).dropWhile fun r => !r.brings id

/-- The last layout that was noted for an identity since then. -/
def note? (id : TemplateKey) (records : List Record) : Option LoadedTemplate :=
  (since id records).reverse.findSome? (Record.noted? id)

end Views.Cache
