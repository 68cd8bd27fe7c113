import Views.Engine.Session
import Views.Proofs.Cache.Accounts
import Views.Proofs.Engine.Course
/-!
# The look-ups of renders are accounted for

A render calls on the cache where it reads the default layout, the view and the layout, unless the
default layout is kept in its own place or the layout is noted with the view. `Course.acts` lists
these calls as a render goes on, and `Session.acts` those of a whole session. What a session leaves
of the cache is what these calls make of it, and its source was asked for templates as often as
they are misses (`Session.leads_run`); so all that holds of histories of calls holds of sessions
(`Session.lookups_accounted`).

* A part that spares the source (`Rendering.Spares`) makes no calls: rendering, waiting for values
  and registering partials are of this kind.
* **Uncached renders** count as well: a look-up that may reuse nothing is a miss each time.
* **Outages**: a source that cannot be reached is asked all the same, and the miss counts.
* A default layout that is kept in its own place is no look-up, and neither is a layout that is
  noted with its view; this is what `Session.acts` leaves out.

Sessions may change what the source has, and forget at any time, as long as they leave the counter
of the source alone (`Deed.KeepsCount`).
-/

namespace Views

/-! ## From calls to caches and sources -/

/-- What calls on a cache lead to: the cache that they make of it, and a source that was asked for
templates as often as they are misses. -/
structure Cache.Leads (acts : List Cache.Act) (cache : Cache) (world : World) (cache' : Cache)
    (world' : World) : Prop where
  cache_eq : cache' = cache.run acts
  fetches : world'.totalFetches? =
    world.totalFetches?.map (· + (Cache.history cache acts).countP Cache.Record.asks)

namespace Cache.Leads

variable {cache cache' cache'' : Cache} {world world' world'' : World} {acts more : List Cache.Act}

/-- A step that leaves the cache and the count of reads as they were leads from one state to the
other by no act at all. -/
theorem quiet (hcache : cache' = cache) (hfetches : world'.totalFetches? = world.totalFetches?) :
    Leads [] cache world cache' world' where
  cache_eq := hcache
  fetches := by simp [history, hfetches]

/-- The acts of two steps in a row are the acts of the first and then those of the second. -/
theorem append (h : Leads acts cache world cache' world')
    (h' : Leads more cache' world' cache'' world'') :
    Leads (acts ++ more) cache world cache'' world'' where
  cache_eq := by rw [run_append, ← h.cache_eq, h'.cache_eq]
  fetches := by
    rw [h'.fetches, h.fetches, h.cache_eq, history_append, List.countP_append, Option.map_map]
    refine congrArg (Option.map · _) (funext fun n => ?_)
    exact Nat.add_assoc ..

/-- A look-up leads where it leads, and asks the source if it is a miss. -/
theorem obtain (cache : Cache) (world : World) (id : TemplateKey) (reuse : Bool) :
    Leads [.obtain world id reuse] cache world (cache.obtain world id reuse).2.1
      (cache.obtain world id reuse).2.2 where
  cache_eq := rfl
  fetches := by
    cases counted_obtain (r := ⟨.obtain world id reuse, cache⟩) rfl with
    | hit _ hasks _ _ hfetches => simp [history, hasks, hfetches]
    | miss _ hasks _ _ hfetches => simp [history, hasks, hfetches]

/-- Emptying the cache is the one act `clear`, and reads nothing. -/
theorem clear (cache : Cache) (world : World) : Leads [.clear] cache world {} world where
  cache_eq := rfl
  fetches := by simp [history, Record.asks]

/-- Writing a layout beside a kept template is the one act `note`, and reads nothing. -/
theorem note (cache : Cache) (world : World) (id : TemplateKey) (layout : LoadedTemplate) :
    Leads [.note id layout] cache world (cache.setLayout id layout) world where
  cache_eq := rfl
  fetches := by simp [history, Record.asks]

end Cache.Leads

/-! ## The calls of a render -/

section calls

variable (name : String) (request : Request) (e : Engine) (world : World)

/-- The calls on the cache when the default layout is read. -/
def Engine.standardActs : List Cache.Act :=
  match e.settings.defaultLayout with
  | some layout =>
    if request.reuse && e.defaultLayout.isSome then []
    else [.obtain world (e.keyOf layout) request.reuse]
  | none => []

/-- The calls on the cache when a layout that the directive of a template names is read: it is
looked up, and noted once it was found. -/
def Engine.directiveActs (template : LoadedTemplate) (layout : String) : List Cache.Act :=
  let id := .resolve template.id.directory layout e.settings.extname
  .obtain world id request.reuse ::
    match request.reuse, (e.cache.obtain world id request.reuse).1 with
    | true, .ok found => [.note template.id found]
    | _, _ => []

/-- The calls on the cache when the layout for a template is found. -/
def Engine.layoutActs (template : LoadedTemplate) : List Cache.Act :=
  if request.reuse && (e.cache.layoutOf template.id).isSome then []
  else match Directive.find? template.source, request.layout with
    | some layout, _ => e.directiveActs request world template layout
    | none, .named layout =>
      [.obtain world (.resolve template.id.directory layout e.settings.extname) request.reuse]
    | none, _ => []

/-- The calls on the cache in a part of a render that begins in some engine and world. -/
def Phase.acts (subject : Option LoadedTemplate) : Phase → List Cache.Act
  | .standard => e.standardActs request world
  | .view => [.obtain world (e.keyOf name) request.reuse]
  | .layout => match subject with
    | some template => e.layoutActs request world template
    | none => []
  | .partials | .body | .page => []

/-- The calls on the cache in a course, up to a part that fails. -/
def Course.acts {α : Type} : Course α → Engine → World → List Cache.Act
  | done _, _, _ => []
  | next part rest, e, world => part.phase.acts name request e world part.subject ++
    match part.rendering.run.run World.reply e world with
    | (.ok b, e', world') => (rest b).acts e' world'
    | (.error _, _, _) => []

end calls

/-- The calls on the cache when one thing is done in a session. -/
def Deed.acts (session : Session World) : Deed World → List Cache.Act
  | .render name request arrangement =>
    (Engine.course arrangement name request session.engine).acts name request session.engine
      session.world
  | .forget => [.clear]
  | .addHelper .. | .addPartial .. | .change _ => []

/-- What is done does not change how often the source was asked for templates, unless by asking it:
a source may be changed or fail, but goes on counting. -/
def Deed.KeepsCount : Deed World → Prop
  | .change f => ∀ world, (f world).totalFetches? = world.totalFetches?
  | .render .. | .addHelper .. | .addPartial .. | .forget => True

/-- The calls on the cache in a session. -/
def Session.acts (session : Session World) : List (Deed World) → List Cache.Act
  | [] => []
  | deed :: rest => deed.acts session ++ (session.step World.reply deed).acts rest

/-! ## Parts that call on the cache -/

section parts

open Engine

variable {α β : Type} {e : Engine} {world : World}

/-- A part of a render that leaves the cache alone and asks for no template. Whether it writes
elsewhere does not matter for the accounts. -/
def Rendering.Spares (x : Rendering α) : Prop :=
  ∀ e world, (x.run.run World.reply e world).2.1.cache = e.cache ∧
    (x.run.run World.reply e world).2.2.totalFetches? = world.totalFetches?

namespace Rendering.Spares

theorem pure (a : α) : Spares (Pure.pure a : Rendering α) := fun _ _ => ⟨rfl, rfl⟩

theorem ofExcept (r : Except ViewError α) : Spares (ExceptT.mk (Pure.pure r)) :=
  fun _ _ => ⟨rfl, rfl⟩

/-- Looking at the engine spares the source where what follows does. -/
theorem get_bind {f : Engine → Rendering α} (h : ∀ e, (f e).Spares) : Spares (get >>= f) :=
  fun e world => h e e world

/-- A question that is not for a template spares the templates. -/
theorem ask {q : Question} (h : ∀ id, q ≠ .template id) :
    Spares (ExceptT.lift (Script.question q)) :=
  fun _ world => ⟨rfl, World.totalFetches?_count h world⟩

/-- Two scripts that spare the source spare it in a row. -/
theorem bind {x : Rendering α} {f : α → Rendering β} (hx : x.Spares) (hf : ∀ a, (f a).Spares) :
    (x >>= f).Spares := by
  intro e world
  have hstart := hx e world
  rw [Rendering.run_bind]
  generalize x.run.run World.reply e world = out at hstart ⊢
  obtain ⟨r, e', world'⟩ := out
  cases r with
  | ok a =>
    obtain ⟨hcache, hfetches⟩ := hf a e' world'
    exact ⟨hcache.trans hstart.1, hfetches.trans hstart.2⟩
  | error err => exact hstart

end Rendering.Spares

/-- Partials are read and registered beside the cache. -/
theorem Engine.spares_refreshPartials (reuse : Bool) : (refreshPartials reuse).Spares := by
  unfold refreshPartials
  refine .get_bind fun e => ?_
  split
  · exact .pure ()
  · refine .bind (.ask (by simp)) fun answer => .bind (.ofExcept _) fun partials => ?_
    refine .bind ?_ fun _ => ?_
    · intro e world
      unfold register
      rw [Rendering.run_get_bind]
      generalize registerAll e.registry partials = registered
      obtain ⟨problem, registry⟩ := registered
      cases problem <;> exact ⟨rfl, rfl⟩
    · split
      · exact fun _ _ => ⟨rfl, rfl⟩
      · exact .pure ()

/-- Templates are rendered, and their values waited for, beside the cache. -/
theorem Engine.spares_pass (template : LoadedTemplate) (data : Value) (scope : PageScope) :
    (pass template data scope).Spares := by
  unfold pass
  refine .bind ?_ fun rendered => .bind ?_ fun waited => .pure _
  · intro e world
    unfold renderIn
    rw [Rendering.run_get_bind]
    generalize template.render e.registry data _ = out
    obtain ⟨result, around⟩ := out
    cases result <;> exact ⟨rfl, rfl⟩
  · unfold awaitValues
    generalize rendered.2.deferrals.take = taken
    obtain ⟨batch, deferrals⟩ := taken
    dsimp only
    split
    · exact .pure _
    · exact .bind (.ask (by simp)) fun ends => .pure _

/-- A look-up in the cache of an engine. -/
theorem Engine.run_obtain (id : TemplateKey) (reuse : Bool) (e : Engine) (world : World) :
    (obtain id reuse).run.run World.reply e world =
      ((e.cache.obtain world id reuse).1, { e with cache := (e.cache.obtain world id reuse).2.1 },
        (e.cache.obtain world id reuse).2.2) := by
  unfold obtain Cache.obtain
  rw [Rendering.run_get_bind]
  generalize e.cache.consult id reuse = consulted
  obtain ⟨found, cache⟩ := consulted
  cases found <;> rfl

/-- A template is looked up, and nothing else is called on the cache, if what comes after leaves it
alone. -/
theorem Engine.leads_obtain_bind {f : LoadedTemplate → Rendering β} (hf : ∀ l, (f l).Spares)
    (id : TemplateKey) (reuse : Bool) (e : Engine) (world : World) :
    Cache.Leads [.obtain world id reuse] e.cache world
      ((obtain id reuse >>= f).run.run World.reply e world).2.1.cache
      ((obtain id reuse >>= f).run.run World.reply e world).2.2 := by
  rw [Rendering.run_bind, run_obtain]
  have hleads := Cache.Leads.obtain e.cache world id reuse
  generalize e.cache.obtain world id reuse = out at hleads ⊢
  obtain ⟨result, cache, world'⟩ := out
  cases result with
  | error err => exact hleads
  | ok l =>
    obtain ⟨hcache, hfetches⟩ := hf l { e with cache } world'
    exact hleads.append (.quiet hcache hfetches)

/-- The default layout is looked up unless it is kept in its own place. -/
theorem Engine.leads_obtainDefault (request : Request) (e : Engine) (world : World) :
    Cache.Leads (e.standardActs request world) e.cache world
      ((obtainDefault request.reuse).run.run World.reply e world).2.1.cache
      ((obtainDefault request.reuse).run.run World.reply e world).2.2 := by
  unfold obtainDefault standardActs
  rw [Rendering.run_get_bind]
  cases e.settings.defaultLayout with
  | none => exact .quiet rfl rfl
  | some name =>
    dsimp only
    split
    · exact .quiet rfl rfl
    · exact leads_obtain_bind (fun _ _ _ => ⟨rfl, rfl⟩) _ _ _ _

/-- A layout that a directive names is looked up, and noted if it was found and may be reused. -/
theorem Engine.leads_directive (template : LoadedTemplate) (request : Request) (name : String)
    (e : Engine) (world : World) :
    let x : Rendering (Option LoadedTemplate) := do
      let layout ← obtainBeside template.id name request.reuse
      noteLayout template.id layout request.reuse
      pure (some layout)
    Cache.Leads (e.directiveActs request world template name) e.cache world
      (x.run.run World.reply e world).2.1.cache (x.run.run World.reply e world).2.2 := by
  intro x
  have hrun : x.run.run World.reply e world = (do
      let layout ← obtain (.resolve template.id.directory name e.settings.extname) request.reuse
      noteLayout template.id layout request.reuse
      pure (some layout) : Rendering (Option LoadedTemplate)).run.run World.reply e world := rfl
  rw [hrun, Rendering.run_bind, run_obtain]
  unfold directiveActs
  dsimp only
  set id := TemplateKey.resolve template.id.directory name e.settings.extname
  have hleads := Cache.Leads.obtain e.cache world id request.reuse
  generalize e.cache.obtain world id request.reuse = out at hleads ⊢
  obtain ⟨result, cache, world'⟩ := out
  cases hreuse : request.reuse with
  | false =>
    rw [hreuse] at hleads
    cases result <;> exact hleads
  | true =>
    rw [hreuse] at hleads
    cases result with
    | error err => exact hleads
    | ok layout => exact hleads.append (.note cache world' template.id layout)

/-- The layout for a template is looked up unless it is noted, and noted if a directive names
it. -/
theorem Engine.leads_layoutFor (template : LoadedTemplate) (request : Request)
    (standard : Option LoadedTemplate) (e : Engine) (world : World) :
    Cache.Leads (e.layoutActs request world template) e.cache world
      ((layoutFor template request standard).run.run World.reply e world).2.1.cache
      ((layoutFor template request standard).run.run World.reply e world).2.2 := by
  unfold layoutFor layoutActs
  rw [Rendering.run_get_bind]
  by_cases hnoted : (request.reuse && (e.cache.layoutOf template.id).isSome) = true
  · rw [if_pos hnoted]
    obtain ⟨hreuse, hsome⟩ := (Bool.and_eq_true _ _).mp hnoted
    obtain ⟨layout, hlayout⟩ := Option.isSome_iff_exists.mp hsome
    rw [if_pos hreuse, hlayout]
    exact .quiet rfl rfl
  rw [if_neg hnoted]
  have hnone : (if request.reuse = true then e.cache.layoutOf template.id else none) = none := by
    cases hreuse : request.reuse with
    | true => simpa [hreuse] using hnoted
    | false => rfl
  rw [hnone]
  dsimp only
  cases hfind : Directive.find? template.source with
  | some name =>
    rw [LayoutRequest.decision_eq_directive_iff.mpr hfind]
    exact leads_directive template request name e world
  | none =>
    rw [LayoutRequest.decision_of_find?_eq_none hfind]
    cases request.layout with
    | named name => exact leads_obtain_bind (fun l => .pure (some l)) _ _ _ _
    | disabled => exact .quiet rfl rfl
    | unset => cases standard <;> exact .quiet rfl rfl

end parts

/-! ## Courses and sessions -/

section courses

open Engine

variable {α : Type} {start : Engine} {name : String} {request : Request}

/-- Wherever it begins, a part of a render makes the calls of its phase. What it leaves of the cache
and of the source's counter is what these calls make of them. -/
def Part.Makes (start : Engine) (name : String) (request : Request) (part : Part α) : Prop :=
  ∀ e world, start.SameRules e →
    Cache.Leads (part.phase.acts name request e world part.subject) e.cache world
      (part.rendering.run.run World.reply e world).2.1.cache
      (part.rendering.run.run World.reply e world).2.2

/-- Each part of a course does so. -/
def Course.Makes (start : Engine) (name : String) (request : Request) : Course α → Prop
  | done _ => True
  | next part rest => part.Makes start name request ∧ ∀ b, (rest b).Makes start name request

/-- A part that spares the source makes the acts of its phase if there are none. -/
theorem Part.Makes.of_spares {part : Part α} (h : part.rendering.Spares)
    (hacts : ∀ e world, part.phase.acts name request e world part.subject = []) :
    part.Makes start name request := by
  intro e world _
  obtain ⟨hcache, hfetches⟩ := h e world
  rw [hacts]
  exact .quiet hcache hfetches

/-- A render makes the calls of its phases. -/
theorem Engine.makes_course (arrangement : Arrangement) (name : String) (request : Request)
    (e : Engine) : (course arrangement name request e).Makes e name request := by
  refine ⟨.of_spares (spares_refreshPartials _) fun _ _ => rfl, fun _ => ?_⟩
  refine ⟨fun e' world _ => leads_obtainDefault request e' world, fun standard => ?_⟩
  refine ⟨fun e' world hsame => ?_, fun template => ?_⟩
  · dsimp only [Phase.acts]
    rw [hsame.keyOf, run_obtain]
    exact .obtain e'.cache world (e.keyOf name) request.reuse
  refine ⟨fun e' world _ => leads_layoutFor template request standard e' world, fun layout => ?_⟩
  refine ⟨.of_spares (spares_pass _ _ _) fun _ _ => rfl, fun passed => ?_⟩
  cases layout with
  | none => exact trivial
  | some layout => exact ⟨.of_spares (spares_pass _ _ _) fun _ _ => rfl, fun _ => trivial⟩

/-- What a course leaves of the cache is what its calls make of it. -/
theorem Course.Makes.leads {course : Course α} (h : course.Makes start name request)
    (hsound : course.Sound start name request) {e : Engine} (hsame : start.SameRules e)
    (world : World) :
    Cache.Leads (course.acts name request e world) e.cache world
      (course.rendering.run.run World.reply e world).2.1.cache
      (course.rendering.run.run World.reply e world).2.2 := by
  induction course generalizing e world with
  | done result => exact .quiet rfl rfl
  | next part rest ih =>
    have hpart := h.1 e world hsame
    have hsame' := (hsound.1.ends e hsame World World.reply world).1
    rw [rendering, Rendering.run_bind, acts]
    generalize part.rendering.run.run World.reply e world = out at hpart hsame' ⊢
    obtain ⟨r, e', world'⟩ := out
    cases r with
    | ok b => exact hpart.append (ih b (h.2 b) (hsound.2 b) hsame' world')
    | error err => simpa using hpart

end courses

namespace Session

variable {deeds : List (Deed World)}

/-- What is done leads where the calls lead, if the source is not made to count otherwise. -/
theorem leads_step (session : Session World) {deed : Deed World} (hdeed : deed.KeepsCount) :
    Cache.Leads (deed.acts session) session.engine.cache session.world
      (session.step World.reply deed).engine.cache (session.step World.reply deed).world := by
  cases deed with
  | render name request arrangement =>
    have hmakes := Engine.makes_course arrangement name request session.engine
    have hsound := Engine.sound_course arrangement name request session.engine
    have hleads := hmakes.leads hsound (.refl _) session.world
    dsimp only [step, Deed.acts]
    rw [Engine.render_eq_course, Rendering.run_get_bind]
    exact hleads
  | addHelper name helper => exact .quiet rfl rfl
  | addPartial name source =>
    dsimp only [step, Engine.addPartial]
    cases session.engine.registry.addPartial name source <;> exact .quiet rfl rfl
  | forget => exact .clear _ _
  | change change => exact .quiet rfl (hdeed session.world)

/-- What a session leaves of the cache is what the calls in it make of it, and its source was asked
for templates as often as they are misses. -/
theorem leads_run (session : Session World) (hdeeds : ∀ deed ∈ deeds, deed.KeepsCount) :
    Cache.Leads (session.acts deeds) session.engine.cache session.world
      (session.run World.reply deeds).engine.cache (session.run World.reply deeds).world := by
  induction deeds generalizing session with
  | nil => exact .quiet rfl rfl
  | cons deed rest ih =>
    obtain ⟨hdeed, hrest⟩ := List.forall_mem_cons.mp hdeeds
    exact (leads_step session hdeed).append (ih _ hrest)

/-- In a session that begins with an empty cache and a source that counts, cache and source account
for all look-ups of all renders, and the source was asked for templates once for each miss. -/
theorem lookups_accounted (session : Session World) (hcache : session.engine.cache = {})
    {start : Nat} (hstart : session.world.totalFetches? = some start)
    (hdeeds : ∀ deed ∈ deeds, deed.KeepsCount) :
    let records := Cache.history {} (session.acts deeds)
    let last := session.run World.reply deeds
    Cache.Accounts records last.engine.cache ∧
      last.world.totalFetches? = some (start + records.countP Cache.Record.asks) := by
  have hleads := leads_run session hdeeds
  rw [hcache] at hleads
  intro records last
  refine ⟨?_, ?_⟩
  · rw [hleads.cache_eq]
    exact Cache.accounts_run (session.acts deeds)
  · rw [hleads.fetches, hstart]
    rfl

/-- The source fails, or answers again. -/
def outage (isDown : Bool) (world : World) : World :=
  match world.supply with
  | .memory s => { world with supply := .memory { s with isDown } }
  | _ => world

/-- A session with a page and a default layout in memory. -/
def sampleSession : Session World where
  engine :=
    { settings := { defaultLayout := some "main" }
      registry := Registry.standard.withContentBlocks }
  world.supply := .memory
    { templates := [("page.hbs", "page"), ("main.hbs", "<\x7b\x7b\x7bbody\x7d\x7d\x7d>")] }

/-- The page is rendered twice, the second time during an outage; a view that is not there is asked
for, everything is forgotten, and the page is rendered twice more, the second time without the
cache. -/
def sampleDeeds : List (Deed World) :=
  [.render "page" { reuse := true } {}, .change (outage true), .render "page" { reuse := true } {},
    .render "other" { reuse := true } {}, .change (outage false), .forget,
    .render "page" { reuse := true } {}, .render "page" {} {}]

/-- No deed of the sample session changes the count behind the engine's back. -/
theorem keepsCount_sampleDeeds : ∀ deed ∈ sampleDeeds, deed.KeepsCount := by
  have houtage : ∀ isDown world, (outage isDown world).totalFetches? = world.totalFetches? := by
    intro isDown world
    obtain ⟨files, supply⟩ := world
    cases supply <;> rfl
  simp [sampleDeeds, Deed.KeepsCount, houtage]

/-- Three look-ups ask the source before everything is forgotten and four after that; one finds the
page. -/
theorem lookups_accounted_sample :
    Cache.Accounts (Cache.history {} (sampleSession.acts sampleDeeds))
        (sampleSession.run World.reply sampleDeeds).engine.cache ∧
      (Cache.history {} (sampleSession.acts sampleDeeds)).countP Cache.Record.asks = 7 ∧
      (sampleSession.run World.reply sampleDeeds).world.totalFetches? = some 7 := by
  have hstart : sampleSession.world.totalFetches? = some 0 := rfl
  obtain ⟨haccounts, hfetches⟩ := lookups_accounted sampleSession rfl hstart keepsCount_sampleDeeds
  have hasks :
      (Cache.history {} (sampleSession.acts sampleDeeds)).countP Cache.Record.asks = 7 := by
    decide +kernel
  refine ⟨haccounts, hasks, ?_⟩
  rw [hfetches, hasks]

end Session
end Views
