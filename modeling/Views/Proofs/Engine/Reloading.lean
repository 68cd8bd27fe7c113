import Views.Engine.Session
import Views.Proofs.Engine.Selecting
import Views.Proofs.Registration
/-!
# Partials that are loaded again

A render that loads the partials of the source registers them over what is registered already, and
nothing takes a partial out of the registry again. A `Ledger` is a session that keeps the books on
this: what was registered by hand, and which names the source has lent out since. After each load
the registry offers the partials of the source and, besides them, what was registered by hand, just
if no name that was lent and is not given any more leads to something else (`offers_iff`).

* **Loading** goes over what is there: a partial of the source takes the place of one with the same
  name, and all others stay (`registry_load`).
* **Forgetting** takes the mark away that partials are registered, but no partial, so one that the
  source does not give any more is still found after that (`dropped_partial_stays`).
* **Registered by hand**: a name that is registered by hand after the source has lent it is the
  hand's again, and then it is right that it stays. `Ledger.lent` keeps track of this, and the books
  agree with the registry through every session (`Balanced.run`).
-/

namespace Views

open Engine

/-- What a registry offers that holds a set of partials and, besides them, others: each partial of
the set as it was compiled, under any other name what is registered there among the others. -/
def Registry.Offers (r : Registry) (set : Partials) (others : Registry) : Prop :=
  ∀ name, match Assoc.find? name set with
    | some source => ∃ template, Template.compile (r.partialOptions name) source = .ok template ∧
        Assoc.find? name r.partials = some template
    | none => Assoc.find? name r.partials = Assoc.find? name others.partials

/-! ## Registering by hand -/

namespace Engine

/-- Registries with the same partials, that compile partials in the same way. -/
def SamePartials (r r' : Registry) : Prop :=
  r'.partials = r.partials ∧ r'.preventIndent = r.preventIndent

/-- Registries with the same partials take up one more in the same way, or fail alike. -/
theorem registers_samePartials : Registers SamePartials := by
  rintro r r' ⟨hpartials, hindent⟩ name source
  have hoptions : r'.partialOptions name = r.partialOptions name := by
    rw [Registry.partialOptions, hindent, Registry.partialOptions]
  unfold Registry.addPartial
  rw [hoptions, hpartials]
  cases Template.compile (r.partialOptions name) source with
  | ok template => exact .ok ⟨rfl, hindent⟩
  | error e => exact .error _

/-- Adding helpers leaves the partials alone. -/
theorem samePartials_addHelpers (helpers : List (String × Helper)) (r : Registry) :
    SamePartials r (helpers.foldl (fun r h => r.addHelper h.1 h.2) r) := by
  induction helpers generalizing r with
  | nil => exact ⟨rfl, rfl⟩
  | cons h rest ih => exact ih (r.addHelper h.1 h.2)

/-- A loading that meets no failure is the loading that stops at the first one. -/
theorem registerAll_of_foldlM {partials : Partials} {r r' : Registry}
    (h : partials.foldlM (fun r p => Registry.addPartial r p.1 p.2) r = .ok r') :
    registerAll r partials = (none, r') := by
  induction partials generalizing r with
  | nil =>
    cases h
    rfl
  | cons p rest ih =>
    rw [List.foldlM_cons] at h
    rw [registerAll]
    cases hadd : r.addPartial p.1 p.2 with
    | error e =>
      rw [hadd] at h
      cases h
    | ok first =>
      rw [hadd] at h
      exact ih h

/-- The partials of an engine that is built are those of the registry that it was given and those
that it was given by name. -/
theorem build_partials {settings : Settings} {sourceCheck : Except SetupError Unit}
    {registry : Registry} {helpers : List (String × Helper)} {partials : List (String × String)}
    {built : Engine} (h : build settings sourceCheck registry helpers partials = .ok built) :
    SamePartials (registerAll registry partials).2 built.registry := by
  obtain ⟨r, hregistered, rfl⟩ := eq_of_build h
  have hstart : SamePartials registry
      (helpers.foldl (fun r h => r.addHelper h.1 h.2) registry.withContentBlocks) :=
    samePartials_addHelpers helpers registry.withContentBlocks
  have hall := (registers_samePartials.all partials hstart).2
  rw [registerAll_of_foldlM hregistered] at hall
  exact hall

end Engine

/-! ## What a render does to the registry -/

section render

variable {ω : Type} (reply : (q : Question) → ω → q.Answer × ω) (e : Engine) (w : ω)

/-- Where the partials need not be loaded, nothing happens. -/
theorem run_refreshPartials_of_loaded {reuse : Bool} (h : (reuse && e.hasPartials) = true) :
    (refreshPartials reuse).run.run reply e w = (.ok (), e, w) := by
  unfold refreshPartials
  rw [Rendering.run_get_bind, if_pos h]
  rfl

/-- Partials are registered as far as they compile. -/
theorem run_register (partials : Partials) :
    (register partials).run.run reply e w =
      (match (registerAll e.registry partials).1 with
        | some err => .error (.uncompilable err)
        | none => .ok (), { e with registry := (registerAll e.registry partials).2 }, w) := by
  unfold register
  rw [Rendering.run_get_bind]
  generalize registerAll e.registry partials = registered
  obtain ⟨problem, registry⟩ := registered
  cases problem with
  | some err => rfl
  | none => rfl

/-- Registers the partials of a source, and notes that this is done if they may be reused. -/
def load (partials : Partials) (reuse : Bool) : Rendering Unit := do
  register partials
  if reuse then modify fun engine => { engine with hasPartials := true }

/-- Where the partials are not yet loaded, or must not be reused, the source is asked for them once
and all of the answer is loaded. -/
theorem run_refreshPartials_of_unloaded {reuse : Bool} (h : (reuse && e.hasPartials) = false) :
    (refreshPartials reuse).run.run reply e w = match partialsOf (reply .partials w).1 with
      | .error err => (.error err, e, (reply .partials w).2)
      | .ok set => (load set reuse).run.run reply e (reply .partials w).2 := by
  unfold refreshPartials
  rw [Rendering.run_get_bind, h, if_neg Bool.false_ne_true]
  show ((ExceptT.mk (pure (partialsOf (reply .partials w).1)) >>= fun set => load set reuse :
    Rendering Unit)).run.run reply e (reply .partials w).2 = _
  rw [Rendering.run_bind]
  cases partialsOf (reply .partials w).1 with
  | error err => rfl
  | ok set => rfl

/-- Loading changes the registry by registering the given partials in order, and succeeds only where
all of them compile. -/
theorem registry_load (partials : Partials) (reuse : Bool) :
    ((load partials reuse).run.run reply e w).2.1.registry = (registerAll e.registry partials).2 ∧
      (((load partials reuse).run.run reply e w).1 = .ok () →
        (registerAll e.registry partials).1 = none) := by
  unfold load
  rw [Rendering.run_bind, run_register]
  cases (registerAll e.registry partials).1 with
  | some err => exact ⟨rfl, fun hok => by cases hok⟩
  | none =>
    refine ⟨?_, fun _ => rfl⟩
    cases reuse with
    | true => rfl
    | false => rfl

/-- Nothing else in a render changes the registry. -/
theorem Rendering.Behaves.registry {α : Type} {x : Rendering α}
    (h : x.Behaves { Terms.still with owes := fun e e' => e'.registry = e.registry }) :
    (x.run.run reply e w).2.1.registry = e.registry := by
  have hframe : x.Ensures .still (fun _ e' => e'.registry = e.registry) e := by
    refine h.frame (fun _ => ?_) (fun h h' => ?_) e
    · rfl
    · exact h'.trans h
  exact hframe.alone reply w

/-- What is selected once the partials are registered. -/
def selectLoaded (id : TemplateKey) (request : Request) :
    Rendering (LoadedTemplate × Option LoadedTemplate) := do
  let standard ← obtainDefault request.reuse
  let template ← obtain id request.reuse
  let layout ← layoutFor template request standard
  pure (template, layout)

/-- Selecting a page is reading the partials and then the page. -/
theorem run_select (name : String) (request : Request) :
    (select name request).run.run reply e w =
      (refreshPartials request.reuse >>= fun _ => selectLoaded (e.keyOf name) request).run.run
        reply e w := rfl

/-- Reading a page and its layout registers nothing. -/
theorem registry_selectLoaded (id : TemplateKey) (request : Request) :
    ((selectLoaded id request).run.run reply e w).2.1.registry = e.registry := by
  refine Rendering.Behaves.registry reply e w ?_
  refine .bind (Rendering.obtainDefault_behaves (fun _ => rfl) rfl) fun standard => ?_
  refine .bind (Rendering.obtain_behaves (fun _ => rfl) _) fun template => ?_
  exact .bind (Rendering.layoutFor_behaves (fun _ => rfl) _ rfl _) fun layout => .pure _

/-- A view is selected with the registry as it was, if the partials are loaded already. -/
theorem registry_select_of_loaded {request : Request} (h : (request.reuse && e.hasPartials) = true)
    (name : String) : ((select name request).run.run reply e w).2.1.registry = e.registry := by
  rw [run_select, Rendering.run_bind, run_refreshPartials_of_loaded reply e w h]
  exact registry_selectLoaded reply e w _ _

/-- A view is selected with the partials of the source registered, or not at all. -/
theorem registry_select_of_unloaded {request : Request}
    (h : (request.reuse && e.hasPartials) = false) (name : String) :
    match partialsOf (reply .partials w).1 with
    | .error err => ((select name request).run.run reply e w).1 = .error err ∧
        ((select name request).run.run reply e w).2.1.registry = e.registry
    | .ok set => ((select name request).run.run reply e w).2.1.registry =
          (registerAll e.registry set).2 ∧
        (((select name request).run.run reply e w).1.isOk →
          (registerAll e.registry set).1 = none) := by
  rw [run_select, Rendering.run_bind, run_refreshPartials_of_unloaded reply e w h]
  cases partialsOf (reply .partials w).1 with
  | error err => exact ⟨rfl, rfl⟩
  | ok set =>
    dsimp only
    obtain ⟨hregistry, hproblem⟩ := registry_load reply e (reply .partials w).2 set request.reuse
    generalize (load set request.reuse).run.run reply e (reply .partials w).2 = out
      at hregistry hproblem ⊢
    obtain ⟨r, e', w'⟩ := out
    cases r with
    | error err => exact ⟨hregistry, fun hok => by cases hok⟩
    | ok _ => exact ⟨(registry_selectLoaded reply e' w' _ _).trans hregistry, fun _ => hproblem rfl⟩

/-- Composing the page leaves the registry as it is. -/
theorem registry_render (name : String) (request : Request) (arrangement : Arrangement) :
    ((render name request arrangement).run.run reply e w).2.1.registry =
      ((select name request).run.run reply e w).2.1.registry := by
  rw [render_eq_compose, Rendering.run_bind]
  generalize (select name request).run.run reply e w = out
  obtain ⟨r, e', w'⟩ := out
  cases r with
  | error err => rfl
  | ok selected =>
    exact Rendering.Behaves.registry reply e' w'
      (Rendering.compose_behaves (fun _ _ => rfl) _ _ _ _)

end render

/-! ## The books -/

/-- A session with a record of what was registered by hand and of the names that the source has
given since, if ever. The record is kept for the proof: no step of the session looks at it. -/
structure Ledger (ω : Type) extends Session ω where
  handmade : Registry
  lent : List String := []

namespace Ledger

variable {ω : Type} (reply : (q : Question) → ω → q.Answer × ω)

/-- The names that the source gives to a render. -/
def gives (ledger : Ledger ω) (request : Request) : List String :=
  if request.reuse && ledger.engine.hasPartials then []
  else match partialsOf (reply .partials ledger.world).1 with
    | .ok set => set.map Prod.fst
    | .error _ => []

/-- Does one thing and puts it on record. -/
def step (ledger : Ledger ω) (deed : Deed ω) : Ledger ω :=
  let session := ledger.toSession.step reply deed
  match deed with
  | .render _ request _ =>
    { ledger with toSession := session, lent := ledger.lent ++ ledger.gives reply request }
  | .addPartial name source => match ledger.handmade.addPartial name source with
    | .ok handmade =>
      { toSession := session, handmade, lent := ledger.lent.filter fun other => other ≠ name }
    | .error _ => { ledger with toSession := session }
  | .addHelper _ _ => { ledger with toSession := session }
  | .forget => { ledger with toSession := session }
  | .change _ => { ledger with toSession := session }

/-- Does one thing after the other. -/
def run (ledger : Ledger ω) (deeds : List (Deed ω)) : Ledger ω := deeds.foldl (step reply) ledger

/-- The books of an engine that was built with some partials. -/
def opened (built : Engine) (registry : Registry) (partials : Partials) (world : ω) : Ledger ω :=
  { engine := built, world, handmade := (registerAll registry partials).2 }

/-- The books agree with the registry: a name that is not lent leads to what was registered by hand.
Of a name that is lent nothing is said, since the source may have given it anything. -/
structure Balanced (ledger : Ledger ω) : Prop where
  preventIndent : ledger.engine.registry.preventIndent = ledger.handmade.preventIndent
  partials : ∀ {name}, name ∉ ledger.lent →
    Assoc.find? name ledger.engine.registry.partials = Assoc.find? name ledger.handmade.partials

/-- The books run along with a session and do not change it. -/
theorem session_step (ledger : Ledger ω) (deed : Deed ω) :
    (ledger.step reply deed).toSession = ledger.toSession.step reply deed := by
  cases deed with
  | addPartial name source =>
    unfold step
    dsimp only
    cases ledger.handmade.addPartial name source with
    | ok handmade => rfl
    | error err => rfl
  | render name request arrangement => rfl
  | addHelper name helper => rfl
  | forget => rfl
  | change change => rfl

/-- Keeping books makes no difference. -/
theorem session_run (ledger : Ledger ω) (deeds : List (Deed ω)) :
    (ledger.run reply deeds).toSession = ledger.toSession.run reply deeds := by
  induction deeds generalizing ledger with
  | nil => rfl
  | cons deed deeds ih =>
    have hrest := ih (ledger.step reply deed)
    rw [session_step] at hrest
    exact hrest

variable {ledger : Ledger ω}

/-- A render registers what the source gives, and leaves every other name alone. -/
theorem registry_of_gives (ledger : Ledger ω) (name : String) (request : Request)
    (arrangement : Arrangement) :
    let after := (ledger.step reply (.render name request arrangement)).engine.registry
    after.preventIndent = ledger.engine.registry.preventIndent ∧
      ∀ {other}, other ∉ ledger.gives reply request →
        Assoc.find? other after.partials = Assoc.find? other ledger.engine.registry.partials := by
  intro after
  have hafter : after =
      ((select name request).run.run reply ledger.engine ledger.world).2.1.registry :=
    registry_render reply ledger.engine ledger.world name request arrangement
  unfold gives
  cases hloaded : request.reuse && ledger.engine.hasPartials with
  | true =>
    rw [hafter, registry_select_of_loaded reply _ _ hloaded]
    exact ⟨rfl, fun _ => rfl⟩
  | false =>
    have hselect := registry_select_of_unloaded reply ledger.engine ledger.world hloaded name
    rw [if_neg Bool.false_ne_true]
    cases hset : partialsOf (reply .partials ledger.world).1 with
    | error err =>
      rw [hset] at hselect
      rw [hafter, hselect.2]
      exact ⟨rfl, fun _ => rfl⟩
    | ok set =>
      rw [hset] at hselect
      rw [hafter, hselect.1]
      refine ⟨registerAll_preventIndent _ set, fun hother => ?_⟩
      exact find?_registerAll_of_none (Assoc.find?_eq_none_iff.mpr hother) _

/-- A partial that is registered by hand is entered as such, and the books still agree. -/
theorem Balanced.addPartial (h : ledger.Balanced) (name source : String) :
    (ledger.step reply (.addPartial name source)).Balanced := by
  have hoptions : ledger.engine.registry.partialOptions name =
      ledger.handmade.partialOptions name := by
    rw [Registry.partialOptions, h.preventIndent, Registry.partialOptions]
  cases hcompile : Template.compile (ledger.handmade.partialOptions name) source with
  | error err =>
    have hstep : ledger.step reply (.addPartial name source) = ledger := by
      simp only [Ledger.step, Session.step, Engine.addPartial, Registry.addPartial, hoptions,
        hcompile, Except.map]
    rw [hstep]
    exact h
  | ok template =>
    have hstep : ledger.step reply (.addPartial name source) = { ledger with
        engine := { ledger.engine with registry := { ledger.engine.registry with
          partials := ledger.engine.registry.partials.put name template } }
        handmade := { ledger.handmade with
          partials := ledger.handmade.partials.put name template }
        lent := ledger.lent.filter fun other => other ≠ name } := by
      simp only [Ledger.step, Session.step, Engine.addPartial, Registry.addPartial, hoptions,
        hcompile, Except.map]
    rw [hstep]
    refine ⟨h.preventIndent, fun {other} hother => ?_⟩
    by_cases hname : other = name
    · subst hname
      exact (Assoc.find?_put_self ..).trans (Assoc.find?_put_self ..).symm
    · have hother : other ∉ ledger.lent := fun hmem =>
        hother (List.mem_filter.mpr ⟨hmem, decide_eq_true hname⟩)
      exact (Assoc.find?_put_of_ne hname _ _).trans
        ((h.partials hother).trans (Assoc.find?_put_of_ne hname _ _).symm)

/-- Whatever is done next, the books agree. -/
theorem Balanced.step (h : ledger.Balanced) (deed : Deed ω) :
    (ledger.step reply deed).Balanced := by
  cases deed with
  | render name request arrangement =>
    obtain ⟨hindent, hpartials⟩ := ledger.registry_of_gives reply name request arrangement
    refine ⟨hindent.trans h.preventIndent, fun {other} hother => ?_⟩
    have hother : other ∉ ledger.lent ++ ledger.gives reply request := hother
    rw [List.mem_append, not_or] at hother
    exact (hpartials hother.2).trans (h.partials hother.1)
  | addPartial name source => exact h.addPartial reply name source
  | addHelper name helper => exact ⟨h.preventIndent, h.partials⟩
  | forget => exact ⟨h.preventIndent, h.partials⟩
  | change change => exact ⟨h.preventIndent, h.partials⟩

/-- The books agree after each deed, and so at the end. -/
theorem Balanced.run (h : ledger.Balanced) (deeds : List (Deed ω)) :
    (ledger.run reply deeds).Balanced := by
  induction deeds generalizing ledger with
  | nil => exact h
  | cons deed deeds ih => exact ih (h.step reply deed)

/-- The books of an engine that was built agree. -/
theorem balanced_opened {settings : Settings} {sourceCheck : Except SetupError Unit}
    {registry : Registry} {helpers : List (String × Helper)} {partials : Partials} {built : Engine}
    (hbuild : build settings sourceCheck registry helpers partials = .ok built) (world : ω) :
    (opened built registry partials world).Balanced := by
  obtain ⟨hpartials, hindent⟩ := build_partials hbuild
  refine ⟨hindent, fun _ => ?_⟩
  show Assoc.find? _ built.registry.partials = _
  rw [hpartials]
  rfl

end Ledger

/-- A render of a session that loads the partials gets to its view with the registry offering the
partials of the source and, besides them, those that were registered by hand, if and only if each
name that the source has given since it was registered by hand, if ever, and does not give any more
leads to what was registered by hand. -/
theorem offers_iff {ω : Type} {settings : Settings} {sourceCheck : Except SetupError Unit}
    {registry : Registry} {helpers : List (String × Helper)} {partials : Partials} {built : Engine}
    (hbuild : build settings sourceCheck registry helpers partials = .ok built)
    (reply : (q : Question) → ω → q.Answer × ω) (world : ω) (deeds : List (Deed ω))
    {ledger : Ledger ω} (hledger : ledger = (Ledger.opened built registry partials world).run reply
      deeds) {name : String} {request : Request}
    (hloads : (request.reuse && ledger.engine.hasPartials) = false)
    {template : LoadedTemplate} {layout : Option LoadedTemplate} {e : Engine} {w : ω}
    (hselect : (select name request).run.run reply ledger.engine ledger.world =
      (.ok (template, layout), e, w)) :
    ∃ set, partialsOf (reply .partials ledger.world).1 = .ok set ∧
      ((set.map Prod.fst).Nodup → (e.registry.Offers set ledger.handmade ↔
        ∀ name ∈ ledger.lent, Assoc.find? name set = none →
          Assoc.find? name ledger.engine.registry.partials =
            Assoc.find? name ledger.handmade.partials)) := by
  have hbalanced : ledger.Balanced := by
    rw [hledger]
    exact (Ledger.balanced_opened hbuild world).run reply deeds
  have hregistry := registry_select_of_unloaded reply ledger.engine ledger.world hloads name
  rw [hselect] at hregistry
  cases hset : partialsOf (reply .partials ledger.world).1 with
  | error err =>
    rw [hset] at hregistry
    cases hregistry.1
  | ok set =>
    rw [hset] at hregistry
    obtain ⟨hregistry, hproblem⟩ := hregistry
    dsimp only at hregistry
    have hproblem := hproblem rfl
    -- A name that the source does not give is not touched by the load: it leads where it led before.
    refine ⟨set, rfl, fun hnodup => ⟨fun hoffers other _ hnone => ?_, fun hlent other => ?_⟩⟩
    · have hother := hoffers other
      rw [hnone, hregistry] at hother
      exact (find?_registerAll_of_none hnone _).symm.trans hother
    · cases hsource : Assoc.find? other set with
      | some source =>
        rw [hregistry, Registry.partialOptions, registerAll_preventIndent]
        exact find?_registerAll_of_some hproblem hnodup hsource
      | none =>
        rw [hregistry]
        refine (find?_registerAll_of_none hsource _).trans ?_
        by_cases hmem : other ∈ ledger.lent
        · exact hlent other hmem hsource
        · exact hbalanced.partials hmem

/-- A page that includes a partial, and a source that has the partial or not. -/
def partialReply : (q : Question) → Bool → q.Answer × Bool
  | .partials, has => (.ok (if has then [("side", "old")] else []), has)
  | .template _, has => (.ok "\x7b\x7b> side\x7d\x7d", has)
  | .values batch, has => (arrivals batch, has)

/-- The partial is registered by hand before the source drops it. -/
theorem offers_handmade :
    let ledger := (Ledger.opened .plain .standard [] true).run partialReply
      [.render "page" { reuse := true } {}, .addPartial "side" "mine", .change fun _ => false,
        .forget]
    ((render "page" { reuse := true }).run.run partialReply ledger.engine ledger.world).1.toOption =
        some "mine" ∧
      ((select "page" { reuse := true }).run.run partialReply ledger.engine
        ledger.world).2.1.registry.Offers [] ledger.handmade := by
  intro ledger
  refine ⟨by decide +kernel, ?_⟩
  have hselects : ((select "page" { reuse := true }).run.run partialReply ledger.engine
    ledger.world).1.isOk := by decide +kernel
  have hlent : ledger.lent = [] := by decide +kernel
  rcases hselect : (select "page" { reuse := true }).run.run partialReply ledger.engine
    ledger.world with ⟨_ | ⟨template, layout⟩, e, w⟩
  · rw [hselect] at hselects
    cases hselects
  · obtain ⟨set, hset, hoffers⟩ :=
      offers_iff build_plain partialReply true _ rfl (by decide +kernel) hselect
    have hworld : ledger.world = false := by decide +kernel
    rw [hworld] at hset
    obtain rfl : [] = set := Except.ok.inj hset
    refine (hoffers List.nodup_nil).mpr fun name hname => ?_
    rw [hlent] at hname
    cases hname

/-- The partial is found although the source has dropped it and everything was forgotten. -/
theorem dropped_partial_stays :
    let ledger := (Ledger.opened .plain .standard [] true).run partialReply
      [.render "page" { reuse := true } {}, .change fun _ => false, .forget]
    ledger.engine.hasPartials = false ∧
      partialsOf (partialReply .partials ledger.world).1 = .ok [] ∧
      ((render "page" { reuse := true }).run.run partialReply ledger.engine
        ledger.world).1.toOption = some "old" ∧
      ¬ ((select "page" { reuse := true }).run.run partialReply ledger.engine
        ledger.world).2.1.registry.Offers [] ledger.handmade := by
  intro ledger
  refine ⟨by decide +kernel, ?_, by decide +kernel, fun hoffers => ?_⟩
  · have hworld : ledger.world = false := by decide +kernel
    rw [hworld]
    rfl
  · have hside := hoffers "side"
    have hfound : (Assoc.find? "side" ((select "page" { reuse := true }).run.run partialReply
      ledger.engine ledger.world).2.1.registry.partials).isSome := by decide +kernel
    have hhandmade : (Assoc.find? "side" ledger.handmade.partials).isSome = false := by
      decide +kernel
    rw [Assoc.find?_nil] at hside
    rw [hside, hhandmade] at hfound
    cases hfound

end Views
