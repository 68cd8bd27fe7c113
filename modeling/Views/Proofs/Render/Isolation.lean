import Views.Proofs.Render.Pages
import Views.Proofs.Render.Trace
import Views.Proofs.Token.Supply
import Views.Stage
/-!
# Scopes are isolated

Steps enter scopes, leave them, and do things to them. What they do is the acts that they consist
of, each about the one scope that is innermost where it is made, or that it names
(`Step.runAll_eq`); entering leaves nothing behind.

* **Frame** (`Act.leaves_runEach`): acts leave a scope alone that none of them is about, with what
  was replied about it.
* **Isolation** (`Step.runAll_isolated`): two runs that make the same acts about one scope, whatever
  else they do and whichever tokens they give out, have the same replies about it and leave the same
  in it, up to a renaming of tokens. `Stage.SameAt` is the relation between the two runs that every
  act about the scope preserves (`Act.runAt_renamed`), and every other act of either run
  (`Stage.SameAt.of_leaves`).
* It takes that what comes of each helper depends on its arguments alone, and that no expression
  compares tokens; and where a text is given that spells a token, what comes of it is not the same
  (`Step.isolation_needs_premises`).

Scopes are entered within each other, and what is done while several are open is done to the
innermost one only, whatever is open around it; a scope that was left may be entered again. Two runs
are compared with different tokens, since a token is given out of one supply for all scopes and
another run gives out others. What is compared is therefore what the two runs make of one scope, its
fragments and what waits in it, with each token of the one run replaced by its partner in the other.
-/

namespace Views

open Glyph

variable {registry : Registry} {order order' : TokenValues → TokenValues}
  {stage stage' after after' : Stage} {k : Nat}

/-! ## Steps as lists of acts -/

namespace Act

/-- Acts run one after the other, so a run may be cut anywhere. -/
theorem runEach_append (acts more : List (Option Nat × Act)) (stage : Stage) :
    runEach registry order (acts ++ more) stage =
      runEach registry order more (runEach registry order acts stage) := by
  induction acts generalizing stage with
  | nil => rfl
  | cons p rest ih => exact ih _

/-- An act done at a given place does not depend on which scope is innermost just then. -/
theorem runAt_withCurrent (place : Option Nat) (act : Act) (stage : Stage) (current : Option Nat) :
    act.runAt registry order place { stage with current } =
      { act.runAt registry order place stage with current } := by
  cases act <;> rfl

/-- Of acts it is said which scope they are about, so that it does not matter which is current. -/
theorem runEach_withCurrent (acts : List (Option Nat × Act)) (stage : Stage)
    (current : Option Nat) :
    runEach registry order acts { stage with current } =
      { runEach registry order acts stage with current } := by
  induction acts generalizing stage with
  | nil => rfl
  | cons p rest ih =>
    rw [runEach, runEach, runAt_withCurrent]
    exact ih _

/-- And it leaves the innermost scope as it was. -/
theorem current_runEach (acts : List (Option Nat × Act)) (stage : Stage) :
    (runEach registry order acts stage).current = stage.current := by
  induction acts generalizing stage with
  | nil => rfl
  | cons p rest ih => exact ih _

/-- Making an act about its scope does not change what it is about. -/
theorem scope?_scope? (act : Act) (current : Option Nat) :
    act.scope? (act.scope? current) = act.scope? current := by
  cases act <;> rfl

end Act

namespace Step

mutual

/-- Running a step is making its acts, each about its scope. -/
theorem run_eq (step : Step) (stage : Stage) :
    run registry order step stage = Act.runEach registry order (acts stage.current step) stage := by
  match step with
  | .act a => rfl
  | .enter i steps =>
    unfold run acts Stage.enter
    rw [runAll_eq steps, Act.runEach_withCurrent]
    dsimp only
    rw [← Act.current_runEach (allActs (some i) steps) stage]

/-- Running steps is making their acts one after the other. -/
theorem runAll_eq (steps : List Step) (stage : Stage) :
    runAll registry order steps stage =
      Act.runEach registry order (allActs stage.current steps) stage := by
  match steps with
  | [] => rfl
  | step :: rest =>
    unfold runAll allActs
    rw [Act.runEach_append, run_eq step, runAll_eq rest, Act.current_runEach]

end

mutual

/-- Every act of a step is one that is done where the step puts it. -/
theorem scope?_of_mem_acts {current : Option Nat} (step : Step) :
    ∀ p ∈ acts current step, p.2.scope? p.1 = p.1 := by
  match step with
  | .act a =>
    intro p hp
    rw [acts, List.mem_singleton] at hp
    rw [hp]
    exact a.scope?_scope? current
  | .enter i steps => exact scope?_of_mem_allActs steps

theorem scope?_of_mem_allActs {current : Option Nat} (steps : List Step) :
    ∀ p ∈ allActs current steps, p.2.scope? p.1 = p.1 := by
  match steps with
  | [] => exact fun p hp => absurd hp List.not_mem_nil
  | step :: rest =>
    intro p hp
    rw [allActs, List.mem_append] at hp
    exact hp.elim (scope?_of_mem_acts step p) (scope?_of_mem_allActs rest p)

end

end Step

/-! ## What acts leave alone -/

/-- A render moves on in the same supply of tokens. -/
theorem Surroundings.Reaches.tokens {before after : Surroundings} {events : List BlockEvent}
    (h : before.Reaches events after) :
    after.tokens.source = before.tokens.source ∧ before.tokens.used ≤ after.tokens.used := by
  induction h with
  | refl => exact ⟨rfl, Nat.le_refl _⟩
  | tail _ hstep ih =>
    cases hstep with
    | defer _ job calls => exact ⟨ih.1, Nat.le_succ_of_le ih.2⟩
    | count calls => exact ih
    | capture _ name fragment => exact ih
    | emit _ name => exact ih

/-- Rendering a source takes no token back. -/
theorem Registry.tokens_renderTemplate (registry : Registry) (source : String) (data : Value)
    (around : Surroundings) :
    let after := (registry.renderTemplate source data around).2
    after.tokens.source = around.tokens.source ∧ around.tokens.used ≤ after.tokens.used := by
  unfold renderTemplate
  split
  · exact (Template.render_acts _ _ around).tokens
  · exact ⟨rfl, Nat.le_refl _⟩

namespace Scopes

variable {scopes : Scopes} {s : PageScope}

/-- The scope that a render at `k` is given is the one the stage holds at `k`. -/
theorem get_of_around (h : (scopes.around (some k)).scope = some s) : scopes.get k = s := by
  have hcells : scopes.cells[k]? = some s := h
  rw [get, hcells, Option.getD_some]

/-- A scope that is changed has what was put there. -/
theorem around_set (h : (scopes.around (some k)).scope = some s) (t : PageScope) :
    (scopes.set k t).around (some k) = { scopes.around (some k) with scope := some t } := by
  have hcells : scopes.cells[k]? = some s := h
  have hset : (scopes.cells.set k t)[k]? = some t := by
    rw [List.getElem?_set_self', hcells]
    rfl
  unfold around set
  rw [Option.bind_some, hset]

/-- What is taken back is there when it is lent again. -/
theorem around_takeBack (h : (scopes.around (some k)).scope = some s) {after : Surroundings}
    {t : PageScope} (ht : after.scope = some t) :
    (scopes.takeBack (some k) after).around (some k) = after := by
  have hset := congrArg Surroundings.scope (around_set h t)
  obtain ⟨scope, tokens, calls⟩ := after
  cases ht
  unfold takeBack around
  exact congrArg (Surroundings.mk · tokens calls) hset

end Scopes

/-- A run goes on without touching a scope: what is in it stays, and what was replied about it.
Tokens may be given out meanwhile, and other scopes may change. -/
structure Stage.Leaves (k : Nat) (stage after : Stage) : Prop where
  cells : after.scopes.cells[k]? = stage.scopes.cells[k]?
  replies : after.repliesAt k = stage.repliesAt k

/-- A run goes on and takes no token back. -/
structure Stage.Draws (stage after : Stage) : Prop where
  source : after.scopes.tokens.source = stage.scopes.tokens.source
  used : stage.scopes.tokens.used ≤ after.scopes.tokens.used

namespace Stage

theorem Draws.trans {last : Stage} (h : stage.Draws after) (h' : after.Draws last) :
    stage.Draws last :=
  ⟨h'.source.trans h.source, h.used.trans h'.used⟩

/-- No token that was given out is given out again. -/
def Apart (stage : Stage) : Prop :=
  stage.scopes.tokens.DistinctBelow stage.scopes.tokens.used

/-- If the tokens are apart in the end, they were before. -/
theorem Draws.apart (h : stage.Draws after) (hafter : after.Apart) : stage.Apart :=
  (hafter.mono h.used).of_source h.source.symm

/-- A reply given at `k` is the latest of the replies at `k`. -/
theorem repliesAt_cons_self (scopes : Scopes) (reply : Reply) :
    ({ stage with scopes, replies := (some k, reply) :: stage.replies } : Stage).repliesAt k =
      reply :: stage.repliesAt k := by
  simp [repliesAt]

/-- A reply given elsewhere is no reply at `k`. -/
theorem repliesAt_cons_of_ne {place : Option Nat} (h : place ≠ some k) (scopes : Scopes)
    (reply : Reply) :
    ({ stage with scopes, replies := (place, reply) :: stage.replies } : Stage).repliesAt k =
      stage.repliesAt k := by
  simp [repliesAt, h]

end Stage

namespace Act

/-- An act draws its tokens from the one supply of the stage. -/
theorem draws_runAt (place : Option Nat) (act : Act) (stage : Stage) :
    stage.Draws (act.runAt registry order place stage) := by
  cases act with
  | render source data =>
    obtain ⟨hsource, hused⟩ :=
      registry.tokens_renderTemplate source data (stage.scopes.around place)
    exact ⟨hsource, hused⟩
  | _ => exact ⟨rfl, Nat.le_refl _⟩

theorem draws_runEach (acts : List (Option Nat × Act)) (stage : Stage) :
    stage.Draws (runEach registry order acts stage) := by
  induction acts generalizing stage with
  | nil => exact ⟨rfl, Nat.le_refl _⟩
  | cons p rest ih => exact (draws_runAt p.1 p.2 stage).trans (ih _)

/-- An act leaves the scopes alone that it is not about. -/
theorem leaves_runAt {place : Option Nat} {act : Act} (hplace : act.scope? place = place)
    (hk : place ≠ some k) (stage : Stage) :
    stage.Leaves k (act.runAt registry order place stage) := by
  refine ⟨?_, Stage.repliesAt_cons_of_ne hk _ _⟩
  rw [← hplace] at hk
  cases act with
  | render source data =>
    show (stage.scopes.takeBack place _).cells[k]? = _
    unfold Scopes.takeBack
    dsimp only
    split
    · rename_i i scope _
      exact List.getElem?_set_ne fun hi => hk (congrArg some hi)
    · rfl
  | looks => rfl
  | asksFor i name => rfl
  | counts i => rfl
  | _ i => exact List.getElem?_set_ne fun hi => hk (congrArg some hi)

/-- Acts leave a scope alone that none of them is about. -/
theorem leaves_runEach {acts : List (Option Nat × Act)} (hplaces : ∀ p ∈ acts, p.2.scope? p.1 = p.1)
    (hk : ∀ p ∈ acts, p.1 ≠ some k) (stage : Stage) :
    stage.Leaves k (runEach registry order acts stage) := by
  induction acts generalizing stage with
  | nil => exact ⟨rfl, rfl⟩
  | cons p rest ih =>
    rw [List.forall_mem_cons] at hplaces hk
    have hfirst : stage.Leaves k (p.2.runAt registry order p.1 stage) :=
      leaves_runAt hplaces.1 hk.1 stage
    have hrest := ih hplaces.2 hk.2 (p.2.runAt registry order p.1 stage)
    exact ⟨hrest.cells.trans hfirst.cells, hrest.replies.trans hfirst.replies⟩

end Act

/-! ## The same up to the names of tokens -/

variable {pairs more : List (Token × Token)}

/-- Scopes with the same in them up to the names of tokens: the same fragments, and tokens that wait
for jobs that end alike. How long a job takes may differ. -/
structure PageScope.Renamed (pairs : List (Token × Token)) (s s' : PageScope) : Prop where
  fragments : ∀ name, List.Forall₂ (Denotes pairs) (s.blocks.pending name) (s'.blocks.pending name)
  pending : List.Forall₂ (Pending.Renamed pairs) s.deferrals.pending s'.deferrals.pending

/-- Two texts, into which values were put, that are the same up to the names of tokens as the texts
before were, if no mark comes about apart from tokens. The names may be said of more tokens than
stand in the texts. -/
def TokenValues.FillAlike (pairs : List (Token × Token)) (values : TokenValues)
    (given given' text text' : String) : Prop :=
  ∀ more, pairs ⊆ more → Renaming more → ∀ gs hs, Glyph.Renamed more gs hs →
    written gs = given.toList → written hs = given'.toList →
      Token.isMarked (String.ofList (Glyph.cleared values gs)) = false → Denotes more text text'

/-- Replies that are the same up to the names of tokens. Texts that values were put into are the
same if they are so under every larger renaming, and no mark comes about in them apart from tokens.
-/
inductive Reply.Renamed (pairs : List (Token × Token)) : Reply → Reply → Prop
  | rendered {r r' : Except RenderFailure String} (h : Alike (Denotes pairs) r r') :
      Renamed pairs (.rendered r) (.rendered r')
  | seen (current : Option Nat) : Renamed pairs (.seen current) (.seen current)
  | captured : Renamed pairs .captured .captured
  | emitted {text text' : String} (h : Denotes pairs text text') :
      Renamed pairs (.emitted text) (.emitted text')
  | holds (answer : Bool) : Renamed pairs (.holds answer) (.holds answer)
  | pending (count : Nat) : Renamed pairs (.pending count) (.pending count)
  | finished {given given' text text' : String} {values values' : TokenValues}
      (hgiven : Denotes pairs given given') (hvalues : values.Renamed pairs values')
      (htext : values.FillAlike pairs given given' text text') :
      Renamed pairs (.finished given values text) (.finished given' values' text')

/-- Surroundings with the same in their scopes up to the names of tokens, and the tokens named were
given out in both. -/
structure Surroundings.Renamed (pairs : List (Token × Token)) (a a' : Surroundings) : Prop where
  scope : ∃ s s', a.scope = some s ∧ a'.scope = some s' ∧ s.Renamed pairs s'
  given : a.tokens.HasGiven (pairs.map Prod.fst)
  given' : a'.tokens.HasGiven (pairs.map Prod.snd)

/-- Two runs have the same in a scope, and the same replies about it, up to the names of tokens.
Nothing is said of other scopes, of the scope that is current, or of how many tokens were given out.
-/
structure Stage.SameAt (k : Nat) (pairs : List (Token × Token)) (stage stage' : Stage) : Prop where
  around : (stage.scopes.around (some k)).Renamed pairs (stage'.scopes.around (some k))
  replies : List.Forall₂ (Reply.Renamed pairs) (stage.repliesAt k) (stage'.repliesAt k)

theorem TokenValues.Renamed.mono {values values' : TokenValues} (hsub : pairs ⊆ more)
    (h : values.Renamed pairs values') : values.Renamed more values' :=
  List.Forall₂.imp (fun _ _ h => ⟨hsub h.1, h.2⟩) h

theorem Reply.Renamed.mono {reply reply' : Reply} (hsub : pairs ⊆ more)
    (h : reply.Renamed pairs reply') : reply.Renamed more reply' := by
  cases h with
  | rendered h => exact .rendered (h.imp fun _ _ h => h.mono hsub)
  | seen current => exact .seen current
  | captured => exact .captured
  | emitted h => exact .emitted (h.mono hsub)
  | holds answer => exact .holds answer
  | pending count => exact .pending count
  | finished hgiven hvalues htext =>
    refine .finished (hgiven.mono hsub) (hvalues.mono hsub) fun last hlast => ?_
    exact htext last (List.Subset.trans hsub hlast)

/-- What comes of putting values into a text is the same up to the renaming, if no mark comes about
in it apart from its tokens. -/
theorem Reply.Renamed.finished_text {given given' text text' : String}
    {values values' : TokenValues} (hpairs : Renaming pairs)
    (h : (Reply.finished given values text).Renamed pairs (.finished given' values' text')) :
    ∃ gs, written gs = given.toList ∧ Fills pairs gs given'.toList ∧
      (Token.isMarked (String.ofList (Glyph.cleared values gs)) = false →
        Denotes pairs text text') := by
  cases h with
  | finished hgiven hvalues htext =>
    obtain ⟨gs, hgs, hfills⟩ := hgiven
    obtain ⟨hs, hrenamed, hhs⟩ := hfills.exists_renamed
    exact ⟨gs, hgs, hfills, htext pairs (List.Subset.refl _) hpairs gs hs hrenamed hgs hhs⟩

/-- The texts of replies are the same if the replies are. -/
theorem Reply.texts_renamed {replies replies' : List Reply}
    (h : List.Forall₂ (Reply.Renamed pairs) replies replies') :
    List.Forall₂ (Denotes pairs) (replies.filterMap text?) (replies'.filterMap text?) := by
  refine List.rel_filterMap ?_ h
  intro reply reply' hreply
  cases hreply with
  | rendered hresult =>
    cases hresult with
    | ok htext => exact .some htext
    | error e => exact .none
  | emitted htext => exact .some htext
  | _ => exact .none

namespace Stage.SameAt

/-- Runs that go on without touching the scope have the same in it as before. -/
theorem of_leaves (h : stage.SameAt k pairs stage') (hleaves : stage.Leaves k after)
    (hdraws : stage.Draws after) (hleaves' : stage'.Leaves k after')
    (hdraws' : stage'.Draws after') :
    after.SameAt k pairs after' where
  around := by
    obtain ⟨s, s', hs, hs', hscope⟩ := h.around.scope
    exact
      { scope := ⟨s, s', hleaves.cells.trans hs, hleaves'.cells.trans hs', hscope⟩
        given := h.around.given.later hdraws.source hdraws.used
        given' := h.around.given'.later hdraws'.source hdraws'.used }
  replies := by
    rw [hleaves.replies, hleaves'.replies]
    exact h.replies

/-- The tokens named make a renaming if the tokens of each run are apart. -/
theorem isRenaming (h : stage.SameAt k pairs stage') (hapart : stage.Apart)
    (hapart' : stage'.Apart) :
    Renaming pairs :=
  h.around.given.renaming h.around.given' hapart hapart'

/-- Texts made of the same parts are the same. -/
theorem textAt (h : stage.SameAt k pairs stage') (text : List Wording) :
    Denotes pairs (stage.textAt k text) (stage'.textAt k text) :=
  Wording.join_alike (.refl pairs) .append (Reply.texts_renamed h.replies) text

/-- A reply that is the same about a scope, and what is then the same in it. -/
theorem reply (h : stage.SameAt k pairs stage') (hsub : pairs ⊆ more) {reply reply' : Reply}
    (hreply : reply.Renamed more reply') {scopes scopes' : Scopes}
    (haround : (scopes.around (some k)).Renamed more (scopes'.around (some k))) :
    Stage.SameAt k more { stage with scopes, replies := (some k, reply) :: stage.replies }
      { stage' with scopes := scopes', replies := (some k, reply') :: stage'.replies } where
  around := haround
  replies := by
    rw [Stage.repliesAt_cons_self, Stage.repliesAt_cons_self]
    exact .cons hreply (h.replies.imp fun _ _ h => h.mono hsub)

end Stage.SameAt

/-! ## Acts about one scope -/

/-- Whether a template source calls no deferred helper and no `block` within an expression, if it is
the source of a template. -/
def Registry.sourceIsPrompt (r : Registry) (source : String) : Bool :=
  match Template.compile { preventIndent := r.preventIndent } source with
  | .ok template => template.isPrompt r
  | .error _ => true

/-- Whether an act calls no deferred helper and no `block` within an expression. -/
def Act.isPrompt (r : Registry) : Act → Bool
  | render source _ => r.sourceIsPrompt source
  | _ => true

/-- In scopes with the same in them a source makes the same page, up to the names of tokens, and
leaves the same in them. -/
theorem Registry.Steady.renderTemplate_renamed (hsteady : registry.Steady)
    (hpartials : registry.PartialsPrompt) {source : String}
    (hprompt : registry.sourceIsPrompt source)
    (data : Value) {a a' : Surroundings} (h : a.Renamed pairs a') :
    ∃ more, pairs ⊆ more ∧
      Alike (Denotes more) (registry.renderTemplate source data a).1
        (registry.renderTemplate source data a').1 ∧
      (registry.renderTemplate source data a).2.Renamed more
        (registry.renderTemplate source data a').2 := by
  unfold sourceIsPrompt at hprompt
  unfold renderTemplate
  cases hcompile : Template.compile { preventIndent := registry.preventIndent } source with
  | ok template =>
    rw [hcompile] at hprompt
    let p : Passage :=
      { registry
        verbatim := hsteady.verbatim
        source := a.tokens.source
        other := some a'.tokens.source }
    have hself : p.otherRegistry = registry := Passage.otherRegistry_self rfl
    obtain ⟨s, s', hs, hs', hscope⟩ := h.scope
    have hstart : p.Arounds pairs a a' :=
      { scope := ⟨s, s', hs, hs', hscope.fragments, hscope.pending⟩
        source_eq := rfl
        drawn := ⟨Nat.zero_le _, h.given⟩
        beside := by
          rintro _ ⟨⟩
          exact ⟨rfl, h.given'⟩
        calls := .inr hsteady }
    obtain ⟨more, hsub, hafter, hresult⟩ := p.render_follows data registry.recursiveLookup rfl
      hpartials hprompt hstart
    rw [Passage.inOther, hself] at hafter hresult
    obtain ⟨t, t', ht, ht', hscopes⟩ := hafter.scope
    refine ⟨more, hsub, hresult, ⟨t, t', ht, ht', hscopes.fragments, hscopes.waits⟩, ?_, ?_⟩
    · exact hafter.drawn.2.later hafter.source_eq (Nat.le_refl _)
    · exact (hafter.beside _ rfl).2
  | error e => exact ⟨pairs, List.Subset.refl _, .error _, h⟩

/-- Surroundings are renamed part by part, so that their scope may be exchanged for a renamed one.
-/
theorem Surroundings.Renamed.withScope {a a' : Surroundings} (h : a.Renamed pairs a')
    {s s' : PageScope} (hscope : s.Renamed pairs s') :
    Surroundings.Renamed pairs { a with scope := some s } { a' with scope := some s' } :=
  ⟨⟨s, s', rfl, rfl, hscope⟩, h.given, h.given'⟩

/-- The values that scopes with the same in them wait for are the same. -/
theorem PageScope.Renamed.finish {s s' : PageScope} (h : s.Renamed pairs s')
    (hpairs : Renaming pairs) :
    s.finish.1.Renamed pairs s'.finish.1 ∧ s.finish.2.Renamed pairs s'.finish.2 :=
  ⟨settle_renamed hpairs h.pending, h.fragments, .nil⟩

/-- In whatever order values are put in, the texts are the same that come of it. -/
theorem TokenValues.fillAlike {values values' : TokenValues}
    (hvalues : values.Renamed pairs values')
    (hnodup : (values.map Prod.fst).Nodup) (hnodup' : (values'.map Prod.fst).Nodup)
    (horder : (order values).Perm values) (horder' : (order' values').Perm values')
    (given given' : String) :
    values.FillAlike pairs given given' (substitute given (order values))
      (substitute given' (order' values')) := by
  intro more hsub hmore gs hs hrenamed hgs hhs hmark
  have h := substitute_renamed hmore (hvalues.mono hsub) hnodup hnodup' horder horder'
    hrenamed hmark
  rwa [hgs, hhs, String.ofList_toList, String.ofList_toList] at h

namespace Act

/-- An act about a scope does the same in two runs that have the same in it. -/
theorem runAt_renamed (hsteady : registry.Steady) (hpartials : registry.PartialsPrompt)
    (horder : ∀ values, (order values).Perm values)
    (horder' : ∀ values, (order' values).Perm values) (h : stage.SameAt k pairs stage')
    (hpairs : Renaming pairs) {act : Act} (hplace : act.scope? (some k) = some k)
    (hprompt : act.isPrompt registry) :
    ∃ more, pairs ⊆ more ∧
      (act.runAt registry order (some k) stage).SameAt k more
        (act.runAt registry order' (some k) stage') := by
  obtain ⟨s, s', hs, hs', hscope⟩ := h.around.scope
  have hget := Scopes.get_of_around hs
  have hget' := Scopes.get_of_around hs'
  cases act with
  | render source data =>
    obtain ⟨more, hsub, hresult, hafter⟩ :=
      hsteady.renderTemplate_renamed hpartials hprompt data h.around
    -- Only here tokens are drawn, so only here the renaming grows.
    obtain ⟨t, t', ht, ht', -⟩ := hafter.scope
    rw [← Scopes.around_takeBack hs ht, ← Scopes.around_takeBack hs' ht'] at hafter
    exact ⟨more, hsub, h.reply hsub (.rendered hresult) hafter⟩
  | looks => exact ⟨pairs, List.Subset.refl _, h.reply (List.Subset.refl _) (.seen _) h.around⟩
  | capture i name text =>
    obtain rfl : i = k := Option.some.inj hplace
    refine ⟨pairs, List.Subset.refl _, h.reply (List.Subset.refl _) .captured ?_⟩
    rw [hget, hget', Scopes.around_set hs, Scopes.around_set hs']
    exact h.around.withScope
      ⟨Blocks.capture_alike hscope.fragments name (h.textAt text), hscope.pending⟩
  | emit i name =>
    obtain rfl : i = k := Option.some.inj hplace
    have htext : Denotes pairs (s.blocks.emit name).1 (s'.blocks.emit name).1 :=
      .intercalate _ (hscope.fragments name)
    rw [← hget, ← hget'] at htext
    refine ⟨pairs, List.Subset.refl _, h.reply (List.Subset.refl _) (.emitted htext) ?_⟩
    rw [hget, hget', Scopes.around_set hs, Scopes.around_set hs']
    exact h.around.withScope ⟨Blocks.emit_alike hscope.fragments name, hscope.pending⟩
  | asksFor i name =>
    obtain rfl : i = k := Option.some.inj hplace
    have hanswer := Blocks.hasPending_alike hscope.fragments name
    rw [← hget, ← hget'] at hanswer
    refine ⟨pairs, List.Subset.refl _, h.reply (List.Subset.refl _) ?_ h.around⟩
    rw [hanswer]
    exact .holds _
  | counts i =>
    obtain rfl : i = k := Option.some.inj hplace
    have hcount : s.deferrals.count = s'.deferrals.count := hscope.pending.length_eq
    rw [← hget, ← hget'] at hcount
    refine ⟨pairs, List.Subset.refl _, h.reply (List.Subset.refl _) ?_ h.around⟩
    rw [hcount]
    exact .pending _
  | finish i text =>
    obtain rfl : i = k := Option.some.inj hplace
    obtain ⟨hvalues, hrest⟩ := hscope.finish hpairs
    have hfill := TokenValues.fillAlike hvalues (keys_settle _ _).1 (keys_settle _ _).1 (horder _)
      (horder' _) (stage.textAt i text) (stage'.textAt i text)
    have hreply := Reply.Renamed.finished (h.textAt text) hvalues hfill
    rw [← hget, ← hget'] at hreply
    refine ⟨pairs, List.Subset.refl _, h.reply (List.Subset.refl _) hreply ?_⟩
    rw [hget, hget', Scopes.around_set hs, Scopes.around_set hs']
    exact h.around.withScope hrest

/-- Two runs that make the same acts about a scope have the same replies about it and leave the same
in it, whatever else they do. The induction is on the acts about the scope that are still to come:
up to the next of them nothing happens to the scope in either run. -/
theorem runEach_renamed (hsteady : registry.Steady) (hpartials : registry.PartialsPrompt)
    (horder : ∀ values, (order values).Perm values)
    (horder' : ∀ values, (order' values).Perm values) (common : List (Option Nat × Act))
    (hprompt : ∀ p ∈ common, p.2.isPrompt registry) {acts acts' : List (Option Nat × Act)}
    (hplaces : ∀ p ∈ acts, p.2.scope? p.1 = p.1) (hplaces' : ∀ p ∈ acts', p.2.scope? p.1 = p.1)
    (hacts : acts.filter (isAt k) = common) (hacts' : acts'.filter (isAt k) = common)
    (h : stage.SameAt k pairs stage') (hapart : (runEach registry order acts stage).Apart)
    (hapart' : (runEach registry order' acts' stage').Apart) :
    ∃ more, pairs ⊆ more ∧
      (runEach registry order acts stage).SameAt k more (runEach registry order' acts' stage') := by
  have hothers : ∀ {acts : List (Option Nat × Act)}, (∀ p ∈ acts, ¬ isAt k p) →
      ∀ p ∈ acts, p.1 ≠ some k := fun hacts p hp hk => hacts p hp (by simp [isAt, hk])
  induction common generalizing acts acts' stage stage' pairs with
  | nil =>
    rw [List.filter_eq_nil_iff] at hacts hacts'
    refine ⟨pairs, List.Subset.refl _, h.of_leaves ?_ (draws_runEach _ _) ?_ (draws_runEach _ _)⟩
    · exact leaves_runEach hplaces (hothers hacts) stage
    · exact leaves_runEach hplaces' (hothers hacts') stage'
  | cons p common ih =>
    obtain ⟨before, rest, rfl, hbefore, hp, hrest⟩ := List.filter_eq_cons_iff.mp hacts
    obtain ⟨before', rest', rfl, hbefore', -, hrest'⟩ := List.filter_eq_cons_iff.mp hacts'
    obtain ⟨place, act⟩ := p
    obtain rfl : place = some k := by simpa [isAt] using hp
    rw [runEach_append] at hapart hapart' ⊢
    rw [runEach_append]
    rw [List.forall_mem_append, List.forall_mem_cons] at hplaces hplaces'
    rw [List.forall_mem_cons] at hprompt
    -- Up to the act nothing happens to the scope.
    have hleaves : stage.Leaves k (runEach registry order before stage) :=
      leaves_runEach hplaces.1 (hothers hbefore) stage
    have hleaves' : stage'.Leaves k (runEach registry order' before' stage') :=
      leaves_runEach hplaces'.1 (hothers hbefore') stage'
    have hreached := h.of_leaves hleaves (draws_runEach before stage) hleaves'
      (draws_runEach before' stage')
    have hpairs := hreached.isRenaming ((draws_runEach _ _).apart hapart)
      ((draws_runEach _ _).apart hapart')
    obtain ⟨more, hsub, hnext⟩ :=
      runAt_renamed hsteady hpartials horder horder' hreached hpairs hplaces.2.1 hprompt.1
    obtain ⟨last, hsub', hlast⟩ := ih hprompt.2 hplaces.2.2 hplaces'.2.2 hrest hrest' hnext hapart
      hapart'
    exact ⟨last, List.Subset.trans hsub hsub', hlast⟩

end Act

namespace Step

/-- A whole run of steps draws from the one supply. -/
theorem draws_runAll (steps : List Step) (stage : Stage) :
    stage.Draws (runAll registry order steps stage) := by
  rw [runAll_eq]
  exact Act.draws_runEach _ stage

/-- Two runs that make the same acts about one scope, from the same in that scope, have the same
replies about it and leave the same in it, up to a renaming of the tokens that they give out. This
is so if what comes of each helper depends on its arguments alone, neither a deferred helper nor
`block` is called within an expression, and the tokens of each run are apart; the other acts of the
runs, the scopes in which they are made, and the order in which values are put into texts may be
any. After any steps the scope is current that was before them, and the scopes are left alone that
no act is about. -/
theorem runAll_isolated (registry : Registry) (order order' : TokenValues → TokenValues) (k : Nat)
    (stage stage' : Stage) (steps steps' : List Step) :
    (registry.Steady → registry.PartialsPrompt →
      (∀ p ∈ actsAt k stage.current steps, p.2.isPrompt registry) →
      (∀ values, (order values).Perm values) → (∀ values, (order' values).Perm values) →
      (runAll registry order steps stage).Apart → (runAll registry order' steps' stage').Apart →
      actsAt k stage.current steps = actsAt k stage'.current steps' →
      ∀ start, stage.SameAt k start stage' →
        ∃ pairs, start ⊆ pairs ∧ Renaming pairs ∧
          (runAll registry order steps stage).SameAt k pairs
            (runAll registry order' steps' stage')) ∧
    (runAll registry order steps stage).current = stage.current ∧
    ∀ j, (∀ p ∈ allActs stage.current steps, p.1 ≠ some j) →
      (runAll registry order steps stage).scopes.cells[j]? = stage.scopes.cells[j]? := by
  refine ⟨?_, ?_, fun j hj => ?_⟩
  · intro hsteady hpartials hprompt horder horder' hapart hapart' hacts start hstart
    have hends := fun (pairs : List (Token × Token))
      (h : (runAll registry order steps stage).SameAt k pairs
        (runAll registry order' steps' stage')) => h.isRenaming hapart hapart'
    rw [runAll_eq, runAll_eq] at hends ⊢
    rw [runAll_eq] at hapart hapart'
    obtain ⟨pairs, hsub, hsame⟩ := Act.runEach_renamed hsteady hpartials horder horder' _ hprompt
      (scope?_of_mem_allActs steps) (scope?_of_mem_allActs steps') rfl hacts.symm hstart hapart
      hapart'
    exact ⟨pairs, hsub, hends pairs hsame, hsame⟩
  · rw [runAll_eq, Act.current_runEach]
  · rw [runAll_eq]
    exact (Act.leaves_runEach (scope?_of_mem_allActs steps) hj stage).cells

end Step

/-! ## Two scopes -/

/-- A registry with a helper whose value comes later. -/
def lateRegistry : Registry :=
  Registry.standard.withContentBlocks.addHelper "later"
    (.deferred "later" fun _ _ => ⟨.value "late", 0⟩)

/-- The helper that answers late answers steadily. -/
theorem steady_lateRegistry : lateRegistry.Steady := by
  have hblocks : Registry.standard.withContentBlocks.Steady := by
    refine .addHelper (.addHelper Registry.steady_standard ?_ _) ?_ _
    · exact trivial
    · exact trivial
  refine hblocks.addHelper ?_ _
  exact fun _ _ _ => rfl

/-- A registry with a helper that shows how many calls of it came before. -/
def countingRegistry : Registry :=
  Registry.standard.withContentBlocks.addHelper "count"
    (.deferred "count" fun _ earlier => ⟨.value (toString earlier), 0⟩)

/-- Two scopes with nothing in them. -/
def emptyStage : Stage := { scopes := .ofCount 2 }

/-- Two scopes with nothing in them, and other tokens to give out. -/
def laterStage : Stage :=
  { scopes := { Scopes.ofCount 2 with tokens := ⟨fun n => Token.ofNat (100 + n), 0⟩ } }

/-- Two scopes, the second of which holds a fragment and waits for a value. -/
def busyStage : Stage :=
  { scopes :=
      { cells := [{}, ⟨({} : Blocks).capture "a" "left over",
          ⟨[⟨Token.ofNat 0, ⟨.panicked, 5⟩⟩]⟩⟩]
        tokens := { used := 1 } } }

namespace Stage

/-- The texts into which values were put about a scope, the last one first. -/
def finalsAt (stage : Stage) (k : Nat) : List String :=
  (stage.repliesAt k).filterMap fun
    | .finished _ _ text => some text
    | _ => none

/-- The values that were waited for about a scope, the last ones first. -/
def valuesAt (stage : Stage) (k : Nat) : List (List String) :=
  (stage.repliesAt k).filterMap fun
    | .finished _ values _ => some (values.map Prod.snd)
    | _ => none

/-- The replies of two runs about a scope are the same up to a renaming of tokens. -/
def RepliesAlike (k : Nat) (stage stage' : Stage) : Prop :=
  ∃ pairs, Renaming pairs ∧
    List.Forall₂ (Reply.Renamed pairs) (stage.repliesAt k) (stage'.repliesAt k)

/-- Then the values are the same that were waited for. -/
theorem RepliesAlike.valuesAt_eq (h : RepliesAlike k stage stage') :
    stage.valuesAt k = stage'.valuesAt k := by
  obtain ⟨pairs, -, hreplies⟩ := h
  unfold valuesAt
  generalize stage.repliesAt k = replies at hreplies ⊢
  generalize stage'.repliesAt k = replies' at hreplies ⊢
  induction hreplies with
  | nil => rfl
  | cons hreply _ ih =>
    cases hreply with
    | finished _ hvalues _ =>
      have hsnd : ∀ {values values' : TokenValues}, values.Renamed pairs values' →
          values.map Prod.snd = values'.map Prod.snd := fun h => by
        induction h with
        | nil => rfl
        | cons hvalue _ ih => exact congrArg₂ List.cons hvalue.2 ih
      exact congrArg₂ List.cons (hsnd hvalues) ih
    | _ => exact ih

end Stage

namespace Step

/-- A template that captures a fragment with a value to come, and then fails. -/
def failingText : String :=
  "\x7b\x7b#contentFor name\x7d\x7d{{later}}{{/contentFor}}{{none 1}}"

/-- The name of a block. -/
def blockData : Value := .object [("name", .string "a")]

/-- Steps on the first scope: what was captured before a failure is emitted, and gets its value. -/
def alone : List Step :=
  [.enter 0 [.act (.render failingText blockData), .act .looks,
      .act (.render "{{block name}}" blockData)],
    .act (.finish 0 [.aside 0])]

/-- The same with the second scope entered in between, inside the first and around it. -/
def interleaved : List Step :=
  [.enter 0 [.enter 1 [.act (.render "{{later}}" blockData)],
      .act (.render failingText blockData), .act .looks],
    .act (.capture 1 "a" [.literal "other"]),
    .enter 1 [.enter 0 [.act (.render "{{block name}}" blockData)],
      .act (.render "{{block name}}{{later}}" blockData)],
    .act (.finish 0 [.aside 0])]

/-- The first scope has its own fragment and its own value, whatever is done to the second. -/
theorem runAll_interleaved :
    (∃ pairs, Renaming pairs ∧ (runAll lateRegistry id interleaved busyStage).SameAt 0 pairs
      (runAll lateRegistry id alone laterStage)) ∧
    (runAll lateRegistry id interleaved busyStage).finalsAt 0 = ["late"] ∧
    (runAll lateRegistry id interleaved busyStage).current = none := by
  have hperm : ∀ values : TokenValues, (id values).Perm values := fun values => .refl values
  have hstart : busyStage.SameAt 0 [] laterStage :=
    { around :=
        { scope := ⟨{}, {}, rfl, rfl, fun _ => .nil, .nil⟩
          given := TokenSupply.hasGiven_nil _
          given' := TokenSupply.hasGiven_nil _ }
      replies := .nil }
  have hapart : (runAll lateRegistry id interleaved busyStage).Apart :=
    (TokenSupply.distinctBelow_standard (by decide +kernel)).of_source
      (draws_runAll interleaved busyStage).source
  have hapart' : (runAll lateRegistry id alone laterStage).Apart :=
    (TokenSupply.distinctBelow_from (by decide +kernel)).of_source
      (draws_runAll alone laterStage).source
  obtain ⟨hsame, hcurrent, -⟩ :=
    runAll_isolated lateRegistry id id 0 busyStage laterStage interleaved alone
  obtain ⟨pairs, -, hpairs, hsame⟩ := hsame steady_lateRegistry (by decide +kernel)
    (by decide +kernel) hperm hperm hapart hapart' rfl [] hstart
  exact ⟨⟨pairs, hpairs, hsame⟩, by decide +kernel, hcurrent⟩

/-- Steps in which the second scope has the first call of a helper, or the second one. -/
def counted : List Step :=
  [.enter 1 [.act (.render "{{count}}" .null)], .act (.finish 1 [.aside 0])]

/-- A step in which a template compares the token of a value to come with a text. -/
def comparing : Step :=
  .enter 0 [.act (.render "\x7b\x7b#if (eq (later) name)\x7d\x7dyes{{/if}}"
    (.object [("name", .string (Token.ofNat 0))]))]

/-- Steps in which values are put into a text that spells a token. -/
def spelling : List Step :=
  [.enter 0 [.act (.render "{{later}}" .null)], .act (.finish 0 [.literal (Token.ofNat 0)])]

/-- What the premises are for. A helper that counts its calls shows in one scope that it was called
in another. Which tokens are given out shows in a template that compares one with a text, and in a
text that spells one and that values are put into. -/
theorem isolation_needs_premises :
    (actsAt 1 none (.enter 0 [.act (.render "{{count}}" .null)] :: counted) =
        actsAt 1 none counted ∧
      ¬ Stage.RepliesAlike 1
        (runAll countingRegistry id (.enter 0 [.act (.render "{{count}}" .null)] :: counted)
          emptyStage)
        (runAll countingRegistry id counted emptyStage)) ∧
    (¬ Stage.RepliesAlike 0 (runAll lateRegistry id [comparing] emptyStage)
      (runAll lateRegistry id [comparing] laterStage)) ∧
    (runAll lateRegistry id spelling emptyStage).finalsAt 0 = ["late"] ∧
      (runAll lateRegistry id spelling laterStage).finalsAt 0 = [Token.ofNat 0] := by
  refine ⟨⟨rfl, fun h => ?_⟩, fun h => ?_, by decide +kernel, by decide +kernel⟩
  · exact absurd h.valuesAt_eq (by decide +kernel)
  · obtain ⟨pairs, hpairs, hreplies⟩ := h
    have htexts := Reply.texts_renamed hreplies
    have hyes : ((runAll lateRegistry id [comparing] emptyStage).repliesAt 0).filterMap
      Reply.text? = ["yes"] := by decide +kernel
    have hno : ((runAll lateRegistry id [comparing] laterStage).repliesAt 0).filterMap
      Reply.text? = [""] := by decide +kernel
    rw [hyes, hno] at htexts
    obtain ⟨htext, -⟩ := List.forall₂_cons.mp htexts
    exact absurd (htext.eq_of_unmarked hpairs.left_wellFormed (by decide +kernel)) (by decide)

end Step
end Views
