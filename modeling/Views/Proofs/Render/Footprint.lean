import Views.Proofs.Blocks
import Views.Proofs.Render.Calls
import Views.Render.Page
/-!
# What helpers do beyond the page

A helper does four things beyond the page: it gives out a token, counts a call, captures a fragment,
or takes the fragments of a content block. `Surroundings.Step` lists them, with what each does to
content blocks, and `Surroundings.Reaches` is any number of them. Tokens are then given out in order
(`Reaches.draws`), and blocks stay in keeping with what was done to them (`Reaches.accounts`). Most
steps of rendering are silent: they leave content blocks alone.

That rendering a whole template is a number of such steps and nothing else is proved together with
its trace, in the modules on traces. What is shown here of `Surroundings.Reaches` then holds of
whole templates, about tokens as well as about blocks, without another induction over them.
-/

namespace Views

/-- What one action of a helper does beyond the page, and to content blocks. There are four kinds of
actions, and only two of them are events of the blocks. -/
inductive Surroundings.Step : Surroundings → List BlockEvent → Surroundings → Prop
  | defer {around : Surroundings} {scope : PageScope} (h : around.scope = some scope) (job : Job)
      (calls : Assoc String Nat) :
      Step around []
        { scope := some { scope with
            deferrals := scope.deferrals.defer (around.tokens.source around.tokens.used) job }
          tokens := { around.tokens with used := around.tokens.used + 1 }
          calls }
  | count (around : Surroundings) (calls : Assoc String Nat) : Step around [] { around with calls }
  | capture {around : Surroundings} {scope : PageScope} (h : around.scope = some scope)
      (name fragment : String) :
      Step around [.captured name fragment]
        { around with scope := some { scope with blocks := scope.blocks.capture name fragment } }
  | emit {around : Surroundings} {scope : PageScope} (h : around.scope = some scope)
      (name : String) :
      Step around [.emitted name (scope.blocks.emit name).1]
        { around with scope := some { scope with blocks := (scope.blocks.emit name).2 } }

/-- The surroundings after some actions of helpers, and what these did to content blocks. -/
inductive Surroundings.Reaches : Surroundings → List BlockEvent → Surroundings → Prop
  | refl (around : Surroundings) : Reaches around [] around
  | tail {before now after : Surroundings} {events more : List BlockEvent}
      (h : Reaches before events now) (hstep : now.Step more after) :
      Reaches before (events ++ more) after

namespace Surroundings.Reaches

variable {before now after : Surroundings} {events more : List BlockEvent}

/-- One action of a helper is a change with one event, if the action has one. -/
theorem single (h : before.Step events after) : before.Reaches events after := (refl before).tail h

theorem trans (h : before.Reaches events now) (h' : now.Reaches more after) :
    before.Reaches (events ++ more) after := by
  induction h' with
  | refl => rwa [List.append_nil]
  | tail _ hstep ih =>
    rw [← List.append_assoc]
    exact ih.tail hstep

end Surroundings.Reaches

/-- What the tokens that were given out since have in common: each is the next of the supply, and
the scope waits for it. -/
structure Surroundings.Draws (before after : Surroundings) (s s' : PageScope)
    (batch : List Pending) : Prop where
  source_eq : after.tokens.source = before.tokens.source
  used_eq : after.tokens.used = before.tokens.used + batch.length
  pending_eq : s'.deferrals.pending = s.deferrals.pending ++ batch
  tokens_eq : batch.map Pending.token =
    (List.range' before.tokens.used batch.length).map before.tokens.source

/-- Helpers give out tokens in order, and leave none of them out. -/
theorem Surroundings.Reaches.draws {before after : Surroundings} {events : List BlockEvent}
    {s : PageScope} (h : before.Reaches events after) (hs : before.scope = some s) :
    ∃ s' batch, after.scope = some s' ∧ before.Draws after s s' batch := by
  induction h with
  | refl => exact ⟨s, [], hs, rfl, rfl, (List.append_nil _).symm, rfl⟩
  | @tail now _ _ _ _ hstep ih =>
    obtain ⟨s', batch, hs', hdraws⟩ := ih
    cases hstep with
    | defer hscope job calls =>
      cases hs'.symm.trans hscope
      let drawn : Pending := ⟨now.tokens.source now.tokens.used, job⟩
      refine ⟨_, batch ++ [drawn], rfl, hdraws.source_eq, ?_, ?_, ?_⟩
      · simp [hdraws.used_eq, Nat.add_assoc]
      · simp [drawn, Deferrals.defer, hdraws.pending_eq]
      · simp [drawn, hdraws.tokens_eq, hdraws.source_eq, hdraws.used_eq, List.range'_concat]
    | count calls =>
      exact ⟨s', batch, hs', hdraws.source_eq, hdraws.used_eq, hdraws.pending_eq, hdraws.tokens_eq⟩
    | capture hscope name fragment =>
      cases hs'.symm.trans hscope
      exact ⟨_, batch, rfl, hdraws.source_eq, hdraws.used_eq, hdraws.pending_eq, hdraws.tokens_eq⟩
    | emit hscope name =>
      cases hs'.symm.trans hscope
      exact ⟨_, batch, rfl, hdraws.source_eq, hdraws.used_eq, hdraws.pending_eq, hdraws.tokens_eq⟩

/-- Blocks that account for what was done to them before do so for what helpers do. -/
theorem Surroundings.Reaches.accounts {before after : Surroundings}
    {earlier events : List BlockEvent} {s : PageScope} (h : before.Reaches events after)
    (hs : before.scope = some s) (hblocks : s.blocks.Accounts earlier) :
    ∃ s', after.scope = some s' ∧ s'.blocks.Accounts (earlier ++ events) := by
  induction h with
  | refl => exact ⟨s, hs, by rwa [List.append_nil]⟩
  | tail _ hstep ih =>
    obtain ⟨s', hs', hblocks'⟩ := ih
    rw [← List.append_assoc]
    cases hstep with
    | defer hscope job calls =>
      cases hs'.symm.trans hscope
      exact ⟨_, rfl, by rwa [List.append_nil]⟩
    | count calls => exact ⟨s', hs', by rwa [List.append_nil]⟩
    | capture hscope name fragment =>
      cases hs'.symm.trans hscope
      exact ⟨_, rfl, hblocks'.capture name fragment⟩
    | emit hscope name =>
      cases hs'.symm.trans hscope
      exact ⟨_, rfl, hblocks'.emit name⟩

namespace Render

variable {α β : Type} {st : RenderState}

/-- From a given state, a step leaves content blocks alone. -/
def SilentAt (x : Render α) (st : RenderState) : Prop := st.around.Reaches [] (x.run st).2.around

/-- A step leaves content blocks alone. -/
def Silent (x : Render α) : Prop := ∀ st, x.SilentAt st

/-- A step that leaves the surroundings as they are is silent. -/
theorem SilentAt.of_eq {x : Render α} (h : (x.run st).2.around = st.around) : x.SilentAt st := by
  rw [SilentAt, h]
  exact .refl _

/-- A step that is silent here goes on silently if what follows is silent anywhere. -/
theorem SilentAt.bind {x : Render α} {f : α → Render β} (hx : x.SilentAt st)
    (hf : ∀ a, (f a).Silent) : (x >>= f).SilentAt st := by
  unfold SilentAt at hx ⊢
  rw [run_bind]
  generalize x.run st = out at hx
  obtain ⟨r, st'⟩ := out
  cases r with
  | ok a => exact hx.trans (hf a st')
  | error e => exact hx

namespace Silent

theorem pure (a : α) : (Pure.pure a : Render α).Silent := fun _ => .of_eq rfl

/-- A step that fails at once is silent: what was done before stands in the trace of what came
before. -/
theorem throw (e : RenderFailure) : (throwThe RenderFailure e : Render α).Silent :=
  fun _ => .of_eq rfl

/-- The same for a fault that gets its place later. -/
theorem fail (fault : RenderFault) : (Render.fail fault : Render α).Silent := .throw _

/-- A result that is at hand is given silently, be it good or bad. -/
theorem ofExcept (r : Except RenderFault α) : (Render.ofExcept r).Silent := by
  cases r with
  | ok a => exact .pure a
  | error fault => exact .fail fault

/-- Silent steps one after the other are a silent step. -/
theorem bind {x : Render α} {f : α → Render β} (hx : x.Silent) (hf : ∀ a, (f a).Silent) :
    (x >>= f).Silent :=
  fun st => (hx st).bind hf

/-- To look at the state changes nothing beyond the page. -/
theorem get : (MonadState.get : Render RenderState).Silent := fun _ => .of_eq rfl

/-- What comes after a look at the state need only be silent at the state that was seen. -/
theorem get_bind {f : RenderState → Render β} (h : ∀ st, (f st).SilentAt st) :
    (MonadState.get >>= f).Silent :=
  fun st => h st

/-- A change of the state is silent if it leaves the surroundings alone. -/
theorem modify {f : RenderState → RenderState} (h : ∀ st, (f st).around = st.around) :
    (modify f : Render Unit).Silent :=
  fun st => .of_eq (h st)

/-! ## Steps of the page -/

/-- Text that is put on the page is no event: only blocks have a trace. -/
theorem emit (text : String) : (Render.emit text).Silent := .modify fun _ => rfl

theorem write (text : String) : (Render.write text).Silent := by
  unfold Render.write
  split
  · exact .pure ()
  · exact .get_bind fun st => .of_eq rfl

theorem writeValue (env : RenderEnv) (v : Value) : (Render.writeValue env v).Silent := by
  refine .bind .get fun st => ?_
  split
  · exact .write _
  · exact .write _

/-- Blocks of the template language are entered silently; they are not content blocks. -/
theorem pushBlock (block : BlockContext) : (Render.pushBlock block).Silent := .modify fun _ => rfl

/-- They are left silently. -/
theorem popBlock : Render.popBlock.Silent := .modify fun _ => rfl

/-- They are changed silently. -/
theorem updateBlock (f : BlockContext → BlockContext) : (Render.updateBlock f).Silent :=
  .modify fun _ => rfl

/-- A reference is followed silently. -/
theorem follow (env : RenderEnv) (reference : Reference) : (Render.follow env reference).Silent :=
  .bind .get fun _ => .ofExcept _

/-! ## Calls -/

variable (env : RenderEnv) (call : Call)

/-- An argument is asked for silently. -/
theorem require (helper : String) (index : Nat) : (call.require helper index).Silent := by
  unfold Call.require
  split
  · exact .pure _
  · exact .fail _

/-- The value of an argument is asked for silently. -/
theorem requireValue (index : Nat) (fault : RenderFault) :
    (call.requireValue env index fault).Silent := by
  unfold Call.requireValue
  split
  · split
    · exact .fail _
    · exact .pure _
  · exact .fail _

/-- The helper that logs does nothing beyond the page. -/
theorem runLog : call.runLog.Silent := by
  unfold Call.runLog
  dsimp only
  split
  · exact .pure ()
  · exact .fail _

/-- The helper that looks a field up does nothing beyond the page. -/
theorem lookup : (call.lookup env).Silent := by
  refine .bind (.require _ _ _) fun collection => .bind (.require _ _ _) fun index => ?_
  dsimp only
  split
  · exact .pure _
  · split
    · exact .fail _
    · exact .pure _

/-- The helpers of the language that give a value do nothing beyond the page. -/
theorem builtinValue? (builtin : Builtin) :
    ∀ given ∈ call.builtinValue? env builtin, given.Silent := by
  intro given hgiven
  cases builtin with
  | lookup =>
    cases hgiven
    exact .lookup env call
  | compare c =>
    cases hgiven
    refine .bind (.requireValue env call _ _) fun a => ?_
    exact .bind (.requireValue env call _ _) fun b => .pure _
  | all =>
    cases hgiven
    exact .pure _
  | any =>
    cases hgiven
    exact .pure _
  | not =>
    cases hgiven
    exact .bind (.requireValue env call _ _) fun a => .pure _
  | len =>
    cases hgiven
    exact .bind (.requireValue env call _ _) fun a => .pure _
  | _ => cases hgiven

/-- No helper that gives a value does anything beyond the page. -/
theorem value? (helper : Helper) : ∀ given ∈ call.value? env helper, given.Silent := by
  intro given hgiven
  cases helper with
  | builtin builtin => exact builtinValue? env call builtin given hgiven
  | value compute =>
    cases hgiven
    exact .bind (.ofExcept _) fun v => .pure _
  | _ => cases hgiven

/-- The name of a content block is read silently, before anything is done to the block. -/
theorem blockName (helper : String) : (call.blockName helper).Silent := by
  refine .bind (.require _ _ _) fun arg => ?_
  split
  · exact .pure _
  · exact .fail _

/-- A helper that needs a scope fails without one, and does nothing. -/
theorem run_scope_none {st : RenderState} (h : st.around.scope = none) (helper : String) :
    ∃ e, (Call.scope helper).run st = (.error e, st) := by
  unfold Call.scope
  rw [run_bind, run_get]
  dsimp only
  rw [h]
  exact ⟨_, rfl⟩

/-- To look for the scope is no event. -/
theorem scope (helper : String) : (Call.scope helper).Silent := by
  refine .bind .get fun st => ?_
  split
  · exact .pure _
  · exact .fail _

/-- A deferred helper draws a token and starts a job. Neither is an event of a content block. -/
theorem runDeferred (tally : String) (start : Arguments → Nat → Job) :
    (call.runDeferred tally start).Silent := by
  intro st
  cases hscope : st.around.scope with
  | some s =>
    rw [SilentAt, Passage.run_runDeferred hscope]
    exact .single (.defer hscope _ _)
  | none =>
    obtain ⟨e, he⟩ := run_scope_none hscope call.name
    refine .of_eq ?_
    unfold Call.runDeferred
    rw [run_bind, he]

/-- A helper that writes its value at once only counts its call. -/
theorem runImmediate (tally : String) (compute : Arguments → Nat → String) :
    (call.runImmediate tally compute).Silent :=
  .get_bind fun st => .single (.count st.around _)

/-! ## Partials -/

/-- An inline partial is defined silently. -/
theorem runInline (body : Option Template) : (Render.runInline call body).Silent := by
  refine .bind (.require _ _ _) fun arg => ?_
  split
  · exact .updateBlock _
  · exact .fail _
  · exact .fail _

/-- The block of a partial is made silently. -/
theorem partialBlock : (Render.partialBlock env call).Silent := by
  unfold Render.partialBlock
  split
  · exact .pure _
  · simp only [pure_bind]
    exact .bind (.follow env _) fun _ => .pure _

end Silent
end Render
end Views
