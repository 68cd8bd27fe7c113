import Views.Proofs.Render.Following
import Mathlib.Data.List.Nodup
/-!
# Helpers in two renders

What a helper does to the page in the render with tokens is followed by what its counterpart does in
the other render. Most helpers are their own counterparts. The one place where the two renders
differ is `Call.runDeferred`: the token that it writes means the text that `Call.runImmediate`
writes (`Follows.runDeferred`), or goes by another name in the other render
(`Follows.runDeferred_renamed`). A helper with a routine of its own may render its bodies, and is
followed as long as it leaves their texts alone (`Follows.perform`). `Follows.run` puts the helpers
together, and `Follows.asOperand` says that within an expression a prompt helper stands for the same
in both renders.
-/

namespace Views
namespace Passage

variable {p : Passage} {values more : TokenValues}

/-- What the render with tokens is given. -/
def withTokens (p : Passage) (data : Value) (outward : Bool) : RenderEnv :=
  { registry := p.registry, data, outward }

/-- The helper that is called in the other render in place of one. -/
def counterpart (p : Passage) : Helper → Helper
  | .deferred tally start => match p.other with
    | none => .immediate tally fun args earlier => (start args earlier).outcome.shown
    | some _ => .deferred tally start
  | helper => helper

/-- The registry of the other render. -/
def otherRegistry (p : Passage) : Registry :=
  { p.registry with
    helpers := p.registry.helpers.map fun (name, helper) => (name, p.counterpart helper) }

/-- What the other render is given. -/
def inOther (p : Passage) (data : Value) (outward : Bool) : RenderEnv :=
  { registry := p.otherRegistry, data, outward }

/-- If values are written at once, it is the registry of the helpers that do so. -/
theorem otherRegistry_direct (hother : p.other = none) : p.otherRegistry = p.registry.direct := by
  have hcounterpart : p.counterpart = Helper.direct := by
    funext helper
    cases helper with
    | deferred tally start => simp [counterpart, Helper.direct, hother]
    | _ => rfl
  rw [otherRegistry, hcounterpart, Registry.direct]

/-- What the other render is then given. -/
theorem inOther_direct (hother : p.other = none) (data : Value) (outward : Bool) :
    p.inOther data outward = { registry := p.registry.direct, data, outward } := by
  rw [inOther, otherRegistry_direct hother]

/-- If tokens are left in both renders, the registry is the same. -/
theorem otherRegistry_self {source : Nat → Token} (hother : p.other = some source) :
    p.otherRegistry = p.registry := by
  have hcounterpart : p.counterpart = id := by
    funext helper
    cases helper with
    | deferred tally start => simp [counterpart, hother]
    | _ => rfl
  rw [otherRegistry, hcounterpart]
  simp

/-- In the other registry a name leads to the counterpart of what it leads to here. -/
theorem find?_otherRegistry (p : Passage) (name : String) :
    Assoc.find? name p.otherRegistry.helpers =
      (Assoc.find? name p.registry.helpers).map p.counterpart :=
  Assoc.find?_map _ _ _

/-- A name leads to a helper in one render and to its counterpart in the other. -/
theorem helperFor?_otherRegistry (p : Passage) (name : String) (isBlock : Bool) :
    p.otherRegistry.helperFor? name isBlock =
      (p.registry.helperFor? name isBlock).map p.counterpart := by
  rw [Registry.helperFor?, find?_otherRegistry, find?_otherRegistry, Registry.helperFor?]
  cases Assoc.find? name p.registry.helpers <;> rfl

/-! ## Steps of the page -/

/-- Texts that may be written are put on both pages. -/
theorem Follows.emit {a b : String} (h : p.Writes values a b) :
    p.Follows Same values (Render.emit a) (Render.emit b) :=
  .modify fun _ _ _ hsub hst => { hst with out := hst.out.append (h.mono hsub) }

/-- A text of the template itself is written on both sides, where it is indented too. -/
theorem Follows.write (text : String) :
    p.Follows Same values (Render.write text) (Render.write text) := by
  unfold Render.write
  split
  · exact .pure_same ()
  · refine .get_bind fun more st dt _ hst => .set (List.Subset.refl _) ?_
    rw [hst.indent, hst.indentsNext]
    exact { hst with
      atLineEnd := rfl
      produced := rfl
      indentsNext := rfl
      indent := rfl
      out := hst.out.append (.refl _ _ _) }

/-- A value is shown in the same way on both sides: it holds no token. -/
theorem Follows.writeValue (data : Value) (outward : Bool) (v : Value) :
    p.Follows Same values (Render.writeValue (p.withTokens data outward) v)
      (Render.writeValue (p.inOther data outward) v) := by
  refine .get_bind fun more st dt _ hst => ?_
  rw [hst.escapes]
  split
  · exact Follows.write _ more st dt (List.Subset.refl _) hst
  · exact Follows.write _ more st dt (List.Subset.refl _) hst

/-- What is captured is related as what is written. Within a plain passage nothing but a plain one
may be captured. -/
theorem Follows.capture {x y : Render Unit} (plain : Bool) (hplain : p.plain → plain)
    (h : { p with plain }.Follows Same values x y) :
    p.Follows { p with plain }.Writes values (Render.capture x) (Render.capture y) := by
  intro more st dt hsub hst
  have hstart := hst.withOut plain (Writes.refl { p with plain } more "")
  obtain ⟨more', hsub', hst', hends⟩ := h more _ _ hsub hstart
  rw [FollowsAt, Render.run_capture, Render.run_capture]
  generalize x.run _ = left at hst' hends
  generalize y.run _ = right at hst' hends
  obtain ⟨r, st'⟩ := left
  obtain ⟨r', dt'⟩ := right
  cases hends with
  | ok hab =>
    exact ⟨more', hsub', hst'.withOut p.plain (hst.out.mono hsub'), .ok hst'.out⟩
  | error e =>
    exact ⟨more', hsub', hst'.withOut p.plain (hst'.out.withPlain hplain), .error e⟩

/-- A block is entered on both sides. -/
theorem Follows.pushBlock {block : BlockContext} (h : block.PartialsPrompt p.registry) :
    p.Follows Same values (Render.pushBlock block) (Render.pushBlock block) :=
  .modify fun _ _ _ _ hst => { hst with
    blocks := congrArg (block :: ·) hst.blocks
    prompt := List.forall_mem_cons.mpr ⟨h, hst.prompt⟩ }

/-- A block is left on both sides. -/
theorem Follows.popBlock : p.Follows Same values Render.popBlock Render.popBlock :=
  .modify fun _ _ _ _ hst => { hst with
    blocks := congrArg (List.drop 1) hst.blocks
    prompt := fun block hmem => hst.prompt block (List.mem_of_mem_drop hmem) }

/-- The innermost block is changed on both sides. -/
theorem Follows.updateBlock {f : BlockContext → BlockContext}
    (h : ∀ block, block.PartialsPrompt p.registry → (f block).PartialsPrompt p.registry) :
    p.Follows Same values (Render.updateBlock f) (Render.updateBlock f) := by
  refine .modify fun more st dt _ hst => ?_
  have hprompt := hst.prompt
  rw [hst.blocks] at hprompt
  rw [hst.blocks]
  cases hblocks : dt.blocks with
  | nil => exact { hst with blocks := rfl, prompt := by simp }
  | cons block outer =>
    rw [hblocks] at hprompt
    obtain ⟨hblock, houter⟩ := List.forall_mem_cons.mp hprompt
    exact { hst with blocks := rfl, prompt := List.forall_mem_cons.mpr ⟨h block hblock, houter⟩ }

/-- Whether values are escaped is set on both sides. -/
theorem follows_setEscapes (escapes : Bool) (values : TokenValues) :
    p.Follows Same values (modify fun st => { st with escapes })
      (modify fun st => { st with escapes }) :=
  .modify fun _ _ _ _ hst => { hst with escapes := rfl }

/-- A piece is indented in both renders or in none. -/
theorem Follows.asPiece {indents : RenderState → Bool} {x y : Render Unit}
    (hindents : ∀ {values st dt}, p.States values st dt → indents st = indents dt)
    (h : p.Follows Same values x y) :
    p.Follows Same values (Render.asPiece indents x) (Render.asPiece indents y) := by
  refine .get_bind fun more before before' hsub hbefore => ?_
  have hstart : p.States more { before with produced := false, indentsNext := indents before }
      { before' with produced := false, indentsNext := indents before' } :=
    { hbefore with produced := rfl, indentsNext := hindents hbefore }
  refine (FollowsAt.set (List.Subset.refl _) hstart).bind fun more' _ _ _ _ hsub' hst _ => ?_
  refine (h more' _ _ (List.Subset.trans hsub hsub') hst).bind fun more'' _ _ _ _ hsub'' hst _ => ?_
  refine ⟨more'', List.Subset.refl _, ?_, .ok rfl⟩
  simp only [Render.run_modify]
  rw [hst.produced]
  split
  · exact { hst with produced := rfl, indentsNext := hst.atLineEnd }
  · exact { hst with produced := hbefore.produced, indentsNext := hbefore.indentsNext }

/-! ## Calls -/

/-- Calls that differ in their bodies alone, and those follow each other. -/
inductive Calls (p : Passage) : Call → Call → Prop
  | of (call : Call) {body body' inverse inverse' : Option (Render Unit)}
      (hbody : Option.Rel (p.Follows Same []) body body')
      (hinverse : Option.Rel (p.Follows Same []) inverse inverse') :
      Calls p { call with body, inverse } { call with body := body', inverse := inverse' }

namespace Calls

variable {call call' : Call}

/-- The calls have the same name. -/
theorem name_eq (h : p.Calls call call') : call.name = call'.name := by cases h; rfl

/-- Both are calls of a block, or neither is. -/
theorem isBlock_eq (h : p.Calls call call') : call.isBlock = call'.isBlock := by cases h; rfl

/-- They have the same arguments, as helpers see them. -/
theorem snapshot_eq (h : p.Calls call call') : call.snapshot = call'.snapshot := by cases h; rfl

/-- Both have a body, or neither has; so with the inverse. -/
theorem occasion_eq (h : p.Calls call call') : call.occasion = call'.occasion := by
  cases h with
  | of call hbody hinverse =>
    unfold Call.occasion
    dsimp only
    rw [isSome_eq_of_rel hbody, isSome_eq_of_rel hinverse]
    rfl

end Calls

namespace Follows

variable {call call' : Call} {data : Value} {outward : Bool}

/-- An argument is asked for on both sides. -/
theorem require (h : p.Calls call call') (helper : String) (index : Nat) :
    p.Follows Same values (call.require helper index) (call'.require helper index) := by
  cases h with
  | of call =>
    unfold Call.require
    cases call.args[index]? with
    | none => exact .fail _
    | some arg => exact .pure_same arg

theorem requireValue (h : p.Calls call call') (index : Nat) (fault : RenderFault) :
    p.Follows Same values (call.requireValue (p.withTokens data outward) index fault)
      (call'.requireValue (p.inOther data outward) index fault) := by
  cases h with
  | of call =>
    unfold Call.requireValue
    cases call.args[index]? with
    | none => exact .fail _
    | some arg =>
      show p.Follows Same values (if p.registry.strict && arg.resolved.isMissing then _ else _)
        (if p.registry.strict && arg.resolved.isMissing then _ else _)
      split
      · exact .fail _
      · exact .pure_same _

/-- Bodies that follow each other are rendered in their place. -/
theorem runBody {body body' : Option (Render Unit)}
    (h : Option.Rel (p.Follows Same []) body body') :
    p.Follows Same values (Call.runBody body) (Call.runBody body') := by
  cases h with
  | none => exact .pure_same ()
  | some h => exact h.anywhere

/-- The inverse is rendered on both sides, or there is none and a value may be missing. -/
theorem runInverse (h : p.Calls call call') (arg : Arg) :
    p.Follows Same values (call.runInverse (p.withTokens data outward) arg)
      (call'.runInverse (p.inOther data outward) arg) := by
  cases h with
  | of call _ hinverse =>
    unfold Call.runInverse
    cases hinverse with
    | some h => exact h.anywhere
    | none =>
      show p.Follows Same values (if p.registry.strict then _ else _)
        (if p.registry.strict then _ else _)
      split
      · exact .fail _
      · exact .pure_same ()

/-- A block that is entered for an argument defines no partials yet. -/
theorem blockOf_partialsPrompt (r : Registry) (arg : Arg) :
    (Call.blockOf arg).PartialsPrompt r := by
  intro q hq
  unfold Call.blockOf at hq
  split at hq <;> cases hq

/-- A turn of a loop leaves alone which partials its block defines. -/
theorem turnBlock_partials (call : Call) (arg : Arg) (count index : Nat) (turn : Call.Turn)
    (block : BlockContext) :
    (call.turnBlock arg count index turn block).partials = block.partials := by
  unfold Call.turnBlock
  rcases call.names with _ | ⟨_, _ | _⟩ <;> cases arg.resolved.path? <;> rfl

/-- One turn after the other: the body follows the body in each. -/
theorem loop (h : p.Calls call call') (arg : Arg) {body body' : Render Unit}
    (hbody : p.Follows Same [] body body') (count index : Nat) (turns : List Call.Turn) :
    p.Follows Same values (call.loop arg body count index turns)
      (call'.loop arg body' count index turns) := by
  cases h
  induction turns generalizing index values with
  | nil => exact .pure_same ()
  | cons turn rest ih =>
    unfold Call.loop
    refine .bind (.updateBlock fun block hblock => ?_) fun _ _ _ _ _ => ?_
    · unfold BlockContext.PartialsPrompt
      rw [turnBlock_partials]
      exact hblock
    · exact .bind (hbody.anywhere) fun _ _ _ _ _ => ih _

/-- The helper that loops does the same on both sides. -/
theorem runEach (h : p.Calls call call') :
    p.Follows Same values (call.runEach (p.withTokens data outward))
      (call'.runEach (p.inOther data outward)) := by
  refine .bind (require h "each" 0) fun more arg arg' _ harg => ?_
  subst harg
  have hinverse : p.Follows Same more (call.runInverse (p.withTokens data outward) arg)
      (call'.runInverse (p.inOther data outward) arg) := runInverse h arg
  have hcalls := h
  cases h with
  | of call hbody hinv =>
    cases hbody with
    | none => exact .pure_same ()
    | some hbody =>
      dsimp only
      split
      · exact hinverse
      · have hsome := isSome_eq_of_rel hinv
        rw [← hsome]
        split
        · exact hinverse
        · refine .bind (.pushBlock (blockOf_partialsPrompt _ _)) fun _ _ _ _ _ => ?_
          exact .bind (loop hcalls _ hbody _ _ _) fun _ _ _ _ _ => .popBlock

/-- The helper that enters a value does the same on both sides. -/
theorem runWith (h : p.Calls call call') :
    p.Follows Same values (call.runWith (p.withTokens data outward))
      (call'.runWith (p.inOther data outward)) := by
  refine .bind (require h "with" 0) fun more arg arg' _ harg => ?_
  subst harg
  have hinverse : p.Follows Same more (call.runInverse (p.withTokens data outward) arg)
      (call'.runInverse (p.inOther data outward) arg) := runInverse h arg
  cases h with
  | of call hbody _ =>
    dsimp only
    split
    · refine .bind (.pushBlock ?_) fun _ _ _ _ _ => ?_
      · split
        · exact blockOf_partialsPrompt p.registry arg
        · exact blockOf_partialsPrompt p.registry arg
      · exact .bind (runBody hbody) fun _ _ _ _ _ => .popBlock
    · exact hinverse

/-- The helper that decides does the same on both sides. -/
theorem runWhen (h : p.Calls call call') (positive : Bool) :
    p.Follows Same values (call.runWhen positive) (call'.runWhen positive) := by
  refine .bind (require h "if" 0) fun more arg arg' _ harg => ?_
  subst harg
  cases h with
  | @of call body body' inverse inverse' hbody hinverse =>
    have hchosen : ∀ first : Bool, Option.Rel (p.Follows Same []) (if first then body else inverse)
        (if first then body' else inverse') := by
      rintro (_ | _)
      · exact hinverse
      · exact hbody
    exact runBody (hchosen _)

/-- The helper that logs does the same on both sides. -/
theorem runLog (h : p.Calls call call') : p.Follows Same values call.runLog call'.runLog := by
  cases h with
  | of call =>
    unfold Call.runLog
    dsimp only [Call.option?]
    split
    · exact .pure_same ()
    · exact .fail _

/-- The helper that looks a field up finds the same on both sides. -/
theorem lookup (h : p.Calls call call') :
    p.Follows Same values (call.lookup (p.withTokens data outward))
      (call'.lookup (p.inOther data outward)) := by
  refine .bind (require h "lookup" 0) fun _ collection collection' _ hcollection => ?_
  refine .bind (require h "lookup" 1) fun more index index' _ hindex => ?_
  subst hcollection hindex
  dsimp only
  split
  · exact .pure_same _
  · show p.Follows Same more (if p.registry.strict then _ else _)
      (if p.registry.strict then _ else _)
    split
    · exact .fail _
    · exact .pure_same _

/-- The helpers of the language give the same value on both sides, or none on either. -/
theorem builtinValue? (h : p.Calls call call') (builtin : Builtin) :
    Option.Rel (p.Follows Same values) (call.builtinValue? (p.withTokens data outward) builtin)
      (call'.builtinValue? (p.inOther data outward) builtin) := by
  have hvalue : ∀ {more} index fault, p.Follows Same more
      (call.requireValue (p.withTokens data outward) index fault)
      (call'.requireValue (p.inOther data outward) index fault) := requireValue h
  cases builtin with
  | lookup => exact .some (lookup h)
  | compare c =>
    refine .some (.bind (hvalue 0 _) fun _ a a' _ ha => ?_)
    refine .bind (hvalue 1 _) fun _ b b' _ hb => ?_
    subst ha hb
    exact .pure_same _
  | all =>
    cases h
    exact .some (.pure_same _)
  | any =>
    cases h
    exact .some (.pure_same _)
  | not =>
    refine .some (.bind (hvalue 0 _) fun _ a a' _ ha => ?_)
    subst ha
    exact .pure_same _
  | len =>
    refine .some (.bind (hvalue 0 _) fun _ a a' _ ha => ?_)
    subst ha
    exact .pure_same _
  | _ => exact .none

theorem value? (h : p.Calls call call') (helper : Helper) :
    Option.Rel (p.Follows Same values) (call.value? (p.withTokens data outward) helper)
      (call'.value? (p.inOther data outward) (p.counterpart helper)) := by
  cases helper with
  | builtin builtin => exact builtinValue? h builtin
  | value compute =>
    cases h with
    | of call =>
      refine .some (.bind (.ofExcept _) fun _ v v' _ hv => ?_)
      subst hv
      exact .pure_same _
  | deferred tally start =>
    have hnone : call'.value? (p.inOther data outward) (p.counterpart (.deferred tally start)) =
        none := by
      unfold counterpart
      cases p.other <;> rfl
    rw [hnone]
    exact .none
  | contentFor | block | immediate | writer | custom => exact .none

/-- A value that a helper gives is shown on both sides. -/
theorem showValue {given given' : Render Resolved} (h : p.Follows Same values given given') :
    p.Follows Same values (Call.showValue (p.withTokens data outward) given)
      (Call.showValue (p.inOther data outward) given') := by
  refine .bind h fun more r r' _ hr => ?_
  subst hr
  show p.Follows Same more (if p.registry.strict && r.isMissing then _ else _)
    (if p.registry.strict && r.isMissing then _ else _)
  split
  · exact .fail _
  · exact .writeValue _ _ _

/-- The name of a content block is the same on both sides. -/
theorem blockName (h : p.Calls call call') (helper : String) :
    p.Follows Same values (call.blockName helper) (call'.blockName helper) := by
  refine .bind (require h helper 0) fun _ arg arg' _ harg => ?_
  subst harg
  split
  · exact .pure_same _
  · exact .fail _

end Follows

/-! ## Scopes -/

/-- Where there is a scope a helper finds it. -/
theorem run_scope {st : RenderState} {s : PageScope} (h : st.around.scope = some s)
    (helper : String) : (Call.scope helper).run st = (.ok s, st) := by
  unfold Call.scope
  rw [Render.run_bind, Render.run_get]
  dsimp only
  rw [h]
  rfl

/-- Where both sides have a scope, what follows goes on with the two scopes. -/
theorem FollowsAt.scope_bind {α β : Type} {rel : TokenValues → α → β → Prop}
    {st dt : RenderState} {s s' : PageScope} {f : PageScope → Render α} {g : PageScope → Render β}
    {helper : String} (hs : st.around.scope = some s) (hs' : dt.around.scope = some s')
    (h : p.FollowsAt rel values st dt (f s) (g s')) :
    p.FollowsAt rel values st dt (Call.scope helper >>= f) (Call.scope helper >>= g) := by
  rw [FollowsAt, Render.run_bind, Render.run_bind, run_scope hs, run_scope hs']
  exact h

/-- A step that asks for the scope goes on from the two scopes. -/
theorem Follows.scope_bind {α β : Type} {rel : TokenValues → α → β → Prop}
    {f : PageScope → Render α} {g : PageScope → Render β} {helper : String}
    (h : ∀ more st dt s s', values ⊆ more → p.States more st dt → p.Scopes more s s' →
      p.FollowsAt rel more st dt (f s) (g s')) :
    p.Follows rel values (Call.scope helper >>= f) (Call.scope helper >>= g) := by
  intro more st dt hsub hst
  obtain ⟨s, s', hs, hs', hscopes⟩ := hst.around.scope
  exact .scope_bind hs hs' (h more st dt s s' hsub hst hscopes)

/-- Scopes that belong beside each other are put back. -/
theorem FollowsAt.setScope {st dt : RenderState} {s s' : PageScope} (hst : p.States values st dt)
    (hscopes : p.Scopes values s s') :
    p.FollowsAt Same values st dt (Call.setScope s) (Call.setScope s') := by
  have haround : p.Arounds values { st.around with scope := some s }
      { dt.around with scope := some s' } :=
    ⟨⟨s, s', rfl, rfl, hscopes⟩, hst.around.source_eq, hst.around.drawn, hst.around.beside,
      hst.around.calls⟩
  exact ⟨values, List.Subset.refl _, { hst with around := haround }, .ok rfl⟩

/-- Scopes stay beside each other when fragments are captured that denote the same. -/
theorem Scopes.capture {s s' : PageScope} (h : p.Scopes values s s') (name : String)
    {fragment fragment' : String} (hfragment : Denotes values fragment fragment') :
    p.Scopes values { s with blocks := s.blocks.capture name fragment }
      { s' with blocks := s'.blocks.capture name fragment' } := by
  exact ⟨Blocks.capture_alike h.fragments name hfragment, h.waits⟩

/-- They stay so when a name is emitted. -/
theorem Scopes.emit {s s' : PageScope} (h : p.Scopes values s s') (name : String) :
    p.Scopes values { s with blocks := (s.blocks.emit name).2 }
      { s' with blocks := (s'.blocks.emit name).2 } := by
  exact ⟨Blocks.emit_alike h.fragments name, h.waits⟩

/-- A token that is given out has a value from then on. -/
theorem Scopes.defer {s s' : PageScope} (h : p.Scopes values s s') (hother : p.other = none)
    (token : Token) (job : Job) :
    p.Scopes (values ++ [(token, job.outcome.shown)])
      { s with deferrals := s.deferrals.defer token job } s' := by
  refine ⟨fun name => ?_, ?_⟩
  · exact (h.fragments name).imp fun _ _ hd => hd.mono (List.subset_append_left _ _)
  · rw [Waits, hother]
    refine ⟨?_, h.settled hother⟩
    show values ++ [_] = p.known ++ (s.deferrals.pending ++ [_]).map Pending.shown
    rw [h.values_eq hother, List.map_append, List.append_assoc]
    rfl

/-- Tokens that are given out in both renders go by the one name and the other from then on. -/
theorem Scopes.defer_renamed {s s' : PageScope} (h : p.Scopes values s s') {source : Nat → Token}
    (hother : p.other = some source) (token token' : Token) {job job' : Job}
    (hjob : job.outcome = job'.outcome) :
    p.Scopes (values ++ [(token, token')])
      { s with deferrals := s.deferrals.defer token job }
      { s' with deferrals := s'.deferrals.defer token' job' } := by
  have hwaits := h.waits
  rw [Waits, hother] at hwaits
  refine ⟨fun name => ?_, ?_⟩
  · exact (h.fragments name).imp fun _ _ hd => hd.mono (List.subset_append_left _ _)
  · rw [Waits, hother]
    refine List.rel_append (hwaits.imp fun _ _ hp => ?_) (.cons ⟨by simp, hjob⟩ .nil)
    exact ⟨List.mem_append_left _ hp.1, hp.2⟩

/-- Drawing the next token keeps the tokens apart. -/
theorem Drawn.draw {used : Nat} (h : p.Drawn values used) (text : String) :
    p.Drawn (values ++ [(p.source used, text)]) (used + 1) := by
  obtain ⟨hbase, hgiven⟩ := h
  refine ⟨by omega, ?_⟩
  rw [List.map_append]
  exact hgiven.draw

/-- If the other render draws no tokens, it has drawn all that it is to draw. -/
theorem drawnBeside_of_none (hother : p.other = none) (values : TokenValues)
    (tokens : TokenSupply) : p.DrawnBeside values tokens := by
  intro source hsource
  rw [hother] at hsource
  cases hsource

/-! ## Helpers -/

namespace Follows

variable {call call' : Call} {data : Value} {outward : Bool}

/-- The helper that captures its body does so on both sides, with texts that denote the same. -/
theorem runContentFor (h : p.Calls call call') :
    p.Follows Same values call.runContentFor call'.runContentFor := by
  refine .bind (blockName h _) fun _ name name' _ hname => ?_
  subst hname
  refine .scope_bind fun _ st dt _ _ hsub hst _ => ?_
  cases h with
  | of call hbody _ =>
    have hcapture : p.Follows p.Writes [] (Render.capture (Call.runBody _))
        (Render.capture (Call.runBody _)) := .capture p.plain id (runBody hbody)
    refine (hcapture _ st dt (List.nil_subset _) hst).bind
      fun more st dt fragment fragment' _ hst hfragment => ?_
    obtain ⟨s, s', hs, hs', hscopes⟩ := hst.around.scope
    exact .scope_bind hs hs' (.setScope hst (hscopes.capture name hfragment.denotes))

/-- The helper that emits a block does so on both sides. It may write tokens, so that texts need not
be plain. -/
theorem runBlock (h : p.Calls call call') (hplain : p.plain = false) :
    p.Follows Same values call.runBlock call'.runBlock := by
  refine .bind (blockName h _) fun _ name name' _ hname => ?_
  subst hname
  refine .scope_bind fun more st dt s s' _ hst hscopes => ?_
  refine (FollowsAt.setScope hst (hscopes.emit name)).bind fun more' st dt _ _ hsub hst _ => ?_
  have htext : Denotes more (s.blocks.emit name).1 (s'.blocks.emit name).1 :=
    .intercalate _ (hscopes.fragments name)
  exact Follows.emit (.of_denotes hplain (htext.mono hsub)) more' st dt (List.Subset.refl _) hst

end Follows

/-- Texts that are given to partials denote the same with more values too. -/
theorem given_mono {st dt : List (Option String)} (hsub : values ⊆ more)
    (h : List.Forall₂ (Option.Rel (Denotes values)) st dt) :
    List.Forall₂ (Option.Rel (Denotes more)) st dt :=
  h.imp fun _ _ hrel => by
    cases hrel with
    | none => exact .none
    | some hrel => exact .some (hrel.mono hsub)

/-- How many calls a tally counts. -/
def earlier (around : Surroundings) (tally : String) : Nat := (around.calls.find? tally).getD 0

/-- What depends on a tally is the same in both surroundings, if it depends on it only where the
tallies are the same. -/
theorem Arounds.apply_earlier {α : Type} {a d : Surroundings} (h : p.Arounds values a d)
    (tally : String) {f : Nat → α} (hsteady : p.registry.Steady → ∀ m n, f m = f n) :
    f (earlier a tally) = f (earlier d tally) := by
  rcases h.calls with hcalls | hcalls
  · rw [earlier, earlier, hcalls]
  · exact hsteady hcalls _ _

/-- One more call may be counted in both surroundings. -/
theorem Arounds.put_calls {a d : Surroundings} (h : p.Arounds values a d) (tally : String) :
    a.calls.put tally (earlier a tally + 1) = d.calls.put tally (earlier d tally + 1) ∨
      p.registry.Steady :=
  h.calls.imp_left fun hcalls => by rw [earlier, earlier, hcalls]

/-- What a deferred helper does: it draws a token, writes it, and has the scope wait for its job. -/
theorem run_runDeferred {st : RenderState} {s : PageScope} (h : st.around.scope = some s)
    (call : Call) (tally : String) (start : Arguments → Nat → Job) :
    (call.runDeferred tally start).run st =
      let token := st.around.tokens.source st.around.tokens.used
      let job := start call.snapshot (earlier st.around tally)
      (.ok (), { st with
        around :=
          { scope := some { s with deferrals := s.deferrals.defer token job }
            tokens := { st.around.tokens with used := st.around.tokens.used + 1 }
            calls := st.around.calls.put tally (earlier st.around tally + 1) }
        out := st.out ++ token }) := by
  unfold Call.runDeferred
  rw [Render.run_bind, run_scope h]
  rfl

/-- The token of a deferred helper means the text that is written at once. If the tallies differ,
the text does not depend on them. -/
theorem Follows.runDeferred {call call' : Call} (h : p.Calls call call') (hplain : p.plain = false)
    {tally : String} {start : Arguments → Nat → Job}
    (hother : p.other = none)
    (hsteady : p.registry.Steady → (Helper.deferred tally start).Steady) :
    p.Follows Same values (call.runDeferred tally start)
      (call'.runImmediate tally fun args earlier => (start args earlier).outcome.shown) := by
  intro more st dt _ hst
  obtain ⟨s, s', hs, hs', hscopes⟩ := hst.around.scope
  have hsource := hst.around.source_eq
  have hshown : (start call.snapshot (earlier st.around tally)).outcome.shown =
      (start call'.snapshot (earlier dt.around tally)).outcome.shown := by
    rw [h.snapshot_eq]
    exact congrArg _ (hst.around.apply_earlier tally fun hall => hsteady hall call'.snapshot)
  generalize hjob : start call.snapshot (earlier st.around tally) = job at hshown
  have hdrawn := hst.around.drawn.draw job.outcome.shown
  rw [← hsource] at hdrawn
  have htoken : Denotes
      (more ++ [(st.around.tokens.source st.around.tokens.used, job.outcome.shown)])
      (st.around.tokens.source st.around.tokens.used)
      (start call'.snapshot (earlier dt.around tally)).outcome.shown := by
    rw [← hshown]
    exact .token (by simp)
  refine ⟨more ++ [(st.around.tokens.source st.around.tokens.used, job.outcome.shown)],
    List.subset_append_left _ _, ?_, ?_⟩
  -- The token that is drawn is new to both renders, and from now on stands for the value.
  · rw [run_runDeferred hs, hjob]
    exact { hst with
      around := ⟨⟨_, s', rfl, hs', hscopes.defer hother _ job⟩, hsource, hdrawn,
        drawnBeside_of_none hother _ _, hst.around.put_calls tally⟩
      given := given_mono (List.subset_append_left _ _) hst.given
      out := (hst.out.mono (List.subset_append_left _ _)).append
        (.of_denotes hplain htoken) }
  · rw [run_runDeferred hs]
    exact .ok rfl

/-- The tokens of a deferred helper go by the one name and the other. -/
theorem Follows.runDeferred_renamed {call call' : Call} (h : p.Calls call call')
    (hplain : p.plain = false) {tally : String} {start : Arguments → Nat → Job}
    {source : Nat → Token} (hother : p.other = some source)
    (hsteady : p.registry.Steady → (Helper.deferred tally start).Steady) :
    p.Follows Same values (call.runDeferred tally start) (call'.runDeferred tally start) := by
  intro more st dt _ hst
  obtain ⟨s, s', hs, hs', hscopes⟩ := hst.around.scope
  have hsource := hst.around.source_eq
  have houtcome : (start call.snapshot (earlier st.around tally)).outcome =
      (start call'.snapshot (earlier dt.around tally)).outcome := by
    rw [h.snapshot_eq]
    exact hst.around.apply_earlier tally fun hall => hsteady hall call'.snapshot
  obtain ⟨hsource', hgiven⟩ := hst.around.beside source hother
  let token := st.around.tokens.source st.around.tokens.used
  let token' := dt.around.tokens.source dt.around.tokens.used
  have hdrawn := hst.around.drawn.draw token'
  rw [← hsource] at hdrawn
  have hbeside : p.DrawnBeside (more ++ [(token, token')])
      { dt.around.tokens with used := dt.around.tokens.used + 1 } := by
    intro source' hmem
    cases hother.symm.trans hmem
    refine ⟨hsource', ?_⟩
    rw [List.map_append]
    exact hgiven.draw
  have htoken : Denotes (more ++ [(token, token')]) token token' := .token (by simp)
  refine ⟨more ++ [(token, token')], List.subset_append_left _ _, ?_, ?_⟩
  · rw [run_runDeferred hs, run_runDeferred hs']
    exact { hst with
      around := ⟨⟨_, _, rfl, rfl, hscopes.defer_renamed hother _ _ houtcome⟩, hsource, hdrawn,
        hbeside, hst.around.put_calls tally⟩
      given := given_mono (List.subset_append_left _ _) hst.given
      out := (hst.out.mono (List.subset_append_left _ _)).append
        (.of_denotes hplain htoken) }
  · rw [run_runDeferred hs, run_runDeferred hs']
    exact .ok rfl

/-- Helpers that are in both registries write the same. -/
theorem Follows.runImmediate {call call' : Call} (h : p.Calls call call') {tally : String}
    {compute : Arguments → Nat → String}
    (hsteady : p.registry.Steady → (Helper.immediate tally compute).Steady) :
    p.Follows Same values (call.runImmediate tally compute) (call'.runImmediate tally compute) := by
  refine .get_bind fun more st dt _ hst => ?_
  have hcompute : compute call.snapshot (earlier st.around tally) =
      compute call'.snapshot (earlier dt.around tally) := by
    rw [h.snapshot_eq]
    exact hst.around.apply_earlier tally fun hall => hsteady hall call'.snapshot
  refine ⟨more, List.Subset.refl _, { hst with
    around := ⟨hst.around.scope, hst.around.source_eq, hst.around.drawn, hst.around.beside,
      hst.around.put_calls tally⟩
    out := hst.out.append ?_ }, .ok rfl⟩
  show p.Writes more (compute call.snapshot (earlier st.around tally))
    (compute call'.snapshot (earlier dt.around tally))
  rw [hcompute]
  exact .refl _ _ _

/-- A body that a helper renders, perhaps at a value of its own, is followed. -/
theorem Follows.runPart {call call' : Call} (h : p.Calls call call') (inverse : Bool)
    (own : Option Value) :
    p.Follows Same values (call.runPart inverse own) (call'.runPart inverse own) := by
  have hpart : ∀ {more}, p.Follows Same more
      (Call.runBody (if inverse then call.inverse else call.body))
      (Call.runBody (if inverse then call'.inverse else call'.body)) := by
    cases h with
    | of call hbody hinverse =>
      cases inverse with
      | true => exact .runBody hinverse
      | false => exact .runBody hbody
  unfold Call.runPart
  cases own with
  | none => exact hpart
  | some v =>
    refine .bind (.pushBlock fun q hq => by cases hq) fun _ _ _ _ _ => ?_
    exact .bind hpart fun _ _ _ _ _ => .popBlock

/-- A routine that does not read the texts of its bodies does the same in both renders. What it has
set aside is written alike from then on. -/
theorem Follows.perform {call call' : Call} {data : Value} {outward : Bool}
    (h : p.Calls call call') {routine : Routine} (hverbatim : routine.Verbatim)
    {aside aside' : List String} (haside : List.Forall₂ (p.Writes values) aside aside') :
    p.Follows Same values (call.perform (p.withTokens data outward) aside routine)
      (call'.perform (p.inOther data outward) aside' routine) := by
  have hlater : ∀ {values more : TokenValues} {aside aside' : List String}, values ⊆ more →
      List.Forall₂ (p.Writes values) aside aside' → List.Forall₂ (p.Writes more) aside aside' :=
    fun hsub haside => haside.imp fun _ _ htext => htext.mono hsub
  induction hverbatim generalizing values aside aside' with
  | done => exact .pure_same ()
  | fail fault => exact .fail fault
  | write text _ ih =>
    have htext := Wording.join_alike (.refl p values) .append haside text
    exact .bind (.emit htext) fun _ _ _ hsub _ => ih (hlater hsub haside)
  | look reference _ ih =>
    refine .get_bind fun more st dt hsub hst => ?_
    rw [hst.blocks]
    exact ih _ (hlater hsub haside) more st dt (List.Subset.refl _) hst
  | place inverse own _ ih =>
    exact .bind (.runPart h inverse own) fun _ _ _ hsub _ => ih (hlater hsub haside)
  | keep inverse own _ ih =>
    have hcapture : p.Follows p.Writes values (Render.capture (call.runPart inverse own))
        (Render.capture (call'.runPart inverse own)) := .capture p.plain id (.runPart h inverse own)
    exact .bind hcapture fun _ _ _ hsub htext => ih (.cons htext (hlater hsub haside))

/-- What a helper of the registry does to the page is followed by what its counterpart does. -/
theorem Follows.run {call call' : Call} {data : Value} {outward : Bool} (h : p.Calls call call')
    (helper : Helper) (hplain : p.plain → helper.isPrompt)
    (hmem : ∃ key, (key, helper) ∈ p.registry.helpers) :
    p.Follows Same values (call.run (p.withTokens data outward) helper)
      (call'.run (p.inOther data outward) (p.counterpart helper)) := by
  obtain ⟨key, hmem⟩ := hmem
  have hsteady : p.registry.Steady → helper.Steady := fun hall => hall _ hmem
  have hnotPlain : ¬ helper.isPrompt → p.plain = false := fun hprompt => by
    simpa using fun hp => hprompt (hplain hp)
  have hvalue : Option.Rel (p.Follows Same values) (call.value? (p.withTokens data outward) helper)
      (call'.value? (p.inOther data outward) (p.counterpart helper)) := Follows.value? h helper
  unfold Call.run
  generalize call.value? (p.withTokens data outward) helper = given at hvalue
  generalize call'.value? (p.inOther data outward) (p.counterpart helper) = given' at hvalue
  -- A call that stands for a value shows it, or decides by it which body to render; the others are
  -- the helpers that do something by themselves.
  cases hvalue with
  | some hgiven =>
    cases helper with
    | builtin builtin =>
      dsimp only [counterpart]
      split
      · refine .bind hgiven fun more r r' _ hr => ?_
        subst hr
        cases h with
        | @of call body body' inverse inverse' hbody hinverse =>
          dsimp only
          split
          · split
            · exact .runBody hbody
            · exact .runBody hinverse
          · exact .emit (.refl _ _ _)
      · exact .showValue hgiven
    | deferred tally start =>
      unfold counterpart
      cases p.other with
      | none => exact .showValue hgiven
      | some source => exact .showValue hgiven
    | _ => exact .showValue hgiven
  | none =>
    cases helper with
    | builtin builtin =>
      cases builtin with
      | when positive => exact .runWhen h positive
      | each => exact .runEach h
      | «with» => exact .runWith h
      | raw =>
        cases h with
        | of call hbody _ => exact .runBody hbody
      | log => exact .runLog h
      | _ => exact .pure_same ()
    | contentFor => exact .runContentFor h
    | block => exact .runBlock h (hnotPlain (by simp [Helper.isPrompt]))
    | deferred tally start =>
      have hplain := hnotPlain (by simp [Helper.isPrompt])
      unfold counterpart
      cases hother : p.other with
      | none => exact .runDeferred h hplain hother hsteady
      | some source => exact .runDeferred_renamed h hplain hother hsteady
    | immediate tally compute => exact .runImmediate h hsteady
    | value compute => exact .pure_same ()
    | writer compute =>
      dsimp only [counterpart]
      rw [h.snapshot_eq]
      refine .bind (.ofExcept _) fun _ text text' _ htext => ?_
      subst htext
      exact .emit (.refl _ _ _)
    | custom routine =>
      dsimp only [counterpart]
      rw [h.occasion_eq]
      exact .perform h (p.verbatim _ hmem _) .nil

/-- A call without bodies is beside itself. -/
theorem Calls.of_bodiless {call : Call} (hbody : call.body = none)
    (hinverse : call.inverse = none) :
    p.Calls call call := by
  obtain ⟨name, args, hash, isBlock, body, inverse, names⟩ := call
  subst hbody hinverse
  exact .of { name, args, hash, isBlock, names } .none .none

/-- What a prompt helper stands for within an expression is the same in both renders. -/
theorem Follows.asOperand {call : Call} {data : Value} {outward : Bool} (hbody : call.body = none)
    (hinverse : call.inverse = none) {helper : Helper} (hprompt : helper.isPrompt)
    (hmem : ∃ key, (key, helper) ∈ p.registry.helpers) :
    p.Follows Same values (call.asOperand (p.withTokens data outward) helper)
      (call.asOperand (p.inOther data outward) (p.counterpart helper)) := by
  have hvalue : Option.Rel (p.Follows Same values) (call.value? (p.withTokens data outward) helper)
      (call.value? (p.inOther data outward) (p.counterpart helper)) :=
    Follows.value? (.of_bodiless hbody hinverse) helper
  unfold Call.asOperand
  generalize call.value? (p.withTokens data outward) helper = given at hvalue
  generalize call.value? (p.inOther data outward) (p.counterpart helper) = given' at hvalue
  cases hvalue with
  | some hgiven => exact hgiven
  | none =>
    refine .get_bind fun more st dt _ hst => ?_
    rw [hst.escapes]
    have hrun : { p with plain := true }.Follows Same more
        (call.run (p.withTokens data outward) helper)
        (call.run (p.inOther data outward) (p.counterpart helper)) :=
      .run (Calls.of_bodiless hbody hinverse) helper (fun _ => hprompt) hmem
    refine Follows.bind (follows_setEscapes false more) (fun _ _ _ hsub _ => ?_) more st dt
      (List.Subset.refl _) hst
    refine .bind (.capture true (fun _ => rfl) (hrun.mono hsub)) fun _ text text' _ htext => ?_
    obtain rfl : text = text' := htext
    exact .bind (follows_setEscapes _ _) fun _ _ _ _ _ => .pure_same _

end Passage
end Views
