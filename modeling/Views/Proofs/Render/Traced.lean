import Views.Proofs.Render.Footprint
/-!
# Steps with a trace

A `Traced` step is a step of rendering with the captures and emissions it makes from each state, and
the proof that the surroundings change accordingly. Helpers are called once more in traced steps,
and without the trace this is what calling them is (`Traced.step_run`, `Traced.step_asOperand`).
Only two of them have something to trace themselves: `Traced.runContentFor` captures a fragment
after what its body does, and `Traced.runBlock` emits a text.

The proof comes along with the step, in one structure, so that a template which is put together from
traced steps has its proof without an induction of its own. What is left to show is only that the
traced steps do what the plain ones do.
-/

namespace Views

open Render

/-- A step of rendering with what it does to content blocks from each state, and the proof that the
surroundings change by that and by nothing else. -/
structure Traced (α : Type) where
  step : Render α
  trace : RenderState → List BlockEvent
  reaches : ∀ st : RenderState, st.around.Reaches (trace st) (step.run st).2.around

/-- The bodies of a block as traced steps. -/
structure Bodies where
  body : Option (Traced Unit) := none
  inverse : Option (Traced Unit) := none

/-- The call with bodies, without their traces. -/
def Call.withBodies (call : Call) (bodies : Bodies) : Call :=
  { call with
    body := bodies.body.map Traced.step
    inverse := bodies.inverse.map Traced.step }

/-- A call that has no bodies is as it is with none. -/
theorem Call.withBodies_none {call : Call} (hbody : call.body = none)
    (hinverse : call.inverse = none) : call.withBodies {} = call := by
  cases call
  cases hbody
  cases hinverse
  rfl

namespace Traced

variable {α β : Type}

/-- A silent step has nothing to trace. -/
def still {x : Render α} (h : x.Silent) : Traced α where
  step := x
  trace _ := []
  reaches := h

/-- What a traced step does that follows another, which may have failed. -/
def traceAfter (f : α → Traced β) : Except RenderFailure α × RenderState → List BlockEvent
  | (.ok a, st) => (f a).trace st
  | (.error _, _) => []

/-- Two traced steps one after the other change the surroundings as the first trace says, and then
as the second one does, unless the first step fails. -/
theorem reaches_bind (x : Traced α) (f : α → Traced β) (st : RenderState) :
    st.around.Reaches (x.trace st ++ traceAfter f (x.step.run st))
      ((x.step >>= fun a => (f a).step).run st).2.around := by
  have hx := x.reaches st
  rw [run_bind]
  generalize x.step.run st = out at hx
  obtain ⟨r, st'⟩ := out
  cases r with
  | ok a => exact hx.trans ((f a).reaches st')
  | error e => exact hx.trans (.refl _)

instance : Monad Traced where
  pure a := still (.pure a)
  bind x f :=
    { step := x.step >>= fun a => (f a).step
      trace := fun st => x.trace st ++ traceAfter f (x.step.run st)
      reaches := reaches_bind x f }

@[simp] theorem step_pure (a : α) : (pure a : Traced α).step = pure a := rfl

@[simp] theorem step_bind (x : Traced α) (f : α → Traced β) :
    (x >>= f).step = x.step >>= fun a => (f a).step := rfl

@[simp] theorem step_still {x : Render α} (h : x.Silent) : (still h).step = x := rfl

/-- Of two traced steps one is taken, and its step with it. -/
theorem step_ite (c : Prop) [Decidable c] (x y : Traced α) :
    (if c then x else y).step = if c then x.step else y.step := apply_ite step c x y

/-! ## Steps of the page -/

/-- The state at hand. -/
def state : Traced RenderState := still .get

/-- Changes the state, but not what is beyond the page. -/
def change (f : RenderState → RenderState)
    (h : ∀ st, (f st).around = st.around := by exact fun _ => rfl) : Traced Unit :=
  still (.modify h)

/-- Sets whether values are written with special characters escaped. -/
def setEscapes (escapes : Bool) : Traced Unit := change fun st => { st with escapes }

/-- Fails. -/
def fail (fault : RenderFault) : Traced α := still (.fail fault)

/-- The text that a step writes, taken off the page. -/
def capture (x : Traced Unit) : Traced String where
  step := Render.capture x.step
  trace st := x.trace { st with out := "" }
  reaches st := by
    have hx := x.reaches { st with out := "" }
    rw [run_capture]
    generalize x.step.run { st with out := "" } = out at hx
    obtain ⟨r, st'⟩ := out
    cases r with
    | ok a => exact hx
    | error e => exact hx

/-- Capturing a traced body captures what the body writes. -/
theorem step_capture (x : Traced Unit) : (capture x).step = Render.capture x.step := rfl

/-- Marks text as a piece of its own. -/
def asPiece (indents : RenderState → Bool) (x : Traced Unit) : Traced Unit where
  step := Render.asPiece indents x.step
  trace st := x.trace { st with produced := false, indentsNext := indents st }
  reaches st := by
    have hx := x.reaches { st with produced := false, indentsNext := indents st }
    unfold Render.asPiece
    rw [run_bind, run_get]
    dsimp only
    rw [run_bind, run_set]
    dsimp only
    rw [run_bind]
    generalize x.step.run { st with produced := false, indentsNext := indents st } = out at hx
    obtain ⟨r, st'⟩ := out
    cases r with
    | ok a =>
      dsimp only [run_modify]
      split
      · exact hx
      · exact hx
    | error e => exact hx

/-- Changes the error that a step fails with. -/
def mapError (f : RenderFailure → RenderFailure) (x : Traced Unit) : Traced Unit where
  step := tryCatch x.step fun e => throw (f e)
  trace := x.trace
  reaches st := by
    have hx := x.reaches st
    rw [run_tryCatch]
    generalize x.step.run st = out at hx
    obtain ⟨r, st'⟩ := out
    cases r with
    | ok a => exact hx
    | error e => exact hx

/-! ## Calls -/

/-- Runs one of the bodies of a block. -/
def runBody : Option (Traced Unit) → Traced Unit
  | some body => body
  | none => pure ()

@[simp] theorem step_runBody (body : Option (Traced Unit)) :
    (runBody body).step = Call.runBody (body.map step) := by
  cases body with
  | none => rfl
  | some body => rfl

section calls

variable (env : RenderEnv) (call : Call) (bodies : Bodies)

/-- Runs the inverse for a value that a block has no use for. -/
def runInverse (arg : Arg) : Traced Unit :=
  match bodies.inverse with
  | some body => body
  | none => if env.registry.strict then fail (.missingVariable arg.spelling) else pure ()

/-- Without the trace the inverse is rendered in its place. -/
theorem step_runInverse (arg : Arg) :
    (runInverse env bodies arg).step = (call.withBodies bodies).runInverse env arg := by
  unfold runInverse Call.runInverse Call.withBodies
  cases bodies.inverse with
  | none => exact step_ite _ _ _
  | some body => rfl

/-- Runs the body of a loop for its turns. -/
def loop (arg : Arg) (body : Traced Unit) (count : Nat) : Nat → List Call.Turn → Traced Unit
  | _, [] => pure ()
  | index, turn :: rest => do
    still (.updateBlock (call.turnBlock arg count index turn))
    body
    loop arg body count (index + 1) rest

/-- Without the trace a loop takes its turns. The induction is on the turns that are left. -/
theorem step_loop (arg : Arg) (body : Traced Unit) (count index : Nat) (turns : List Call.Turn) :
    (loop call arg body count index turns).step =
      (call.withBodies bodies).loop arg body.step count index turns := by
  induction turns generalizing index with
  | nil => rfl
  | cons turn rest ih =>
    unfold loop Call.loop
    simp only [step_bind, ih]
    rfl

/-- Runs the body for each member of the first argument. -/
def runEach : Traced Unit := do
  let arg ← still (.require call "each" 0)
  match bodies.body with
  | none => pure ()
  | some body =>
    match Call.turns? arg.resolved.get with
    | none => runInverse env bodies arg
    | some turns =>
      if turns.isEmpty && bodies.inverse.isSome then runInverse env bodies arg
      else
        still (.pushBlock (Call.blockOf arg))
        loop call arg body turns.length 0 turns
        still .popBlock

/-- Without the trace the helper that loops does what it does. -/
theorem step_runEach : (runEach env call bodies).step = (call.withBodies bodies).runEach env := by
  refine bind_congr fun arg => ?_
  have hinverse := step_runInverse env call bodies arg
  rcases bodies with ⟨_ | body, inverse⟩
  · rfl
  · dsimp only [Call.withBodies, Option.map_some] at hinverse ⊢
    cases Call.turns? arg.resolved.get with
    | none => exact hinverse
    | some turns =>
      dsimp only
      rw [step_ite]
      refine if_congr (by rw [Option.isSome_map]) hinverse ?_
      simp only [step_bind, step_loop call { body := some body, inverse }]
      rfl

/-- Runs the body at the first argument. -/
def runWith : Traced Unit := do
  let arg ← still (.require call "with" 0)
  if arg.resolved.get.holds false then
    let block := Call.blockOf arg
    still <| .pushBlock <| match call.names with
      | some ⟨name, none⟩ => { block with names := [(name, Call.bound arg arg.resolved.get)] }
      | _ => block
    runBody bodies.body
    still .popBlock
  else runInverse env bodies arg

theorem step_runWith : (runWith env call bodies).step = (call.withBodies bodies).runWith env := by
  refine bind_congr fun arg => ?_
  rw [step_ite, step_runInverse env call]
  refine if_congr Iff.rfl ?_ rfl
  simp only [step_bind, step_runBody]
  rfl

/-- Runs the body or the inverse by whether the first argument holds. -/
def runWhen (positive : Bool) : Traced Unit := do
  let arg ← still (.require call "if" 0)
  let includeZero := ((call.option? "includeZero").bind Value.asBool?).getD false
  runBody (if arg.resolved.get.holds includeZero == positive then bodies.body else bodies.inverse)

theorem step_runWhen (positive : Bool) :
    (runWhen call bodies positive).step = (call.withBodies bodies).runWhen positive := by
  refine bind_congr fun arg => ?_
  dsimp only
  rw [step_runBody, apply_ite (Option.map step)]
  rfl

/-- Captures a fragment in the scope. -/
def keep (name fragment : String) : Traced Unit where
  step := do
    let now ← Call.scope "contentFor"
    Call.setScope { now with blocks := now.blocks.capture name fragment }
  trace st := if st.around.scope.isSome then [.captured name fragment] else []
  reaches st := by
    cases hscope : st.around.scope with
    | some now =>
      rw [run_bind, Passage.run_scope hscope]
      exact .single (.capture hscope name fragment)
    | none =>
      obtain ⟨e, he⟩ := Silent.run_scope_none hscope "contentFor"
      rw [run_bind, he]
      exact .refl _

/-- Captures the body as a fragment of a content block. -/
def runContentFor : Traced Unit := do
  let name ← still (.blockName call "contentFor")
  let _ ← still (.scope "contentFor")
  let fragment ← capture (runBody bodies.body)
  keep name fragment

theorem step_runContentFor :
    (runContentFor call bodies).step = (call.withBodies bodies).runContentFor := by
  refine bind_congr fun name => bind_congr fun _ => ?_
  rw [step_bind, step_capture, step_runBody]
  rfl

/-- Emits the fragments of a name in the scope. -/
def drain (name : String) : Traced Unit where
  step := do
    let now ← Call.scope "block"
    let (text, blocks) := now.blocks.emit name
    Call.setScope { now with blocks }
    Render.emit text
  trace st := match st.around.scope with
    | some now => [.emitted name (now.blocks.emit name).1]
    | none => []
  reaches st := by
    cases hscope : st.around.scope with
    | some now =>
      rw [run_bind, Passage.run_scope hscope]
      exact .single (.emit hscope name)
    | none =>
      obtain ⟨e, he⟩ := Silent.run_scope_none hscope "block"
      rw [run_bind, he]
      exact .refl _

/-- Writes the fragments of a content block. -/
def runBlock : Traced Unit := do
  drain (← still (.blockName call "block"))

theorem step_runBlock : (runBlock call).step = call.runBlock := rfl

/-- What a helper gives within an expression, if it gives a value. -/
def value? (helper : Helper) : Option (Traced Resolved) :=
  (call.value? env helper).pmap (fun _ h => still h) (Silent.value? env call helper)

theorem map_step_value? (helper : Helper) :
    (value? env call helper).map step = call.value? env helper := by
  unfold value?
  rw [Option.map_pmap]
  simp

/-- Writes the value that a helper gives. -/
def showValue (given : Traced Resolved) : Traced Unit := do
  let r ← given
  if env.registry.strict && r.isMissing then fail (.missingVariable none)
  else still (.writeValue env r.get)

/-- Without the trace a value is shown. -/
theorem step_showValue (given : Traced Resolved) :
    (showValue env given).step = Call.showValue env given.step :=
  bind_congr fun _ => step_ite _ _ _

/-- Runs one of the bodies of a block for a helper. -/
def runPart (inverse : Bool) (own : Option Value) : Traced Unit :=
  let part := runBody (if inverse then bodies.inverse else bodies.body)
  match own with
  | some v => do
    still (.pushBlock { own := some v })
    part
    still .popBlock
  | none => part

/-- Without the trace a helper of its own has a body rendered. -/
theorem step_runPart (inverse : Bool) (own : Option Value) :
    (runPart bodies inverse own).step = (call.withBodies bodies).runPart inverse own := by
  have hpart : (runBody (if inverse then bodies.inverse else bodies.body)).step =
      Call.runBody (if inverse then (call.withBodies bodies).inverse
        else (call.withBodies bodies).body) := by
    rw [step_runBody, apply_ite (Option.map step)]
    rfl
  unfold runPart Call.runPart
  cases own with
  | none => exact hpart
  | some v =>
    simp only [step_bind, hpart]
    rfl

/-- Does what a routine says. -/
def perform (aside : List String) : Routine → Traced Unit
  | .done => pure ()
  | .fail fault => fail fault
  | .write text next => do
    still (.emit (Wording.join aside text))
    perform aside next
  | .look reference next => do
    let found := Context.lookup env.outward env.data (← state).blocks reference
    perform aside (next found)
  | .place inverse own next => do
    runPart bodies inverse own
    perform aside next
  | .keep inverse own next => do
    let text ← capture (runPart bodies inverse own)
    perform (text :: aside) next
  | .take inverse own next => do
    let text ← capture (runPart bodies inverse own)
    perform aside (next text)

/-- Without the trace a routine does what it does. The induction is on the routine. -/
theorem step_perform (aside : List String) (routine : Routine) :
    (perform env bodies aside routine).step =
      (call.withBodies bodies).perform env aside routine := by
  induction routine generalizing aside with
  | done => rfl
  | fail fault => rfl
  | write text next ih => exact bind_congr fun _ => ih aside
  | look reference next ih => exact bind_congr fun st => ih _ aside
  | place inverse own next ih =>
    unfold perform Call.perform
    rw [step_bind, step_runPart call]
    exact bind_congr fun _ => ih aside
  | keep inverse own next ih =>
    unfold perform Call.perform
    rw [step_bind, step_capture, step_runPart call]
    exact bind_congr fun text => ih _
  | take inverse own next ih =>
    unfold perform Call.perform
    rw [step_bind, step_capture, step_runPart call]
    exact bind_congr fun text => ih _ aside

/-- What a helper does to the page. -/
def run (helper : Helper) : Traced Unit :=
  match value? env call helper with
  | some given =>
    match helper with
    | .builtin b =>
      if Call.decides b then do
        let r ← given
        if call.isBlock then
          runBody (if r.get.holds false then bodies.body else bodies.inverse)
        else still (.emit r.get.display)
      else showValue env given
    | _ => showValue env given
  | none =>
    match helper with
    | .builtin (.when positive) => runWhen call bodies positive
    | .builtin .each => runEach env call bodies
    | .builtin .with => runWith env call bodies
    | .builtin .raw => runBody bodies.body
    | .builtin .log => still (.runLog call)
    | .contentFor => runContentFor call bodies
    | .block => runBlock call
    | .deferred tally start => still (.runDeferred call tally start)
    | .immediate tally compute => still (.runImmediate call tally compute)
    | .writer compute => do still (.emit (← still (.ofExcept (compute call.snapshot))))
    | .custom routine => perform env bodies [] (routine (call.withBodies bodies).occasion)
    | _ => pure ()

/-- Without the trace a helper is called. One case for each kind of helper. -/
theorem step_run (helper : Helper) :
    (run env call bodies helper).step = (call.withBodies bodies).run env helper := by
  have hvalue := map_step_value? env call helper
  unfold run Call.run
  have hsame : (call.withBodies bodies).value? env helper = call.value? env helper := rfl
  rw [hsame, ← hvalue]
  cases value? env call helper with
  | some given =>
    dsimp only [Option.map_some]
    cases helper with
    | builtin b =>
      dsimp only
      rw [step_ite, step_showValue]
      refine if_congr Iff.rfl (bind_congr fun r => ?_) rfl
      rw [step_ite, step_runBody, apply_ite (Option.map step)]
      rfl
    | _ => exact step_showValue env given
  | none =>
    dsimp only [Option.map_none]
    cases helper with
    | builtin b =>
      cases b with
      | when positive => exact step_runWhen call bodies positive
      | each => exact step_runEach env call bodies
      | «with» => exact step_runWith env call bodies
      | raw => exact step_runBody _
      | _ => rfl
    | contentFor => exact step_runContentFor call bodies
    | custom routine => exact step_perform env call bodies [] _
    | _ => rfl

/-- What a helper stands for within an expression. -/
def asOperand (helper : Helper) : Traced Resolved :=
  match value? env call helper with
  | some given => given
  | none => do
    let escaped := (← state).escapes
    setEscapes false
    let text ← capture (run env call {} helper)
    setEscapes escaped
    pure (.value (.string text))

/-- Without the trace a helper is called within an expression. -/
theorem step_asOperand {call : Call} (hbody : call.body = none) (hinverse : call.inverse = none)
    (helper : Helper) : (asOperand env call helper).step = call.asOperand env helper := by
  have hvalue := map_step_value? env call helper
  unfold asOperand Call.asOperand
  rw [← hvalue]
  cases value? env call helper with
  | some given => rfl
  | none =>
    refine bind_congr fun st => bind_congr fun _ => ?_
    rw [step_bind, step_capture, step_run, Call.withBodies_none hbody hinverse]
    rfl

end calls

end Traced
end Views
