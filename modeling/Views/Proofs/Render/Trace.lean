import Views.Proofs.Render.Traced
/-!
# What rendering does to content blocks

Templates are rendered once more in traced steps, and without the trace this is what rendering them
is (`Traced.step_renderWithin`). So `Template.trace` is what rendering a template does to content
blocks, and `Template.render_acts` that the surroundings change accordingly.

A trace is a function of the template, the registry, the data and the surroundings, like the text.
The events stand in the order in which the helpers were called, with those of a body before the
capture that it belongs to. If the render fails there is a trace up to that point, and the
surroundings have changed by as much.
-/

namespace Views

open Render

namespace Traced

variable {α : Type}

/-! ## Operands and partials -/

/-- The name that an operand is read as, given what it stands for. -/
def wordOf (operand : Operand) (meaning : Traced Arg) : Traced String :=
  match operand with
  | .name n => pure n
  | .path _ spelling => pure spelling
  | .literal v => pure v.display
  | .apply _ _ _ => do pure (← meaning).resolved.get.display

/-- Reading an operand as a name has no trace of its own. -/
theorem step_wordOf (operand : Operand) (meaning : Traced Arg) :
    (wordOf operand meaning).step = operand.wordOf meaning.step := by
  cases operand with
  | _ => rfl

mutual

/-- What an operand stands for. -/
def meaning (env : RenderEnv) : Operand → Traced Arg
  | .name n => pure { resolved := .missing, spelling := some n }
  | .path reference spelling => do
    pure { resolved := ← still (.follow env reference), spelling := some spelling }
  | .literal v => pure { resolved := .value v }
  | .apply head args hash => do
    let helperName ← wordOf head (meaning env head)
    let call : Call :=
      { name := ← wordOf head (meaning env head)
        args := ← meanings env args
        hash := ← namedMeanings env hash }
    match env.registry.helperFor? helperName false with
    | some helper => pure { resolved := ← asOperand env call helper }
    | none => fail (.helperNotFound helperName)

/-- What operands stand for, evaluated in order. -/
def meanings (env : RenderEnv) : List Operand → Traced (List Arg)
  | [] => pure []
  | operand :: rest => do
    let arg ← meaning env operand
    pure (arg :: (← meanings env rest))

/-- What named operands stand for, evaluated in order. -/
def namedMeanings (env : RenderEnv) : List (String × Operand) → Traced (List (String × Arg))
  | [] => pure []
  | (key, operand) :: rest => do
    let arg ← meaning env operand
    pure ((key, arg) :: (← namedMeanings env rest))

end

mutual

/-- Without the trace an operand means what it means. The recursion is that of the operand. -/
theorem step_meaning (env : RenderEnv) (operand : Operand) :
    (meaning env operand).step = operand.meaning env := by
  match operand with
  | .name n => rfl
  | .path reference spelling => rfl
  | .literal v => rfl
  | .apply head args hash =>
    unfold meaning Operand.meaning
    simp only [step_bind, step_wordOf, step_meaning env head, step_meanings env args,
      step_namedMeanings env hash]
    refine bind_congr fun helperName => bind_congr fun name => ?_
    refine bind_congr fun args => bind_congr fun hash => ?_
    cases env.registry.helperFor? helperName false with
    | some helper => exact congrArg (· >>= _) (step_asOperand env rfl rfl helper)
    | none => rfl

theorem step_meanings (env : RenderEnv) (operands : List Operand) :
    (meanings env operands).step = Operand.meanings env operands := by
  match operands with
  | [] => rfl
  | operand :: rest =>
    unfold meanings Operand.meanings
    simp only [step_bind, step_pure, step_meaning env operand, step_meanings env rest]

theorem step_namedMeanings (env : RenderEnv) (operands : List (String × Operand)) :
    (namedMeanings env operands).step = Operand.namedMeanings env operands := by
  match operands with
  | [] => rfl
  | (key, operand) :: rest =>
    unfold namedMeanings Operand.namedMeanings
    simp only [step_bind, step_pure, step_meaning env operand, step_namedMeanings env rest]

end

section tags

variable (env : RenderEnv)

/-- The name that an operand is read as. -/
def word (operand : Operand) : Traced String := wordOf operand (meaning env operand)

/-- Without the trace an operand is read as the name that it is read as. -/
theorem step_word (operand : Operand) : (word env operand).step = operand.word env := by
  unfold word Operand.word
  rw [step_wordOf, step_meaning]

/-- The call that a tag makes, its arguments evaluated. -/
def prepare (invocation : Invocation) : Traced Call := do
  pure
    { name := ← word env invocation.head
      args := ← meanings env invocation.args
      hash := ← namedMeanings env invocation.hash }

/-- Without the trace a call is prepared as it is. -/
theorem step_prepare (invocation : Invocation) :
    (prepare env invocation).step = invocation.prepare env := by
  unfold prepare Invocation.prepare
  simp only [step_bind, step_pure, step_word, step_meanings, step_namedMeanings]

/-- The call that a tag makes has no bodies yet. -/
theorem prepare_bind_congr {f g : Call → Render α} (invocation : Invocation)
    (h : ∀ call : Call, call.body = none → call.inverse = none → f call = g call) :
    invocation.prepare env >>= f = invocation.prepare env >>= g := by
  unfold Invocation.prepare
  simp only [bind_assoc, pure_bind]
  refine bind_congr fun name => bind_congr fun args => bind_congr fun hash => h _ rfl rfl

/-- Runs a decorator. -/
def decorate (invocation : Invocation) (body : Option Template) : Traced Unit := do
  let call ← prepare env invocation
  if call.name = "inline" then still (.runInline call body) else fail (.decoratorNotFound call.name)

/-- Without the trace a decorator does what it does. -/
theorem step_decorate (invocation : Invocation) (body : Option Template) :
    (decorate env invocation body).step = Render.decorate env invocation body := by
  unfold decorate Render.decorate
  rw [step_bind, step_prepare]
  exact bind_congr fun call => step_ite _ _ _

/-- The text of a body. -/
def bodyText : Option (Traced Unit) → Traced (Option String)
  | some body => do pure (some (← capture body))
  | none => pure none

/-- Without the trace the text of a body is what it is. -/
theorem step_bodyText (body : Option (Traced Unit)) :
    (bodyText body).step = Render.bodyText (body.map step) := by
  cases body with
  | none => rfl
  | some body => rfl

/-- Writes what stands for a partial of a name, in the block of the partial. -/
def placePartial (render : Template → Traced Unit) (name : String) (given own : Option String)
    (indent : Option String) : Traced Unit := do
  if name = partialBlockName then
    match given.or own with
    | some text => still (.emit text)
    | none => fail .partialBlockNotFound
  else
    let defined := Context.definedPartial? (← state).blocks name
    match defined.or (Assoc.find? name env.registry.partials), own with
    | some template, _ => do
      change fun st => { st with
        given := own :: st.given
        indent := joinIndents st.indent indent }
      render template
    | none, some text => still (.emit text)
    | none, none => fail (.partialNotFound name)

/-- Without the trace a partial is put in place, if rendering templates in traced steps is rendering
them. -/
theorem step_placePartial (render : Template → Traced Unit) (name : String)
    (given own : Option String) (indent : Option String) :
    (placePartial env render name given own indent).step =
      Render.placePartial env (fun t => (render t).step) name given own indent := by
  unfold placePartial Render.placePartial
  rw [step_ite]
  refine if_congr Iff.rfl ?_ (bind_congr fun st => ?_)
  · cases given.or own with
    | some text => rfl
    | none => rfl
  · dsimp only
    cases (Context.definedPartial? st.blocks name).or (Assoc.find? name env.registry.partials) with
    | some t => rfl
    | none =>
      cases own with
      | some text => rfl
      | none => rfl

/-- Puts a partial in place of a tag. -/
def includePartial (render : Template → Traced Unit) (call : Call) (body : Option (Traced Unit))
    (indent : Option String) : Traced Unit := do
  let before ← state
  if before.current = some call.name then fail .includesItself
  else
    still (.pushBlock (← still (.partialBlock env call)))
    let own ← bodyText body
    placePartial env render call.name before.given.head?.join own indent
    change fun st => { st with
      blocks := before.blocks
      given := before.given
      indent := before.indent
      current := before.current }

theorem step_includePartial (render : Template → Traced Unit) (call : Call)
    (body : Option (Traced Unit)) (indent : Option String) :
    (includePartial env render call body indent).step =
      Render.includePartial env (fun t => (render t).step) call (body.map step) indent := by
  refine bind_congr fun before => ?_
  rw [step_ite]
  refine if_congr Iff.rfl rfl ?_
  simp only [step_bind, step_bodyText, step_placePartial]
  rfl

/-- Calls the helper for a tag. -/
def runHelper (call : Call) (bodies : Bodies) (indents : Bool) : Traced Unit :=
  match env.registry.helperFor? call.name call.isBlock with
  | some helper =>
    asPiece (fun st => st.indentsNext || (indents && st.atLineEnd)) (run env call bodies helper)
  | none => fail (.helperNotFound call.name)

/-- Without the trace a name is called as a helper. -/
theorem step_runHelper (call : Call) (bodies : Bodies) (indents : Bool) :
    (runHelper env call bodies indents).step =
      Render.runHelper env (call.withBodies bodies) indents := by
  unfold runHelper Render.runHelper
  dsimp only [Call.withBodies]
  cases env.registry.helperFor? call.name call.isBlock with
  | some helper => exact congrArg (Render.asPiece _) (step_run env call bodies helper)
  | none => rfl

/-- Writes what a tag without arguments stands for. -/
def showName (invocation : Invocation) : Traced Unit := do
  let name ← word env invocation.head
  if (Assoc.find? name env.registry.helpers).isSome then
    runHelper env (← prepare env invocation) {} false
  else
    let arg ← meaning env invocation.head
    if !arg.resolved.isMissing then still (.writeValue env arg.resolved.get)
    else if env.registry.strict then fail (.missingVariable arg.spelling)
    else match Assoc.find? "helperMissing" env.registry.helpers with
      | some helper => do run env (← prepare env invocation) {} helper
      | none => pure ()

/-- Without the trace a name is shown. -/
theorem step_showName (invocation : Invocation) :
    (showName env invocation).step = Render.showName env invocation := by
  unfold showName Render.showName
  rw [step_bind, step_word]
  refine bind_congr fun name => ?_
  rw [step_ite, step_bind, step_bind, step_prepare, step_meaning]
  refine if_congr Iff.rfl ?_ (bind_congr fun arg => ?_)
  · refine prepare_bind_congr env invocation fun call hbody hinverse => ?_
    rw [step_runHelper, Call.withBodies_none hbody hinverse]
  · rw [step_ite, step_ite]
    refine if_congr Iff.rfl rfl (if_congr Iff.rfl rfl ?_)
    cases Assoc.find? "helperMissing" env.registry.helpers with
    | none => rfl
    | some helper =>
      dsimp only
      rw [step_bind, step_prepare]
      refine prepare_bind_congr env invocation fun call hbody hinverse => ?_
      rw [step_run, Call.withBodies_none hbody hinverse]

/-- Writes what a tag stands for, with its arguments if it has any. -/
def showTag (invocation : Invocation) : Traced Unit := do
  if invocation.args.isEmpty && invocation.hash.isEmpty then showName env invocation
  else runHelper env (← prepare env invocation) {} false

/-- Without the trace a tag is shown. -/
theorem step_showTag (invocation : Invocation) :
    (showTag env invocation).step = Render.showTag env invocation := by
  unfold showTag Render.showTag
  rw [step_ite, step_showName, step_bind, step_prepare]
  refine if_congr Iff.rfl rfl ?_
  refine prepare_bind_congr env invocation fun call hbody hinverse => ?_
  rw [step_runHelper, Call.withBodies_none hbody hinverse]

/-- Writes what a tag stands for, escaped or as it is. -/
def runExpression (invocation : Invocation) (escaped : Bool) : Traced Unit := do
  if escaped then showTag env invocation
  else
    setEscapes false
    showTag env invocation
    setEscapes true

/-- Without the trace an expression is shown, escaped or not. -/
theorem step_runExpression (invocation : Invocation) (escaped : Bool) :
    (runExpression env invocation escaped).step = Render.runExpression env invocation escaped := by
  unfold runExpression Render.runExpression
  rw [step_ite]
  simp only [step_bind, step_showTag]
  rfl

end tags

/-! ## Templates -/

mutual

/-- What an element does to the page. -/
def element (env : RenderEnv) (render : Template → Traced Unit) : Element → Traced Unit
  | .text content => still (.write content)
  | .comment _ => pure ()
  | .expression invocation escaped => runExpression env invocation escaped
  | .decorator invocation body => decorate env invocation body
  | .block invocation names body inverse indents => do
    let call ← prepare env invocation
    runHelper env { call with isBlock := true, names }
      { body := bodyStep env render body, inverse := bodyStep env render inverse } indents
  | .inclusion invocation body indent indents => do
    let call ← prepare env invocation
    asPiece (fun st => indents && (st.atLineEnd || indent.isSome))
      (includePartial env render call (bodyStep env render body) indent)

/-- The body of a block as a step. -/
def bodyStep (env : RenderEnv) (render : Template → Traced Unit) :
    Option Template → Option (Traced Unit)
  | none => none
  | some t => some (template env render t)

/-- Renders the elements of a template. -/
def template (env : RenderEnv) (render : Template → Traced Unit) : Template → Traced Unit
  | .mk name items => do
    change fun st => { st with current := name }
    runItems env render name items

/-- Renders elements in order. -/
def runItems (env : RenderEnv) (render : Template → Traced Unit) (name : Option String) :
    List (Option Position × Element) → Traced Unit
  | [] => pure ()
  | (place, e) :: rest => do
    mapError (fun e => e.leaving name place) (element env render e)
    runItems env render name rest

end

section templates

variable (env : RenderEnv) (render : Template → Traced Unit)

mutual

/-- Without the trace an element does what it does. One case for each kind of element. -/
theorem step_element (e : Element) :
    (element env render e).step = e.run env fun t => (render t).step := by
  match e with
  | .text content => rfl
  | .comment _ => rfl
  | .expression invocation escaped => exact step_runExpression env invocation escaped
  | .decorator invocation body => exact step_decorate env invocation body
  | .block invocation names body inverse indents =>
    unfold element Element.run
    rw [step_bind, step_prepare]
    refine bind_congr fun call => ?_
    rw [step_runHelper, ← map_step_bodyStep body, ← map_step_bodyStep inverse]
    rfl
  | .inclusion invocation body indent indents =>
    unfold element Element.run
    rw [step_bind, step_prepare]
    refine bind_congr fun call => ?_
    rw [← map_step_bodyStep body, ← step_includePartial]
    rfl

theorem map_step_bodyStep (body : Option Template) :
    (bodyStep env render body).map step = Views.bodyStep env (fun t => (render t).step) body := by
  match body with
  | none => rfl
  | some t => exact congrArg some (step_template t)

theorem step_template (t : Template) :
    (template env render t).step = t.run env fun t => (render t).step := by
  match t with
  | .mk name items =>
    unfold template Template.run
    rw [step_bind, step_runItems name items]
    rfl

theorem step_runItems (name : Option String) (items : List (Option Position × Element)) :
    (runItems env render name items).step =
      Views.runItems env (fun t => (render t).step) name items := by
  match items with
  | [] => rfl
  | (place, e) :: rest =>
    unfold runItems Views.runItems
    rw [step_bind, step_runItems name rest, ← step_element e]
    rfl

end

end templates

/-- Renders a template whose partials nest no deeper than a limit. -/
def renderWithin (env : RenderEnv) : Nat → Template → Traced Unit
  | 0, _ => fail .includedTooDeep
  | limit + 1, t => template env (renderWithin env limit) t

/-- Rendering in traced steps is rendering. The induction is on how deep partials may still nest. -/
theorem step_renderWithin (env : RenderEnv) (limit : Nat) (t : Template) :
    (renderWithin env limit t).step = t.renderWithin env limit := by
  induction limit generalizing t with
  | zero => rfl
  | succ limit ih =>
    have hrender : (fun t => (renderWithin env limit t).step) = Template.renderWithin env limit :=
      funext ih
    unfold renderWithin Template.renderWithin
    rw [step_template, hrender]

end Traced

/-- What rendering a template does to content blocks. -/
def Template.trace (template : Template) (env : RenderEnv) (around : Surroundings) :
    List BlockEvent :=
  (Traced.renderWithin env nestingLimit template).trace { around }

/-- Rendering a template changes what is beyond the page by actions of helpers alone, and content
blocks as the trace says, whether it succeeds or fails. -/
theorem Template.render_acts (template : Template) (env : RenderEnv) (around : Surroundings) :
    around.Reaches (template.trace env around) (template.render env around).2 := by
  have h := (Traced.renderWithin env nestingLimit template).reaches { around }
  rw [Traced.step_renderWithin] at h
  exact h

end Views
