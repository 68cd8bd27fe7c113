import Views.Render.Call
/-!
# Evaluating operands

`Operand.meaning` gives what an operand stands for, and `Operand.word` the name that it is read as
at the head of a tag. A helper applied within an expression may do all that a helper does, so
operands are evaluated in order and in the state of the render.
-/

namespace Views

/-- The helper for a name, or the one that the registry keeps for names without a helper. -/
def Registry.helperFor? (registry : Registry) (name : String) (isBlock : Bool) : Option Helper :=
  (Assoc.find? name registry.helpers).or
    (Assoc.find? (if isBlock then "blockHelperMissing" else "helperMissing") registry.helpers)

namespace Operand

/-- The name that an operand is read as, given what it stands for. -/
def wordOf (operand : Operand) (meaning : Render Arg) : Render String :=
  match operand with
  | name n => pure n
  | path _ spelling => pure spelling
  | literal v => pure v.display
  | apply _ _ _ => do pure (← meaning).resolved.get.display

mutual

/-- What an operand stands for. -/
def meaning (env : RenderEnv) : Operand → Render Arg
  | name n => pure { resolved := .missing, spelling := some n }
  | path reference spelling => do
    pure { resolved := ← Render.follow env reference, spelling := some spelling }
  | literal v => pure { resolved := .value v }
  | apply head args hash => do
    let helperName ← head.wordOf (meaning env head)
    let call : Call :=
      { name := ← head.wordOf (meaning env head)
        args := ← meanings env args
        hash := ← namedMeanings env hash }
    match env.registry.helperFor? helperName false with
    | some helper => pure { resolved := ← call.asOperand env helper }
    | none => Render.fail (.helperNotFound helperName)

/-- What operands stand for, evaluated in order. -/
def meanings (env : RenderEnv) : List Operand → Render (List Arg)
  | [] => pure []
  | operand :: rest => do
    let arg ← meaning env operand
    pure (arg :: (← meanings env rest))

/-- What named operands stand for, evaluated in order. -/
def namedMeanings (env : RenderEnv) : List (String × Operand) → Render (List (String × Arg))
  | [] => pure []
  | (key, operand) :: rest => do
    let arg ← meaning env operand
    pure ((key, arg) :: (← namedMeanings env rest))

end

/-- The name that an operand is read as. -/
def word (env : RenderEnv) (operand : Operand) : Render String :=
  operand.wordOf (operand.meaning env)

end Operand

/-- The call that a tag makes, its arguments evaluated. -/
def Invocation.prepare (env : RenderEnv) (invocation : Invocation) : Render Call := do
  pure
    { name := ← invocation.head.word env
      args := ← Operand.meanings env invocation.args
      hash := ← Operand.namedMeanings env invocation.hash }

end Views
