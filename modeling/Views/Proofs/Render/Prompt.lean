import Views.Render.Page
/-!
# Prompt templates

A deferred helper leaves a token for its value, and `block` writes fragments that may hold tokens.
Where a template computes with what a helper gives, within an expression, neither is to be called:
an operand is prompt if it calls only prompt helpers, and a template if all of its operands are.
The helper that a tag itself calls may be any.

What a template may do with deferred helpers is thereby not restricted where it matters: they may be
called by any tag, within blocks and partials, any number of times. A template that is not prompt
can be rendered as well; only what its operands come to need not be what direct helpers would give.
-/

namespace Views

/-- Whether what is called under a name within an expression is prompt. -/
def Registry.callsPrompt (r : Registry) (name : String) : Bool :=
  (r.helperFor? name false).all Helper.isPrompt

/-- Whether an operand at the head of an expression can only name prompt helpers. Which helper a
computed name leads to is open. -/
def Operand.namesPrompt (r : Registry) : Operand → Bool
  | .name n => r.callsPrompt n
  | .path _ spelling => r.callsPrompt spelling
  | .literal v => r.callsPrompt v.display
  | .apply _ _ _ => r.helpers.all fun p => p.2.isPrompt

mutual

/-- Whether no deferred helper and no `block` is called in an operand. -/
def Operand.isPrompt (r : Registry) : Operand → Bool
  | .name _ => true
  | .path _ _ => true
  | .literal _ => true
  | .apply head args hash =>
    head.namesPrompt r && Operand.isPrompt r head && Operand.arePrompt r args &&
      Operand.namedArePrompt r hash

/-- Whether all of some operands are prompt. -/
def Operand.arePrompt (r : Registry) : List Operand → Bool
  | [] => true
  | operand :: rest => Operand.isPrompt r operand && Operand.arePrompt r rest

/-- Whether all of some named operands are prompt. -/
def Operand.namedArePrompt (r : Registry) : List (String × Operand) → Bool
  | [] => true
  | (_, operand) :: rest => Operand.isPrompt r operand && Operand.namedArePrompt r rest

end

/-- Whether the head and the arguments of a tag are prompt. The helper that the tag calls may be
deferred. -/
def Invocation.isPrompt (r : Registry) (invocation : Invocation) : Bool :=
  invocation.head.isPrompt r && Operand.arePrompt r invocation.args &&
    Operand.namedArePrompt r invocation.hash

mutual

/-- Whether all operands of an element are prompt. -/
def Element.isPrompt (r : Registry) : Element → Bool
  | .text _ => true
  | .comment _ => true
  | .expression invocation _ => invocation.isPrompt r
  | .decorator invocation body => invocation.isPrompt r && bodyIsPrompt r body
  | .block invocation _ body inverse _ =>
    invocation.isPrompt r && bodyIsPrompt r body && bodyIsPrompt r inverse
  | .inclusion invocation body _ _ => invocation.isPrompt r && bodyIsPrompt r body

/-- Whether all operands in a body are prompt. -/
def bodyIsPrompt (r : Registry) : Option Template → Bool
  | none => true
  | some template => Template.isPrompt r template

/-- Whether all operands of a template are prompt. It is decided on the syntax tree and the
registry, without the data: a name counts as calling the helper that is found under it, whatever the
data has, and a name that is computed as calling any. -/
def Template.isPrompt (r : Registry) : Template → Bool
  | .mk _ items => itemsArePrompt r items

/-- Whether all operands of some elements are prompt. -/
def itemsArePrompt (r : Registry) : List (Option Position × Element) → Bool
  | [] => true
  | (_, element) :: rest => Element.isPrompt r element && itemsArePrompt r rest

end

/-- All operands of the partials are prompt. A template may include any of them under a name that is
computed, so all of them count. -/
def Registry.PartialsPrompt (r : Registry) : Prop := ∀ p ∈ r.partials, p.2.isPrompt r = true

instance (r : Registry) : Decidable r.PartialsPrompt :=
  inferInstanceAs (Decidable (∀ p ∈ r.partials, p.2.isPrompt r = true))

/-- All operands of the partials that a block defines are prompt. -/
def BlockContext.PartialsPrompt (r : Registry) (block : BlockContext) : Prop :=
  ∀ p ∈ block.partials, p.2.isPrompt r = true

/-! ## Helpers by name -/

namespace Registry

/-- A helper that is found under a name is one of the registered helpers. -/
theorem mem_of_helperFor? {r : Registry} {name : String} {isBlock : Bool} {helper : Helper}
    (h : r.helperFor? name isBlock = some helper) : ∃ key, (key, helper) ∈ r.helpers := by
  rcases Option.or_eq_some_iff.mp h with h | ⟨-, h⟩
  · exact ⟨_, Assoc.mem_of_find? h⟩
  · exact ⟨_, Assoc.mem_of_find? h⟩

/-- If all helpers are prompt, so is what is called under any name. -/
theorem callsPrompt_of_all {r : Registry} (h : r.helpers.all fun p => p.2.isPrompt)
    (name : String) : r.callsPrompt name := by
  unfold callsPrompt
  cases hfound : r.helperFor? name false with
  | none => rfl
  | some helper =>
    obtain ⟨key, hmem⟩ := mem_of_helperFor? hfound
    exact List.all_eq_true.mp h _ hmem

end Registry

end Views
