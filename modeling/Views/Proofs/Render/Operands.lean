import Views.Proofs.Render.Calls
import Views.Render.Inclusion
/-!
# Operands and partials in two renders

What an operand stands for is the same in both renders if the operand is prompt, so that a tag makes
the same call in both. From this the inclusion of partials follows: the text that a partial is given
may hold tokens, and is only ever written.

The two renders agree on an operand because none of the values that it is computed from is a token.
The data is the same on both sides; a prompt operand calls no helper that would write a token, and a
hash or a parameter of a block is made of operands again. A partial is another matter: its block is
text that was rendered already, and may hold any number of tokens.
-/

namespace Views
namespace Passage

variable {p : Passage} {values more : TokenValues} {data : Value} {outward : Bool}

/-- The same call without bodies in both renders. -/
def Bare : TokenValues → Call → Call → Prop :=
  fun _ call call' => call = call' ∧ call.body = none ∧ call.inverse = none

namespace Follows

/-- A reference means the same on both sides. -/
theorem follow (reference : Reference) :
    p.Follows Same values (Render.follow (p.withTokens data outward) reference)
      (Render.follow (p.inOther data outward) reference) := by
  refine .get_bind fun more st dt _ hst => ?_
  rw [hst.blocks]
  exact Follows.ofExcept _ more st dt (List.Subset.refl _) hst

/-- The word at the head of an expression is the same, and leads to prompt helpers. -/
theorem wordOf_prompt {operand : Operand} {meaning meaning' : Render Arg}
    (hprompt : operand.namesPrompt p.registry) (h : p.Follows Same values meaning meaning') :
    p.Follows (fun _ word word' => word = word' ∧ p.registry.callsPrompt word) values
      (operand.wordOf meaning) (operand.wordOf meaning') := by
  cases operand with
  | name n => exact .pure fun _ _ => ⟨rfl, hprompt⟩
  | path _ spelling => exact .pure fun _ _ => ⟨rfl, hprompt⟩
  | literal v => exact .pure fun _ _ => ⟨rfl, hprompt⟩
  | apply _ _ _ =>
    refine .bind h fun _ arg arg' _ harg => ?_
    subst harg
    exact .pure fun _ _ => ⟨rfl, Registry.callsPrompt_of_all hprompt _⟩

/-- An operand is read as the same name if it means the same. -/
theorem wordOf {operand : Operand} {meaning meaning' : Render Arg}
    (h : p.Follows Same values meaning meaning') :
    p.Follows Same values (operand.wordOf meaning) (operand.wordOf meaning') := by
  cases operand with
  | apply _ _ _ =>
    refine .bind h fun _ arg arg' _ harg => ?_
    subst harg
    exact .pure_same _
  | _ => exact .pure_same _

end Follows

/-- A prompt helper under the name of an expression gives the same in both renders. -/
theorem follows_applied {call : Call} (hbody : call.body = none) (hinverse : call.inverse = none)
    {name : String} (hprompt : p.registry.callsPrompt name) :
    p.Follows Same values
      (match p.registry.helperFor? name false with
        | some helper => do
          pure { resolved := ← call.asOperand (p.withTokens data outward) helper : Arg }
        | none => Render.fail (.helperNotFound name))
      (match p.otherRegistry.helperFor? name false with
        | some helper => do
          pure { resolved := ← call.asOperand (p.inOther data outward) helper : Arg }
        | none => Render.fail (.helperNotFound name)) := by
  rw [helperFor?_otherRegistry]
  cases hfound : p.registry.helperFor? name false with
  | none => exact .fail _
  | some helper =>
    have hhelper : helper.isPrompt := by simpa [Registry.callsPrompt, hfound] using hprompt
    refine .bind (.asOperand hbody hinverse hhelper (Registry.mem_of_helperFor? hfound)) ?_
    intro _ r r' _ hr
    subst hr
    exact .pure_same _

mutual

/-- A prompt operand stands for the same in both renders. -/
theorem follows_meaning (operand : Operand) (h : operand.isPrompt p.registry) :
    p.Follows Same [] (operand.meaning (p.withTokens data outward))
      (operand.meaning (p.inOther data outward)) := by
  match operand, h with
  | .name n, _ => exact .pure_same _
  | .literal v, _ => exact .pure_same _
  | .path reference spelling, _ =>
    unfold Operand.meaning
    refine .bind (.follow reference) fun _ r r' _ hr => ?_
    subst hr
    exact .pure_same _
  | .apply head args hash, h =>
    simp only [Operand.isPrompt, Bool.and_eq_true] at h
    obtain ⟨⟨⟨hnames, hhead⟩, hargs⟩, hhash⟩ := h
    unfold Operand.meaning
    refine .bind (.wordOf_prompt hnames (follows_meaning head hhead).anywhere)
      fun _ name name' _ hname => ?_
    obtain ⟨rfl, hname⟩ := hname
    refine .bind (.wordOf (follows_meaning head hhead).anywhere) fun _ word word' _ hword => ?_
    refine .bind (follows_meanings args hargs).anywhere fun _ xs xs' _ hxs => ?_
    refine .bind (follows_namedMeanings hash hhash).anywhere fun _ ys ys' _ hys => ?_
    subst hword hxs hys
    exact follows_applied rfl rfl hname

theorem follows_meanings (operands : List Operand) (h : Operand.arePrompt p.registry operands) :
    p.Follows Same [] (Operand.meanings (p.withTokens data outward) operands)
      (Operand.meanings (p.inOther data outward) operands) := by
  match operands, h with
  | [], _ => exact .pure_same _
  | operand :: rest, h =>
    simp only [Operand.arePrompt, Bool.and_eq_true] at h
    unfold Operand.meanings
    refine .bind (follows_meaning operand h.1) fun _ x x' _ hx => ?_
    refine .bind (follows_meanings rest h.2).anywhere fun _ xs xs' _ hxs => ?_
    subst hx hxs
    exact .pure_same _

theorem follows_namedMeanings (operands : List (String × Operand))
    (h : Operand.namedArePrompt p.registry operands) :
    p.Follows Same [] (Operand.namedMeanings (p.withTokens data outward) operands)
      (Operand.namedMeanings (p.inOther data outward) operands) := by
  match operands, h with
  | [], _ => exact .pure_same _
  | (key, operand) :: rest, h =>
    simp only [Operand.namedArePrompt, Bool.and_eq_true] at h
    unfold Operand.namedMeanings
    refine .bind (follows_meaning operand h.1) fun _ x x' _ hx => ?_
    refine .bind (follows_namedMeanings rest h.2).anywhere fun _ xs xs' _ hxs => ?_
    subst hx hxs
    exact .pure_same _

end

namespace Follows

/-- A prompt operand is read as the same name on both sides. -/
theorem word {operand : Operand} (h : operand.isPrompt p.registry) :
    p.Follows Same values (operand.word (p.withTokens data outward))
      (operand.word (p.inOther data outward)) :=
  .wordOf (follows_meaning operand h).anywhere

/-- A tag makes the same call in both renders. -/
theorem prepare {invocation : Invocation} (h : invocation.isPrompt p.registry) :
    p.Follows Bare values (invocation.prepare (p.withTokens data outward))
      (invocation.prepare (p.inOther data outward)) := by
  simp only [Invocation.isPrompt, Bool.and_eq_true] at h
  obtain ⟨⟨hhead, hargs⟩, hhash⟩ := h
  refine .bind (.word hhead) fun _ name name' _ hname => ?_
  refine .bind (follows_meanings _ hargs).anywhere fun _ xs xs' _ hxs => ?_
  refine .bind (follows_namedMeanings _ hhash).anywhere fun _ ys ys' _ hys => ?_
  subst hname hxs hys
  exact .pure fun _ _ => ⟨rfl, rfl, rfl⟩

/-! ## Decorators and partials -/

/-- An inline partial is defined on both sides, and its elements are prompt. -/
theorem runInline {call : Call} (hbody : call.body = none) (hinverse : call.inverse = none)
    {body : Option Template} (h : bodyIsPrompt p.registry body) :
    p.Follows Same values (Render.runInline call body) (Render.runInline call body) := by
  refine .bind (.require (Calls.of_bodiless hbody hinverse) _ _) fun _ arg arg' _ harg => ?_
  subst harg
  split
  · rename_i name template _
    refine .updateBlock fun block hblock q hq => ?_
    rcases Assoc.mem_of_mem_put hq with rfl | hq
    · exact h
    · exact hblock q hq
  · exact .fail _
  · exact .fail _

/-- A decorator does the same on both sides. -/
theorem decorate {invocation : Invocation} (hinvocation : invocation.isPrompt p.registry)
    {body : Option Template} (h : bodyIsPrompt p.registry body) :
    p.Follows Same values (Render.decorate (p.withTokens data outward) invocation body)
      (Render.decorate (p.inOther data outward) invocation body) := by
  refine .bind (.prepare hinvocation) fun _ call call' _ hcall => ?_
  obtain ⟨rfl, hbody, hinverse⟩ := hcall
  split
  · exact .runInline hbody hinverse h
  · exact .fail _

/-- The block of a partial is the same, and no partial is defined in it yet. -/
theorem partialBlock {call : Call} :
    p.Follows (fun _ block block' => block = block' ∧ block.PartialsPrompt p.registry) values
      (Render.partialBlock (p.withTokens data outward) call)
      (Render.partialBlock (p.inOther data outward) call) := by
  unfold Render.partialBlock
  have hnone : ∀ {own names}, BlockContext.PartialsPrompt p.registry { own, names } :=
    fun q hq => by cases hq
  cases call.args.head? with
  | some arg => exact .pure fun _ _ => ⟨rfl, hnone⟩
  | none =>
    refine .bind (.follow _) fun _ r r' _ hr => ?_
    subst hr
    exact .pure fun _ _ => ⟨rfl, hnone⟩

/-- A body that is rendered for its text gives texts that denote the same. -/
theorem bodyText {body body' : Option (Render Unit)}
    (h : Option.Rel (p.Follows Same []) body body') :
    p.Follows (fun more => Option.Rel (Denotes more)) values (Render.bodyText body)
      (Render.bodyText body') := by
  cases h with
  | none => exact .pure fun _ _ => .none
  | some h =>
    refine .bind (.capture p.plain id h.anywhere) fun more text text' _ htext => ?_
    exact .pure fun _ hsub => .some (htext.denotes.mono hsub)

end Follows

/-- A partial that is found in the blocks is one that a block defines. -/
theorem partialsPrompt_of_definedPartial? {r : Registry} {blocks : List BlockContext}
    (h : ∀ block ∈ blocks, block.PartialsPrompt r) {name : String} {template : Template}
    (hfound : Context.definedPartial? blocks name = some template) : template.isPrompt r := by
  obtain ⟨block, hmem, hblock⟩ := List.exists_of_findSome?_eq_some hfound
  exact h block hmem _ (Assoc.mem_of_find? hblock)

/-- The first of two options, or else the second, is related on both sides. -/
theorem rel_or {rel : String → String → Prop} {a a' b b' : Option String}
    (h : Option.Rel rel a a') (h' : Option.Rel rel b b') :
    Option.Rel rel (a.or b) (a'.or b') := by
  cases h with
  | none => exact h'
  | some h => exact .some h

theorem rel_head?_join {rel : String → String → Prop} {xs ys : List (Option String)}
    (h : List.Forall₂ (Option.Rel rel) xs ys) :
    Option.Rel rel xs.head?.join ys.head?.join := by
  cases h with
  | nil => exact .none
  | cons h _ => exact h

/-- Texts that denote the same do so with more values. -/
theorem rel_denotes_mono (hsub : values ⊆ more) {a b : Option String}
    (h : Option.Rel (Denotes values) a b) : Option.Rel (Denotes more) a b := by
  cases h with
  | none => exact .none
  | some h => exact .some (h.mono hsub)

section partials

variable {render render' : Template → Render Unit} {given given' own own' : Option String}
  {name : String} {indent : Option String}

/-- The text that a partial is given may hold tokens. -/
theorem follows_give (h : Option.Rel (Denotes values) own own') :
    p.Follows Same values
      (modify fun st => { st with
        given := own :: st.given
        indent := Render.joinIndents st.indent indent })
      (modify fun st => { st with
        given := own' :: st.given
        indent := Render.joinIndents st.indent indent }) :=
  .modify fun _ _ _ hsub hst => { hst with
    given := .cons (rel_denotes_mono hsub h) hst.given
    indent := by rw [hst.indent] }

/-- The same partial is found in both renders, or texts that are related. -/
theorem Follows.placePartial (hplain : p.plain = false) (hpartials : p.registry.PartialsPrompt)
    (hrender : ∀ t, t.isPrompt p.registry → p.Follows Same [] (render t) (render' t))
    (hgiven : Option.Rel (Denotes values) given given')
    (hown : Option.Rel (Denotes values) own own') :
    p.Follows Same values
      (Render.placePartial (p.withTokens data outward) render name given own indent)
      (Render.placePartial (p.inOther data outward) render' name given' own' indent) := by
  unfold Render.placePartial
  split
  · have htext := rel_or hgiven hown
    generalize given.or own = text at htext
    generalize given'.or own' = text' at htext
    cases htext with
    | none => exact .fail _
    | some htext => exact .emit (.of_denotes hplain htext)
  · refine .get_bind fun more st dt hsub hst => ?_
    rw [hst.blocks]
    dsimp only [withTokens, inOther, otherRegistry]
    have hprompt := hst.prompt
    rw [hst.blocks] at hprompt
    cases hfound : (Context.definedPartial? dt.blocks name).or
        (Assoc.find? name p.registry.partials) with
    | some template =>
      have htemplate : template.isPrompt p.registry := by
        rcases Option.or_eq_some_iff.mp hfound with h | ⟨-, h⟩
        · exact partialsPrompt_of_definedPartial? hprompt h
        · exact hpartials _ (Assoc.mem_of_find? h)
      exact Follows.bind (follows_give (rel_denotes_mono hsub hown))
        (fun _ _ _ _ _ => (hrender template htemplate).anywhere) more st dt (List.Subset.refl _) hst
    | none =>
      cases hown with
      | none => exact Follows.fail _ more st dt (List.Subset.refl _) hst
      | some hown =>
        exact Follows.emit (.of_denotes hplain (hown.mono hsub)) more st dt (List.Subset.refl _) hst

/-- A partial is put in the same place in both renders. -/
theorem Follows.includePartial (hplain : p.plain = false) (hpartials : p.registry.PartialsPrompt)
    (hrender : ∀ t, t.isPrompt p.registry → p.Follows Same [] (render t) (render' t))
    {call : Call} {body body' : Option (Render Unit)}
    (hbody : Option.Rel (p.Follows Same []) body body') :
    p.Follows Same values
      (Render.includePartial (p.withTokens data outward) render call body indent)
      (Render.includePartial (p.inOther data outward) render' call body' indent) := by
  refine .get_bind fun more before before' hsub hbefore => ?_
  rw [hbefore.current]
  split
  · exact Follows.fail _ more before before' (List.Subset.refl _) hbefore
  · refine Follows.bind .partialBlock (fun _ block block' hsub₁ hblock => ?_) more before before'
      (List.Subset.refl _) hbefore
    obtain ⟨rfl, hblock⟩ := hblock
    refine .bind (.pushBlock hblock) fun _ _ _ hsub₂ _ => ?_
    refine .bind (.bodyText hbody) fun _ own own' hsub₃ hown => ?_
    have hsub := List.Subset.trans (List.Subset.trans hsub₁ hsub₂) hsub₃
    have hgiven := rel_denotes_mono hsub (rel_head?_join hbefore.given)
    refine .bind (.placePartial hplain hpartials hrender hgiven hown) fun _ _ _ hsub₄ _ => ?_
    refine .modify fun _ _ _ hsub₅ hst => ?_
    have hsub := List.Subset.trans (List.Subset.trans hsub hsub₄) hsub₅
    exact { hst with
      blocks := hbefore.blocks
      prompt := hbefore.prompt
      given := given_mono hsub hbefore.given
      indent := hbefore.indent
      current := rfl }

end partials

end Passage
end Views
