import Views.Proofs.Render.Operands
import Views.Render.Page
/-!
# Templates in two renders

`Passage.follows_template` goes through a template by recursion on it, and `Passage.follows_render`
by the depth to which partials nest. `Passage.render_follows` is what comes of it: from related
surroundings, the page with tokens means the page of the other render, or both fail in the same way.

Two inductions are needed because a partial may include itself: its text is no part of the template
that includes it. The inner one goes through the elements of a template and takes it for granted
that partials one level deeper follow each other; the outer one is on the level.
-/

namespace Views
namespace Passage

variable {p : Passage} {values : TokenValues} {data : Value} {outward : Bool}

namespace Follows

/-- A name is called as a helper on both sides, as its counterpart on the other one. -/
theorem runHelper {call call' : Call} (h : p.Calls call call') (hplain : p.plain = false)
    (indents : Bool) :
    p.Follows Same values (Render.runHelper (p.withTokens data outward) call indents)
      (Render.runHelper (p.inOther data outward) call' indents) := by
  unfold Render.runHelper
  dsimp only [withTokens, inOther]
  rw [helperFor?_otherRegistry, ← h.name_eq, ← h.isBlock_eq]
  cases hfound : p.registry.helperFor? call.name call.isBlock with
  | none => exact .fail _
  | some helper =>
    refine .asPiece (fun hst => ?_)
      (.run h helper (by simp [hplain]) (Registry.mem_of_helperFor? hfound))
    rw [hst.indentsNext, hst.atLineEnd]

/-- A name is shown on both sides: a helper, a value, or what stands in where there is none. -/
theorem showName {invocation : Invocation} (h : invocation.isPrompt p.registry)
    (hplain : p.plain = false) :
    p.Follows Same values (Render.showName (p.withTokens data outward) invocation)
      (Render.showName (p.inOther data outward) invocation) := by
  have hhead : invocation.head.isPrompt p.registry := by
    simp only [Invocation.isPrompt, Bool.and_eq_true] at h
    exact h.1.1
  refine .bind (.word hhead) fun _ name name' _ hname => ?_
  subst hname
  have hsome : (Assoc.find? name p.otherRegistry.helpers).isSome =
      (Assoc.find? name p.registry.helpers).isSome := by
    rw [find?_otherRegistry, Option.isSome_map]
  show p.Follows Same _ (if (Assoc.find? name p.registry.helpers).isSome then _ else _)
    (if (Assoc.find? name p.otherRegistry.helpers).isSome then _ else _)
  rw [hsome]
  split
  · refine .bind (.prepare h) fun _ call call' _ hcall => ?_
    obtain ⟨rfl, hbody, hinverse⟩ := hcall
    exact .runHelper (.of_bodiless hbody hinverse) hplain _
  · refine .bind (follows_meaning _ hhead).anywhere fun _ arg arg' _ harg => ?_
    subst harg
    split
    · exact .writeValue _ _ _
    · show p.Follows Same _ (if p.registry.strict then _ else _)
        (if p.registry.strict then _ else _)
      split
      · exact .fail _
      · dsimp only [withTokens, inOther]
        rw [find?_otherRegistry]
        cases hfound : Assoc.find? "helperMissing" p.registry.helpers with
        | none => exact .pure_same ()
        | some helper =>
          refine .bind (.prepare h) fun _ call call' _ hcall => ?_
          obtain ⟨rfl, hbody, hinverse⟩ := hcall
          exact .run (.of_bodiless hbody hinverse) helper (by simp [hplain])
            ⟨_, Assoc.mem_of_find? hfound⟩

/-- A prompt tag is shown on both sides. -/
theorem showTag {invocation : Invocation} (h : invocation.isPrompt p.registry)
    (hplain : p.plain = false) :
    p.Follows Same values (Render.showTag (p.withTokens data outward) invocation)
      (Render.showTag (p.inOther data outward) invocation) := by
  unfold Render.showTag
  split
  · exact .showName h hplain
  · refine .bind (.prepare h) fun _ call call' _ hcall => ?_
    obtain ⟨rfl, hbody, hinverse⟩ := hcall
    exact .runHelper (.of_bodiless hbody hinverse) hplain _

theorem runExpression {invocation : Invocation} (h : invocation.isPrompt p.registry)
    (hplain : p.plain = false) (escaped : Bool) :
    p.Follows Same values (Render.runExpression (p.withTokens data outward) invocation escaped)
      (Render.runExpression (p.inOther data outward) invocation escaped) := by
  unfold Render.runExpression
  split
  · exact .showTag h hplain
  · refine .bind (follows_setEscapes false _) fun _ _ _ _ _ => ?_
    exact .bind (.showTag h hplain) fun _ _ _ _ _ => follows_setEscapes true _

end Follows

section templates

variable {render render' : Template → Render Unit}

/-- Which template is rendered is set on both sides. -/
theorem follows_setCurrent (name : Option String) :
    p.Follows Same values (modify fun st => { st with current := name })
      (modify fun st => { st with current := name }) :=
  .modify fun _ _ _ _ hst => { hst with current := rfl }

/-- What is asked of a passage and of how partials are rendered. -/
structure Renders (p : Passage) (render render' : Template → Render Unit) : Prop where
  plain : p.plain = false
  partials : p.registry.PartialsPrompt
  follows : ∀ t, t.isPrompt p.registry → p.Follows Same [] (render t) (render' t)

mutual

/-- What an element does is followed, if partials are. -/
theorem follows_element (hr : p.Renders render render') (element : Element)
    (h : element.isPrompt p.registry) :
    p.Follows Same [] (element.run (p.withTokens data outward) render)
      (element.run (p.inOther data outward) render') := by
  match element, h with
  | .text content, _ => exact .write content
  | .comment _, _ => exact .pure_same ()
  | .expression invocation escaped, h => exact .runExpression h hr.plain escaped
  | .decorator invocation body, h =>
    simp only [Element.isPrompt, Bool.and_eq_true] at h
    exact .decorate h.1 h.2
  | .block invocation names body inverse indents, h =>
    simp only [Element.isPrompt, Bool.and_eq_true] at h
    obtain ⟨⟨hinvocation, hbody⟩, hinverse⟩ := h
    unfold Element.run
    refine .bind (.prepare hinvocation) fun _ call call' _ hcall => ?_
    obtain ⟨rfl, -, -⟩ := hcall
    have hcalls := Calls.of { call with isBlock := true, names }
      (follows_body hr body hbody) (follows_body hr inverse hinverse)
    exact .runHelper hcalls hr.plain indents
  | .inclusion invocation body indent indents, h =>
    simp only [Element.isPrompt, Bool.and_eq_true] at h
    unfold Element.run
    refine .bind (.prepare h.1) fun _ call call' _ hcall => ?_
    obtain ⟨rfl, -, -⟩ := hcall
    refine .asPiece (fun hst => by rw [hst.atLineEnd]) ?_
    exact .includePartial hr.plain hr.partials hr.follows (follows_body hr body h.2)

theorem follows_body (hr : p.Renders render render') (body : Option Template)
    (h : bodyIsPrompt p.registry body) :
    Option.Rel (p.Follows Same []) (bodyStep (p.withTokens data outward) render body)
      (bodyStep (p.inOther data outward) render' body) := by
  match body, h with
  | none, _ => exact .none
  | some template, h => exact .some (follows_template hr template h)

theorem follows_template (hr : p.Renders render render') (template : Template)
    (h : template.isPrompt p.registry) :
    p.Follows Same [] (template.run (p.withTokens data outward) render)
      (template.run (p.inOther data outward) render') := by
  match template, h with
  | .mk name items, h =>
    unfold Template.run
    exact .bind (follows_setCurrent name) fun _ _ _ _ _ => (follows_items hr name items h).anywhere

theorem follows_items (hr : p.Renders render render') (name : Option String)
    (items : List (Option Position × Element))
    (h : itemsArePrompt p.registry items) :
    p.Follows Same [] (runItems (p.withTokens data outward) render name items)
      (runItems (p.inOther data outward) render' name items) := by
  match items, h with
  | [], _ => exact .pure_same ()
  | (place, element) :: rest, h =>
    simp only [itemsArePrompt, Bool.and_eq_true] at h
    unfold runItems
    refine .bind (.leaving name place (follows_element hr element h.1)) fun _ _ _ _ _ => ?_
    exact (follows_items hr name rest h.2).anywhere

end

end templates

/-- Rendering is followed to any depth of partials. -/
theorem follows_render (data : Value) (outward : Bool) (hplain : p.plain = false)
    (hpartials : p.registry.PartialsPrompt)
    (limit : Nat) (template : Template) (h : template.isPrompt p.registry) :
    p.Follows Same [] (template.renderWithin (p.withTokens data outward) limit)
      (template.renderWithin (p.inOther data outward) limit) := by
  induction limit generalizing template with
  | zero => exact .fail _
  | succ limit ih => exact follows_template ⟨hplain, hpartials, ih⟩ template h

/-- From related surroundings a prompt template makes a page with tokens that means the page of the
other render, and leaves related surroundings; or it fails in the same way in both renders. -/
theorem render_follows (data : Value) (outward : Bool) (hplain : p.plain = false)
    (hpartials : p.registry.PartialsPrompt)
    {template : Template} (h : template.isPrompt p.registry) {around around' : Surroundings}
    (haround : p.Arounds values around around') :
    ∃ more, values ⊆ more ∧
      p.Arounds more (template.render (p.withTokens data outward) around).2
        (template.render (p.inOther data outward) around').2 ∧
      Alike (Denotes more) (template.render (p.withTokens data outward) around).1
        (template.render (p.inOther data outward) around').1 := by
  have hstart : p.States values { around } { around := around' } :=
    { around := haround
      blocks := rfl
      prompt := fun block hblock q hq => by
        rw [List.mem_singleton.mp hblock] at hq
        cases hq
      given := .nil
      current := rfl
      escapes := rfl
      atLineEnd := rfl
      produced := rfl
      indentsNext := rfl
      indent := rfl
      out := .refl _ _ _ }
  obtain ⟨more, hsub, hst, hends⟩ := follows_render data outward hplain hpartials
    Template.nestingLimit template h values _ _ (List.nil_subset _) hstart
  refine ⟨more, hsub, hst.around, ?_⟩
  have hout := hst.out.denotes
  unfold Template.render
  generalize (template.renderWithin (p.withTokens data outward) Template.nestingLimit).run
    { around } = left at hends hout
  generalize (template.renderWithin (p.inOther data outward) Template.nestingLimit).run
    { around := around' } = right at hends hout
  obtain ⟨r, st⟩ := left
  obtain ⟨r', dt⟩ := right
  cases hends with
  | ok => exact .ok hout
  | error e => exact .error e

end Passage
end Views
