import Views.Proofs.Render.Pairing
/-!
# Templates side by side

What a pairing says of the helpers carries over to operands, partials, elements and whole templates,
by recursion on the template and induction on how deep partials nest: `Pairing.render_beside`.

The recursion has one case for each kind of element. Literal text is the same on both sides; an
expression calls a helper or looks a path up, and in either case its operands come first; a block
renders its body through the helper that it calls, and a partial another template, one level deeper.
The helpers are the only place where the two renders may differ, and what is asked of them is said
once, in `Pairing.HelpersBeside`.
-/

namespace Views

namespace Pairing

variable {p : Pairing} {α : Type}

/-! ## Operands and partials -/

/-- Where there are alarms, operands of the second render that stand for something leave no
trace. -/
def OperandsStay (p : Pairing) : Prop :=
  (∃ fault, p.alarm fault) → ∀ (operand : Operand) st arg st',
    (operand.meaning p.right).run st = (.ok arg, st') → st' = st

/-- Reading an operand as a name leaves the state as it was on the side that has an alarm. -/
theorem OperandsStay.word (h : p.OperandsStay) (halarm : ∃ fault, p.alarm fault)
    {operand : Operand} {st st' : RenderState} {name : String}
    (hword : (operand.word p.right).run st = (.ok name, st')) : st' = st := by
  unfold Operand.word Operand.wordOf at hword
  cases operand with
  | apply head args hash =>
    have hmeaning := h halarm (.apply head args hash) st
    rw [Render.run_bind] at hword
    generalize (Operand.meaning p.right (.apply head args hash)).run st = out at hmeaning hword
    obtain ⟨_ | arg, st₁⟩ := out
    · cases hword
    · cases hword
      exact hmeaning arg _ rfl
  | name _ | path _ _ | literal _ =>
    cases hword
    rfl

namespace Paired

/-- A reference means the same on both sides. -/
theorem follow (reference : Reference) :
    p.Paired (Render.follow p.left reference) (Render.follow p.right reference) := by
  unfold Render.follow
  rw [p.outward_eq, p.data_eq]
  exact .get_bind fun st around hrel => Paired.ofExcept _ st _ ⟨around, rfl, hrel⟩

/-- An operand is read as the same name if it means the same. -/
theorem wordOf (operand : Operand) {meaning meaning' : Render Arg}
    (h : p.Paired meaning meaning') :
    p.Paired (operand.wordOf meaning) (operand.wordOf meaning') := by
  cases operand with
  | apply _ _ _ => exact .bind h fun _ => .pure _
  | _ => exact .pure _

mutual

/-- An operand means the same on both sides, helpers in expressions included. -/
theorem meaning (hhelpers : p.HelpersBeside) (operand : Operand) :
    p.Paired (operand.meaning p.left) (operand.meaning p.right) := by
  match operand with
  | .name n => exact .pure _
  | .path reference spelling =>
    unfold Operand.meaning
    exact .bind (.follow reference) fun _ => .pure _
  | .literal v => exact .pure _
  | .apply head args hash =>
    unfold Operand.meaning
    have hword := wordOf head (meaning hhelpers head)
    refine .bind hword fun helperName => .bind hword fun name => ?_
    refine .bind (meanings hhelpers args) fun args => ?_
    refine .bind (namedMeanings hhelpers hash) fun hash => ?_
    dsimp only
    rcases hhelpers.helperFor? helperName false with ⟨helper, hright, hsounds⟩ | ⟨hsame, hruns⟩
    · rw [hright]
      obtain ⟨fault, halarm, rfl⟩ := hsounds
      exact fun st dt _ => .inl ⟨_, rfl, halarm⟩
    · rw [hsame]
      cases hleft : p.left.registry.helperFor? helperName false with
      | some helper =>
        exact .bind ((hruns helper hleft).asOperand (.of_bodiless rfl rfl)) fun _ => .pure _
      | none => exact .fail _

theorem meanings (hhelpers : p.HelpersBeside) (operands : List Operand) :
    p.Paired (Operand.meanings p.left operands) (Operand.meanings p.right operands) := by
  match operands with
  | [] => exact .pure _
  | operand :: rest =>
    unfold Operand.meanings
    exact .bind (meaning hhelpers operand) fun _ => .bind (meanings hhelpers rest) fun _ => .pure _

theorem namedMeanings (hhelpers : p.HelpersBeside) (operands : List (String × Operand)) :
    p.Paired (Operand.namedMeanings p.left operands) (Operand.namedMeanings p.right operands) := by
  match operands with
  | [] => exact .pure _
  | (key, operand) :: rest =>
    unfold Operand.namedMeanings
    refine .bind (meaning hhelpers operand) fun _ => ?_
    exact .bind (namedMeanings hhelpers rest) fun _ => .pure _

end

/-- An operand is read as the same name on both sides. -/
theorem word (hhelpers : p.HelpersBeside) (operand : Operand) :
    p.Paired (operand.word p.left) (operand.word p.right) :=
  wordOf operand (meaning hhelpers operand)

/-- The call that a tag makes is the same in both, and it has no bodies yet. -/
theorem prepare_bind (hhelpers : p.HelpersBeside) {f g : Call → Render α} (invocation : Invocation)
    (h : ∀ call : Call, call.body = none → call.inverse = none → p.Paired (f call) (g call)) :
    p.Paired (invocation.prepare p.left >>= f) (invocation.prepare p.right >>= g) := by
  unfold Invocation.prepare
  simp only [bind_assoc, pure_bind]
  refine .bind (.word hhelpers _) fun _ => .bind (.meanings hhelpers _) fun _ => ?_
  exact .bind (.namedMeanings hhelpers _) fun _ => h _ rfl rfl

/-- A decorator does the same on both sides: it defines an inline partial or fails. -/
theorem decorate (hhelpers : p.HelpersBeside) (invocation : Invocation) (body : Option Template) :
    p.Paired (Render.decorate p.left invocation body)
      (Render.decorate p.right invocation body) := by
  refine .prepare_bind hhelpers invocation fun call _ _ => ?_
  split
  · refine .bind (.require _ _ _) fun arg => ?_
    split
    · exact .updateBlock _
    · exact .fail _
    · exact .fail _
  · exact .fail _

/-- The block of a partial is the same on both sides. -/
theorem partialBlock (call : Call) :
    p.Paired (Render.partialBlock p.left call) (Render.partialBlock p.right call) := by
  unfold Render.partialBlock
  split
  · exact .pure _
  · simp only [pure_bind]
    exact .bind (.follow _) fun _ => .pure _

/-- A body that is rendered for its text gives the same text. -/
theorem bodyText {body body' : Option (Render Unit)} (h : Option.Rel p.Paired body body') :
    p.Paired (Render.bodyText body) (Render.bodyText body') := by
  cases h with
  | none => exact .pure _
  | some h => exact .bind (.capture h) fun _ => .pure _

section inclusion

variable {render render' : Template → Render Unit} (hrender : ∀ t, p.Paired (render t) (render' t))

include hrender

/-- What stands for a partial is the same on both sides, be it defined here, registered or given. -/
theorem placePartial (name : String) (given own indent : Option String) :
    p.Paired (Render.placePartial p.left render name given own indent)
      (Render.placePartial p.right render' name given own indent) := by
  unfold Render.placePartial
  rw [p.partials_eq]
  split
  · split
    · exact .emit _
    · exact .fail _
  · refine .get_bind fun st around hrel => ?_
    dsimp only
    split
    · exact At.bind (.inr ⟨rfl, around, rfl, hrel⟩) fun _ => hrender _
    · exact Paired.emit _ st _ ⟨around, rfl, hrel⟩
    · exact Paired.fail _ st _ ⟨around, rfl, hrel⟩

/-- A partial that is included does the same on both sides. -/
theorem includePartial (call : Call) {body body' : Option (Render Unit)}
    (hbody : Option.Rel p.Paired body body') (indent : Option String) :
    p.Paired (Render.includePartial p.left render call body indent)
      (Render.includePartial p.right render' call body' indent) := by
  refine .get_bind fun before around hrel => ?_
  have hst : p.Beside before { before with around } := ⟨around, rfl, hrel⟩
  split
  · exact Paired.fail _ before _ hst
  · refine At.bind (partialBlock call before _ hst) fun block => ?_
    refine .bind (.pushBlock _) fun _ => .bind (.bodyText hbody) fun own => ?_
    exact .bind (.placePartial hrender _ _ _ _) fun _ => .modify fun _ _ => ⟨rfl, rfl⟩

end inclusion

/-! ## Templates -/

/-- A name that is called as a helper does the same on both sides, or the alarm goes off. -/
theorem runHelper (hhelpers : p.HelpersBeside) {c d : Call} (h : p.CallsBeside c d)
    (indents : Bool) :
    p.Paired (Render.runHelper p.left c indents) (Render.runHelper p.right d indents) := by
  obtain ⟨call, hbody, hinverse⟩ := id h
  unfold Render.runHelper
  dsimp only
  rcases hhelpers.helperFor? call.name call.isBlock with ⟨helper, hright, hsounds⟩ | ⟨hsame, hruns⟩
  · rw [hright]
    obtain ⟨fault, halarm, rfl⟩ := hsounds
    exact fun st dt _ => .inl ⟨_, rfl, halarm⟩
  · rw [hsame]
    cases hleft : p.left.registry.helperFor? call.name call.isBlock with
    | some helper => exact .asPiece (fun _ _ => rfl) (hruns helper hleft _ _ h)
    | none => exact .fail _

/-- A tag that is only a name is read again in the state in which it was read. -/
theorem run_prepare {env : RenderEnv} {invocation : Invocation} (hargs : invocation.args = [])
    (hhash : invocation.hash = []) {st : RenderState} {name : String}
    (hword : (invocation.head.word env).run st = (.ok name, st)) :
    (invocation.prepare env).run st = (.ok { name }, st) := by
  unfold Invocation.prepare
  rw [Render.run_bind, hword, hargs, hhash]
  rfl

/-- Where the call of a name without arguments raises an alarm, it does so once its name is read. -/
theorem prepare_alarms {invocation : Invocation} (hargs : invocation.args = [])
    (hhash : invocation.hash = []) {dt : RenderState} {name : String}
    (hword : (invocation.head.word p.right).run dt = (.ok name, dt)) {g : Call → Render α}
    (hg : ∃ e, ((g { name }).run dt).1 = .error e ∧ p.alarm e.fault) :
    ∃ e, ((invocation.prepare p.right >>= g).run dt).1 = .error e ∧ p.alarm e.fault := by
  rw [Render.run_bind, run_prepare hargs hhash hword]
  exact hg

/-- A tag that is only a name does the same in both. If it is the name of a helper that is not to be
called, the second render reads it once more in the same state. -/
theorem showName (hhelpers : p.HelpersBeside) (hstay : p.OperandsStay) {invocation : Invocation}
    (hargs : invocation.args = []) (hhash : invocation.hash = []) :
    p.Paired (Render.showName p.left invocation) (Render.showName p.right invocation) := by
  intro st dt hst
  refine At.bind_ran (word hhelpers invocation.head st dt hst) fun name st₁ dt₁ hword hst₁ => ?_
  rcases hhelpers name with ⟨helper, hright, hsounds⟩ | ⟨hsame, -⟩
  · obtain ⟨fault, halarm, rfl⟩ := hsounds
    obtain rfl : dt₁ = dt := hstay.word ⟨fault, halarm⟩ hword
    rw [hright]
    refine .inl (prepare_alarms hargs hhash hword ⟨{ fault }, ?_, halarm⟩)
    unfold Render.runHelper Registry.helperFor?
    rw [hright]
    rfl
  · rw [hsame]
    split
    · refine Paired.prepare_bind hhelpers _ (fun _ hbody hinverse => ?_) st₁ dt₁ hst₁
      exact .runHelper hhelpers (.of_bodiless hbody hinverse) _
    · refine At.bind_ran (meaning hhelpers _ st₁ dt₁ hst₁) fun arg st₂ dt₂ hmeaning hst₂ => ?_
      rw [p.strict_eq]
      split
      · exact writeValue _ st₂ dt₂ hst₂
      · split
        · exact Paired.fail _ st₂ dt₂ hst₂
        · rcases hhelpers "helperMissing" with ⟨helper, hright, hsounds⟩ | ⟨hsame, hruns⟩
          · obtain ⟨fault, halarm, rfl⟩ := hsounds
            obtain rfl : dt₁ = dt := hstay.word ⟨fault, halarm⟩ hword
            obtain rfl : dt₂ = dt₁ := hstay ⟨fault, halarm⟩ _ _ _ _ hmeaning
            rw [hright]
            exact .inl (prepare_alarms hargs hhash hword ⟨{ fault }, rfl, halarm⟩)
          · rw [hsame]
            cases hleft : Assoc.find? "helperMissing" p.left.registry.helpers with
            | some helper =>
              refine Paired.prepare_bind hhelpers _ (fun call hbody hinverse => ?_) st₂ dt₂ hst₂
              exact hruns helper hleft _ _ (.of_bodiless hbody hinverse)
            | none => exact Paired.pure () st₂ dt₂ hst₂

/-- A tag that is shown does the same on both sides. -/
theorem showTag (hhelpers : p.HelpersBeside) (hstay : p.OperandsStay) (invocation : Invocation) :
    p.Paired (Render.showTag p.left invocation) (Render.showTag p.right invocation) := by
  unfold Render.showTag
  split
  · rename_i hbare
    rw [Bool.and_eq_true, List.isEmpty_iff, List.isEmpty_iff] at hbare
    exact .showName hhelpers hstay hbare.1 hbare.2
  · refine .prepare_bind hhelpers _ fun _ hbody hinverse => ?_
    exact .runHelper hhelpers (.of_bodiless hbody hinverse) _

/-- So does an expression, whether or not what it shows is escaped. -/
theorem runExpression (hhelpers : p.HelpersBeside) (hstay : p.OperandsStay)
    (invocation : Invocation) (escaped : Bool) :
    p.Paired (Render.runExpression p.left invocation escaped)
      (Render.runExpression p.right invocation escaped) := by
  unfold Render.runExpression
  split
  · exact .showTag hhelpers hstay invocation
  · refine .bind (.modify fun _ _ => ⟨rfl, rfl⟩) fun _ => ?_
    exact .bind (.showTag hhelpers hstay invocation) fun _ => .modify fun _ _ => ⟨rfl, rfl⟩

section templates

variable {render render' : Template → Render Unit}

mutual

/-- Each element of a template does the same on both sides. One case for each kind of element;
bodies are templates again. -/
theorem element (hhelpers : p.HelpersBeside) (hstay : p.OperandsStay)
    (hrender : ∀ t, p.Paired (render t) (render' t)) (e : Element) :
    p.Paired (e.run p.left render) (e.run p.right render') := by
  match e with
  | .text content => exact .write content
  | .comment _ => exact .pure ()
  | .expression invocation escaped => exact .runExpression hhelpers hstay invocation escaped
  | .decorator invocation body => exact .decorate hhelpers invocation body
  | .block invocation names body inverse indents =>
    unfold Element.run
    refine .prepare_bind hhelpers invocation fun call _ _ => .runHelper hhelpers ?_ indents
    exact .mk { call with isBlock := true, names } (bodyStep hhelpers hstay hrender body)
      (bodyStep hhelpers hstay hrender inverse)
  | .inclusion invocation body indent indents =>
    unfold Element.run
    refine .prepare_bind hhelpers invocation fun call _ _ => .asPiece (fun _ _ => rfl) ?_
    exact .includePartial hrender call (bodyStep hhelpers hstay hrender body) indent

theorem bodyStep (hhelpers : p.HelpersBeside) (hstay : p.OperandsStay)
    (hrender : ∀ t, p.Paired (render t) (render' t)) (body : Option Template) :
    Option.Rel p.Paired (Views.bodyStep p.left render body)
      (Views.bodyStep p.right render' body) := by
  match body with
  | none => exact .none
  | some t => exact .some (template hhelpers hstay hrender t)

theorem template (hhelpers : p.HelpersBeside) (hstay : p.OperandsStay)
    (hrender : ∀ t, p.Paired (render t) (render' t)) (t : Template) :
    p.Paired (t.run p.left render) (t.run p.right render') := by
  match t with
  | .mk name items =>
    unfold Template.run
    refine .bind (.modify fun _ _ => ⟨rfl, rfl⟩) fun _ => ?_
    exact runItems hhelpers hstay hrender name items

/-- So do elements in order, with the same place added to what fails. -/
theorem runItems (hhelpers : p.HelpersBeside) (hstay : p.OperandsStay)
    (hrender : ∀ t, p.Paired (render t) (render' t)) (name : Option String)
    (items : List (Option Position × Element)) :
    p.Paired (Views.runItems p.left render name items)
      (Views.runItems p.right render' name items) := by
  match items with
  | [] => exact .pure ()
  | (place, e) :: rest =>
    unfold Views.runItems
    refine .bind (.leaving name place (element hhelpers hstay hrender e)) fun _ => ?_
    exact runItems hhelpers hstay hrender name rest

end

end templates

/-- So does a template with its partials. The induction is on how deep partials may still nest. -/
theorem renderWithin (hhelpers : p.HelpersBeside) (hstay : p.OperandsStay) (limit : Nat)
    (t : Template) : p.Paired (t.renderWithin p.left limit) (t.renderWithin p.right limit) := by
  induction limit generalizing t with
  | zero => exact .fail _
  | succ limit ih => exact template hhelpers hstay ih t

end Paired

/-- Rendered side by side, a template ends in the same way and leaves related surroundings, unless
the second render fails with an alarm. -/
theorem render_beside (hhelpers : p.HelpersBeside) (hstay : p.OperandsStay) (template : Template)
    {a b : Surroundings} (h : p.rel a b) :
    (∃ e, (template.render p.right b).1 = .error e ∧ p.alarm e.fault) ∨
      (template.render p.right b).1 = (template.render p.left a).1 ∧
        p.rel (template.render p.left a).2 (template.render p.right b).2 := by
  have hat := Paired.renderWithin hhelpers hstay Template.nestingLimit template { around := a }
    { around := b } ⟨b, rfl, h⟩
  unfold At at hat
  unfold Template.render
  generalize (template.renderWithin p.left _).run { around := a } = left at hat ⊢
  generalize (template.renderWithin p.right _).run { around := b } = right at hat ⊢
  obtain ⟨r, st⟩ := left
  obtain ⟨r', dt⟩ := right
  rcases hat with ⟨e, he, halarm⟩ | ⟨hr, around, hst, hrel⟩
  · obtain rfl : r' = .error e := he
    exact .inl ⟨e, rfl, halarm⟩
  · obtain rfl : r' = r := hr
    obtain rfl : dt = { st with around } := hst
    exact .inr ⟨rfl, hrel⟩

end Pairing
end Views
