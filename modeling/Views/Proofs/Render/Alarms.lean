import Views.Proofs.Render.Abreast
/-!
# Helpers that are not called

Whether a render calls helpers that reach beyond the page shows if each of them is replaced by one
that fails with an alarm (`Registry.alarmed`): a template that is rendered without an alarm is
rendered in the same way by every registry that differs in such helpers alone, and leaves all that
is beyond the page as it was (`Registry.SameOnPage.render_eq`).

Any fault will do for the alarm; if it does not show, none of the helpers in question was called.
Whether a template calls a helper cannot be read off its text: a name may be looked up in the data,
come with a partial, or stand in for a helper that is missing.
-/

namespace Views

/-! ## Operands leave no trace -/

namespace Render

variable {α β : Type}

/-- A step that comes to its end leaves the state as it was. -/
def Stays (x : Render α) : Prop := ∀ st a st', x.run st = (.ok a, st') → st' = st

/-- A step that comes to its end leaves the state as it was but for the page. -/
def OnlyWrites (x : Render α) : Prop :=
  ∀ st a st', x.run st = (.ok a, st') → ∃ out, st' = { st with out }

namespace Stays

theorem pure (a : α) : Stays (Pure.pure a) := by
  rintro st _ _ ⟨⟩
  rfl

theorem fail (fault : RenderFault) : Stays (Render.fail fault : Render α) := by
  rintro st _ _ ⟨⟩

theorem ofExcept (r : Except RenderFault α) : Stays (Render.ofExcept r) := by
  cases r with
  | ok a => exact .pure a
  | error fault => exact .fail fault

/-- Steps that stay do so one after the other. -/
theorem bind {x : Render α} {f : α → Render β} (hx : x.Stays) (hf : ∀ a, (f a).Stays) :
    (x >>= f).Stays := by
  intro st b st' h
  rw [Render.run_bind] at h
  have hx := hx st
  generalize x.run st = out at hx h
  obtain ⟨_ | a, st₁⟩ := out
  · cases h
  · obtain rfl := hx a st₁ rfl
    exact hf a st₁ b st' h

/-- A step that looks at the state first stays if it does so whatever it has seen. -/
theorem get_bind {f : RenderState → Render β} (hf : ∀ st, (f st).Stays) : (get >>= f).Stays :=
  fun st b st' h => hf st st b st' h

/-- What a step writes is taken off the page. -/
theorem capture {x : Render Unit} (h : x.OnlyWrites) : (Render.capture x).Stays := by
  intro st text st' hrun
  rw [Render.run_capture] at hrun
  have hx := h { st with out := "" }
  generalize x.run { st with out := "" } = end' at hx hrun
  obtain ⟨_ | a, st₁⟩ := end'
  · cases hrun
  · obtain ⟨out, rfl⟩ := hx a st₁ rfl
    cases hrun
    rfl

/-- To ask for an argument leaves the state as it was. -/
theorem require (call : Call) (helper : String) (index : Nat) :
    (call.require helper index).Stays := by
  unfold Call.require
  split
  · exact .pure _
  · exact .fail _

theorem requireValue (env : RenderEnv) (call : Call) (index : Nat) (fault : RenderFault) :
    (call.requireValue env index fault).Stays := by
  unfold Call.requireValue
  split
  · split
    · exact .fail _
    · exact .pure _
  · exact .fail _

theorem lookup (env : RenderEnv) (call : Call) : (call.lookup env).Stays := by
  refine .bind (.require _ _ _) fun collection => .bind (.require _ _ _) fun index => ?_
  dsimp only
  split
  · exact .pure _
  · split
    · exact .fail _
    · exact .pure _

/-- What a helper gives within an expression leaves no trace. -/
theorem value? {env : RenderEnv} {helper : Helper} {call : Call} {given : Render Resolved}
    (h : call.value? env helper = some given) : given.Stays := by
  cases helper with
  | builtin builtin =>
    cases builtin with
    | lookup =>
      cases h
      exact .lookup env call
    | compare c =>
      cases h
      refine .bind (.requireValue env call _ _) fun _ => ?_
      exact .bind (.requireValue env call _ _) fun _ => .pure _
    | all | any =>
      cases h
      exact .pure _
    | not | len =>
      cases h
      exact .bind (.requireValue env call _ _) fun _ => .pure _
    | _ => cases h
  | value compute =>
    cases h
    exact .bind (.ofExcept _) fun _ => .pure _
  | _ => cases h

/-- A body that is not there is rendered without a trace. -/
theorem runBody_none : (Call.runBody none).Stays := .pure ()

theorem runInverse_none {call : Call} (hinverse : call.inverse = none) (env : RenderEnv)
    (arg : Arg) : (call.runInverse env arg).Stays := by
  unfold Call.runInverse
  rw [hinverse]
  dsimp only
  split
  · exact .fail _
  · exact .pure ()

/-- A step that stays writes nothing, and does nothing else either. -/
theorem onlyWrites {x : Render α} (h : x.Stays) : x.OnlyWrites :=
  fun st a st' hrun => ⟨st.out, h st a st' hrun⟩

end Stays

/-- Text that is put on the page is written, and nothing else happens. -/
theorem onlyWrites_emit (text : String) : (emit text).OnlyWrites := by
  rintro st _ _ ⟨⟩
  exact ⟨_, rfl⟩

/-- After a step that stays, one that only writes. -/
theorem Stays.bind_onlyWrites {x : Render α} {f : α → Render β} (hx : x.Stays)
    (hf : ∀ a, (f a).OnlyWrites) : (x >>= f).OnlyWrites := by
  intro st b st' h
  rw [Render.run_bind] at h
  have hx := hx st
  generalize x.run st = out at hx h
  obtain ⟨_ | a, st₁⟩ := out
  · cases h
  · obtain rfl := hx a st₁ rfl
    exact hf a st₁ b st' h

/-- Steps that only write do so one after the other. -/
theorem OnlyWrites.bind {x : Render α} {f : α → Render β} (hx : x.OnlyWrites)
    (hf : ∀ a, (f a).OnlyWrites) : (x >>= f).OnlyWrites := by
  intro st b st' h
  rw [Render.run_bind] at h
  have hx := hx st
  generalize x.run st = end' at hx h
  obtain ⟨_ | a, st₁⟩ := end'
  · cases h
  · obtain ⟨out, rfl⟩ := hx a st₁ rfl
    exact hf a { st with out } b st' h

/-- A part that a call does not have leaves no trace. -/
theorem Stays.runPart {call : Call} (hbody : call.body = none) (hinverse : call.inverse = none)
    (inverse : Bool) (own : Option Value) : (call.runPart inverse own).Stays := by
  unfold Call.runPart
  rw [hbody, hinverse, ite_self]
  cases own with
  | none => exact .runBody_none
  | some v =>
    rintro st _ _ ⟨⟩
    rfl

/-- Without bodies what a routine asks for is to write, or to look. -/
theorem onlyWrites_perform (env : RenderEnv) {call : Call} (hbody : call.body = none)
    (hinverse : call.inverse = none) (aside : List String) (routine : Routine) :
    (call.perform env aside routine).OnlyWrites := by
  induction routine generalizing aside with
  | done => exact (Stays.pure ()).onlyWrites
  | fail fault => exact (Stays.fail fault).onlyWrites
  | write text next ih => exact (onlyWrites_emit _).bind fun _ => ih aside
  | look reference next ih => exact fun st => ih _ aside st
  | place inverse own next ih =>
    exact (Stays.runPart hbody hinverse inverse own).bind_onlyWrites fun _ => ih aside
  | keep inverse own next ih =>
    have hpart := Stays.runPart hbody hinverse inverse own
    exact (Stays.capture hpart.onlyWrites).bind_onlyWrites fun _ => ih _
  | take inverse own next ih =>
    have hpart := Stays.runPart hbody hinverse inverse own
    exact (Stays.capture hpart.onlyWrites).bind_onlyWrites fun _ => ih _ aside

/-- Without bodies a helper that does not reach beyond the page writes at most. -/
theorem onlyWrites_run {env : RenderEnv} {helper : Helper} (hquiet : helper.isQuiet) {call : Call}
    (hvalue : call.value? env helper = none) (hbody : call.body = none)
    (hinverse : call.inverse = none) : (call.run env helper).OnlyWrites := by
  unfold Call.run
  rw [hvalue]
  dsimp only
  -- Without bodies the block helpers come down to reading their argument, and the helpers that reach
  -- beyond the page are not quiet.
  split
  · refine Stays.onlyWrites (.bind (.require _ _ _) fun arg => ?_)
    dsimp only
    rw [hbody, hinverse, ite_self]
    exact .runBody_none
  · refine Stays.onlyWrites (.bind (.require _ _ _) fun arg => ?_)
    rw [hbody]
    exact .pure ()
  · refine Stays.onlyWrites (.bind (.require _ _ _) fun arg => ?_)
    split
    · rw [hbody]
      rintro st _ _ ⟨⟩
      rfl
    · exact .runInverse_none hinverse env arg
  · rw [hbody]
    exact Stays.runBody_none.onlyWrites
  · refine Stays.onlyWrites ?_
    unfold Call.runLog
    dsimp only
    split
    · exact .pure ()
    · exact .fail _
  · cases hquiet
  · cases hquiet
  · cases hquiet
  · cases hquiet
  · exact (Stays.ofExcept _).bind_onlyWrites fun text => onlyWrites_emit text
  · exact onlyWrites_perform env hbody hinverse [] _
  · exact (Stays.pure ()).onlyWrites

/-- Within an expression a helper that does not reach beyond the page leaves no trace. -/
theorem Stays.asOperand {env : RenderEnv} {helper : Helper} (hquiet : helper.isQuiet) {call : Call}
    (hbody : call.body = none) (hinverse : call.inverse = none) :
    (call.asOperand env helper).Stays := by
  unfold Call.asOperand
  cases hvalue : call.value? env helper with
  | some given => exact .value? hvalue
  | none =>
    intro st r st' hrun
    dsimp only at hrun
    have hcapture := Stays.capture (onlyWrites_run hquiet hvalue hbody hinverse)
      { st with escapes := false }
    rw [Render.run_bind, Render.run_get] at hrun
    dsimp only at hrun
    rw [Render.run_bind, Render.run_modify] at hrun
    dsimp only at hrun
    rw [Render.run_bind] at hrun
    generalize (Render.capture (call.run env helper)).run { st with escapes := false } = out
      at hcapture hrun
    obtain ⟨_ | text, st₁⟩ := out
    · cases hrun
    · obtain rfl := hcapture text st₁ rfl
      cases hrun
      rfl

end Render

/-- No helper of the registry reaches beyond the page. -/
def Registry.IsQuiet (r : Registry) : Prop := ∀ p ∈ r.helpers, p.2.isQuiet

namespace Operand

open Render

/-- To read an operand as a name leaves the state as it was if evaluating it does. -/
theorem stays_wordOf (operand : Operand) {meaning : Render Arg} (h : meaning.Stays) :
    (operand.wordOf meaning).Stays := by
  cases operand with
  | apply _ _ _ => exact .bind h fun _ => .pure _
  | _ => exact .pure _

variable {env : RenderEnv}

mutual

/-- If no helper reaches beyond the page, operands leave no trace. -/
theorem stays_meaning (hquiet : env.registry.IsQuiet) (operand : Operand) :
    (operand.meaning env).Stays := by
  match operand with
  | .name n => exact .pure _
  | .path reference spelling =>
    unfold Operand.meaning
    exact .bind (.get_bind fun st => .ofExcept _) fun _ => .pure _
  | .literal v => exact .pure _
  | .apply head args hash =>
    unfold Operand.meaning
    have hword := stays_wordOf head (stays_meaning hquiet head)
    refine .bind hword fun helperName => .bind hword fun name => ?_
    refine .bind (stays_meanings hquiet args) fun args => ?_
    refine .bind (stays_namedMeanings hquiet hash) fun hash => ?_
    dsimp only
    split
    · rename_i helper hhelper
      obtain ⟨key, hmem⟩ := Registry.mem_of_helperFor? hhelper
      exact .bind (.asOperand (hquiet _ hmem) rfl rfl) fun _ => .pure _
    · exact .fail _

theorem stays_meanings (hquiet : env.registry.IsQuiet) (operands : List Operand) :
    (Operand.meanings env operands).Stays := by
  match operands with
  | [] => exact .pure _
  | operand :: rest =>
    unfold Operand.meanings
    refine .bind (stays_meaning hquiet operand) fun _ => ?_
    exact .bind (stays_meanings hquiet rest) fun _ => .pure _

theorem stays_namedMeanings (hquiet : env.registry.IsQuiet) (operands : List (String × Operand)) :
    (Operand.namedMeanings env operands).Stays := by
  match operands with
  | [] => exact .pure _
  | (key, operand) :: rest =>
    unfold Operand.namedMeanings
    refine .bind (stays_meaning hquiet operand) fun _ => ?_
    exact .bind (stays_namedMeanings hquiet rest) fun _ => .pure _

end

end Operand

/-! ## Registries with alarms -/

/-- The helper, or one that fails with an alarm if the helper reaches beyond the page. -/
def Helper.alarmed (alarm : RenderFault) (helper : Helper) : Helper :=
  if helper.isQuiet then helper else .writer fun _ => .error alarm

/-- A quiet helper needs no alarm. -/
theorem Helper.alarmed_of_isQuiet {helper : Helper} (h : helper.isQuiet) (alarm : RenderFault) :
    helper.alarmed alarm = helper := if_pos h

/-- Any other helper is replaced by one that raises the alarm, whatever it is called with. -/
theorem Helper.alarmed_of_not_isQuiet {helper : Helper} (h : helper.isQuiet = false)
    (alarm : RenderFault) : helper.alarmed alarm = .writer fun _ => .error alarm :=
  if_neg (by simp [h])

namespace Registry

/-- The registry with alarms in the place of helpers that reach beyond the page. -/
def alarmed (r : Registry) (alarm : RenderFault) : Registry :=
  { r with helpers := r.helpers.map fun (name, helper) => (name, helper.alarmed alarm) }

/-- Each name leads to what stands in its place in the registry with the alarm. -/
theorem find?_alarmed (r : Registry) (alarm : RenderFault) (name : String) :
    Assoc.find? name (r.alarmed alarm).helpers =
      (Assoc.find? name r.helpers).map (Helper.alarmed alarm) :=
  Assoc.find?_map _ _ _

/-- With the alarm all helpers are quiet: the alarm itself only fails. -/
theorem isQuiet_alarmed (r : Registry) (alarm : RenderFault) : (r.alarmed alarm).IsQuiet := by
  intro p hp
  obtain ⟨⟨name, helper⟩, -, rfl⟩ := List.mem_map.mp hp
  dsimp only
  unfold Helper.alarmed
  split
  · assumption
  · rfl

/-- A registry is the same as another one where no helper is called of the other one that reaches
beyond the page. -/
structure SameOnPage (r other : Registry) : Prop where
  strict : other.strict = r.strict
  escape : other.escape = r.escape
  partials : other.partials = r.partials
  helpers : ∀ name, Assoc.find? name other.helpers = Assoc.find? name r.helpers ∨
    ∃ helper, Assoc.find? name other.helpers = some helper ∧ helper.isQuiet = false

/-- A registry of which only the quiet helpers matter, beside another one with alarms. Nothing
beyond the page changes in either. -/
def SameOnPage.pairing {r other : Registry} (h : r.SameOnPage other) (alarm : RenderFault)
    (data : Value) (around start : Surroundings) : Pairing where
  left := { registry := r, data }
  right := { registry := other.alarmed alarm, data }
  rel a b := a = around ∧ b = start
  alarm := (· = alarm)
  data_eq := rfl
  outward_eq := rfl
  strict_eq := h.strict
  escape_eq := h.escape
  partials_eq := h.partials

/-- Registries that are the same on a page have helpers that belong beside each other, those of the
one with the alarm. -/
theorem SameOnPage.helpersBeside {r other : Registry} (h : r.SameOnPage other)
    (alarm : RenderFault) (data : Value) (around start : Surroundings) :
    (h.pairing alarm data around start).HelpersBeside := by
  intro name
  dsimp only [pairing]
  rw [find?_alarmed]
  have hsounds : ∀ helper : Helper, helper.isQuiet = false →
      (h.pairing alarm data around start).Sounds (helper.alarmed alarm) := fun helper hloud =>
    ⟨alarm, rfl, Helper.alarmed_of_not_isQuiet hloud alarm⟩
  rcases h.helpers name with hsame | ⟨helper, hother, hloud⟩
  · rw [hsame]
    cases hfind : Assoc.find? name r.helpers with
    | none => exact .inr ⟨rfl, fun _ hnone => by cases hnone⟩
    | some helper =>
      cases hquiet : helper.isQuiet with
      | false => exact .inl ⟨_, rfl, hsounds helper hquiet⟩
      | true =>
        refine .inr ⟨congrArg some (Helper.alarmed_of_isQuiet hquiet alarm), ?_⟩
        rintro _ ⟨⟩
        exact .of_isQuiet hquiet
  · rw [hother]
    exact .inl ⟨_, rfl, hsounds helper hloud⟩

/-- Without an alarm, a template is rendered in the same way, and nothing changes beyond the
page. -/
theorem SameOnPage.render_eq {r other : Registry} (h : r.SameOnPage other) {alarm : RenderFault}
    {template : Template} {data : Value} {start : Surroundings}
    (hsilent : ∀ e, (template.render { registry := other.alarmed alarm, data } start).1 = .error e →
      e.fault ≠ alarm) (around : Surroundings) :
    template.render { registry := r, data } around =
      ((template.render { registry := other.alarmed alarm, data } start).1, around) := by
  let p := h.pairing alarm data around start
  have hstay : p.OperandsStay := fun _ operand st arg st' hrun =>
    Operand.stays_meaning (other.isQuiet_alarmed alarm) operand st arg st' hrun
  rcases p.render_beside (h.helpersBeside alarm data around start) hstay template ⟨rfl, rfl⟩ with
    ⟨e, he, halarm⟩ | ⟨hresult, haround, -⟩
  · exact absurd halarm (hsilent e he)
  · exact Prod.ext hresult.symm haround

end Registry
end Views
