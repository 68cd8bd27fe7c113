import Views.Proofs.Render.Following
import Views.Render.Page
/-!
# Two renders side by side

The same template is rendered twice, with registries and surroundings that need not be the same. A
`Pairing` says what the two renders have in common and how their surroundings are related; where
some helper is not to be called, it fails in the second render with an alarm. `Pairing.Paired` holds
of two steps that do the same from states that differ in the surroundings alone, and leave such
states, unless the second fails with an alarm. From what is known of the helpers
(`Pairing.HelpersBeside`) it follows for whole templates: `Pairing.render_beside`.

The error of the second render decides what is asked: if it is the alarm nothing is said of the
first render, and with any other error both fail alike. This is weaker than that the two renders are
equal, and just what is needed to leave out helpers that are not called, without having to say
beforehand which ones a template calls.
-/

namespace Views

/-- Two renders of the same data, with the same partials and the same settings as far as they matter
when a template is rendered. -/
structure Pairing where
  left : RenderEnv
  right : RenderEnv
  /-- How the surroundings of the two are related. -/
  rel : Surroundings → Surroundings → Prop
  /-- The faults that say that the second render calls what it is not to call. -/
  alarm : RenderFault → Prop := fun _ => False
  data_eq : right.data = left.data
  outward_eq : right.outward = left.outward
  strict_eq : right.registry.strict = left.registry.strict
  escape_eq : right.registry.escape = left.registry.escape
  partials_eq : right.registry.partials = left.registry.partials

namespace Pairing

variable {p : Pairing} {α β : Type}

/-- States that are the same but for related surroundings. -/
def Beside (p : Pairing) (st dt : RenderState) : Prop :=
  ∃ around, dt = { st with around } ∧ p.rel st.around around

/-- From two given states, two steps end in the same way and leave states that are the same but for
related surroundings, or the second fails with an alarm. -/
def At (p : Pairing) (x y : Render α) (st dt : RenderState) : Prop :=
  (∃ e, (y.run dt).1 = .error e ∧ p.alarm e.fault) ∨
    (y.run dt).1 = (x.run st).1 ∧ p.Beside (x.run st).2 (y.run dt).2

/-- Two steps do so from all states that are the same but for related surroundings. If the second
one raises the alarm nothing is asked of the first. -/
def Paired (p : Pairing) (x y : Render α) : Prop := ∀ st dt, p.Beside st dt → p.At x y st dt

variable {st dt : RenderState}

/-- One step after another one. What the second step of the second render starts from is what the
first has left. -/
theorem At.bind_ran {x y : Render α} {f g : α → Render β} (hx : p.At x y st dt)
    (hf : ∀ a st' dt', y.run dt = (.ok a, dt') → p.Beside st' dt' → p.At (f a) (g a) st' dt') :
    p.At (x >>= f) (y >>= g) st dt := by
  unfold At at hx
  rw [At, Render.run_bind, Render.run_bind]
  generalize x.run st = left at hx
  generalize y.run dt = right at hx hf
  obtain ⟨r, st'⟩ := left
  obtain ⟨r', dt'⟩ := right
  rcases hx with ⟨e, he, halarm⟩ | ⟨hr, hst⟩
  · obtain rfl : r' = .error e := he
    exact .inl ⟨e, rfl, halarm⟩
  · obtain rfl : r' = r := hr
    cases r' with
    | ok a => exact hf a st' dt' rfl hst
    | error e => exact .inr ⟨rfl, hst⟩

/-- Steps that are paired at these states go on to be paired if what follows is paired anywhere. -/
theorem At.bind {x y : Render α} {f g : α → Render β} (hx : p.At x y st dt)
    (hf : ∀ a, p.Paired (f a) (g a)) : p.At (x >>= f) (y >>= g) st dt :=
  hx.bind_ran fun a st' dt' _ hst => hf a st' dt' hst

/-- Two states are written that belong beside each other. -/
theorem At.set {st' dt' : RenderState} (h : p.Beside st' dt') :
    p.At (MonadStateOf.set st' : Render Unit) (MonadStateOf.set dt') st dt :=
  .inr ⟨rfl, h⟩

namespace Paired

/-- Paired steps one after the other are paired. -/
theorem bind {x y : Render α} {f g : α → Render β} (hx : p.Paired x y)
    (hf : ∀ a, p.Paired (f a) (g a)) : p.Paired (x >>= f) (y >>= g) :=
  fun st dt hst => (hx st dt hst).bind hf

theorem pure (a : α) : p.Paired (Pure.pure a) (Pure.pure a) := fun _ _ hst => .inr ⟨rfl, hst⟩

theorem throw (e : RenderFailure) :
    p.Paired (throwThe RenderFailure e : Render α) (throwThe RenderFailure e) :=
  fun _ _ hst => .inr ⟨rfl, hst⟩

/-- The same for a fault that gets its place later. -/
theorem fail (fault : RenderFault) : p.Paired (Render.fail fault : Render α) (Render.fail fault) :=
  .throw _

theorem ofExcept (r : Except RenderFault α) :
    p.Paired (Render.ofExcept r) (Render.ofExcept r) := by
  cases r with
  | ok a => exact .pure a
  | error fault => exact .fail fault

/-- Steps that read the state go on from states that are the same but for the surroundings. -/
theorem get_bind {f g : RenderState → Render β}
    (h : ∀ st around, p.rel st.around around →
      p.At (f st) (g { st with around }) st { st with around }) :
    p.Paired (get >>= f) (get >>= g) := by
  rintro st _ ⟨around, rfl, hrel⟩
  exact h st around hrel

/-- A change of the state is the same on both sides if it neither reads the surroundings nor changes
them. -/
theorem modify {f : RenderState → RenderState}
    (h : ∀ st around, f { st with around } = { f st with around } ∧ (f st).around = st.around) :
    p.Paired (modify f : Render Unit) (modify f) := by
  rintro st _ ⟨around, rfl, hrel⟩
  obtain ⟨hf, haround⟩ := h st around
  refine .inr ⟨rfl, around, hf, ?_⟩
  exact haround ▸ hrel

/-- An error takes its place along in both. -/
theorem leaving {x y : Render Unit} (name : Option String) (place : Option Position)
    (h : p.Paired x y) :
    p.Paired (tryCatch x fun e => throwThe RenderFailure (e.leaving name place))
      (tryCatch y fun e => throwThe RenderFailure (e.leaving name place)) := by
  intro st dt hst
  have hat := h st dt hst
  unfold At at hat
  rw [At, Render.run_tryCatch, Render.run_tryCatch]
  generalize x.run st = left at hat
  generalize y.run dt = right at hat
  obtain ⟨r, st'⟩ := left
  obtain ⟨r', dt'⟩ := right
  rcases hat with ⟨e, he, halarm⟩ | ⟨hr, hst'⟩
  · obtain rfl : r' = .error e := he
    exact .inl ⟨_, rfl, halarm⟩
  · obtain rfl : r' = r := hr
    cases r' with
    | ok _ => exact .inr ⟨rfl, hst'⟩
    | error e => exact .inr ⟨rfl, hst'⟩

/-! ## Steps of the page -/

/-- Text is put on both pages. -/
theorem emit (text : String) : p.Paired (Render.emit text) (Render.emit text) :=
  .modify fun _ _ => ⟨rfl, rfl⟩

theorem write (text : String) : p.Paired (Render.write text) (Render.write text) := by
  unfold Render.write
  split
  · exact .pure ()
  · exact .get_bind fun st around hrel => .set ⟨around, rfl, hrel⟩

/-- A value is shown in the same way, since both sides escape alike. -/
theorem writeValue (v : Value) :
    p.Paired (Render.writeValue p.left v) (Render.writeValue p.right v) := by
  unfold Render.writeValue
  rw [p.escape_eq]
  refine .get_bind fun st around hrel => ?_
  split
  · exact write _ st _ ⟨around, rfl, hrel⟩
  · exact write _ st _ ⟨around, rfl, hrel⟩

/-- What paired steps write is taken off both pages, and is the same text. -/
theorem capture {x y : Render Unit} (h : p.Paired x y) :
    p.Paired (Render.capture x) (Render.capture y) := by
  refine .get_bind fun st around hrel => ?_
  refine At.bind (.inr ⟨rfl, around, rfl, hrel⟩) fun _ => .bind h fun _ => ?_
  refine .get_bind fun st' around' hrel' => At.bind ?_ fun _ => .pure _
  exact .inr ⟨rfl, around', rfl, hrel'⟩

/-- A block is entered on both sides. -/
theorem pushBlock (block : BlockContext) :
    p.Paired (Render.pushBlock block) (Render.pushBlock block) := .modify fun _ _ => ⟨rfl, rfl⟩

/-- A block is left on both sides. -/
theorem popBlock : p.Paired Render.popBlock Render.popBlock := .modify fun _ _ => ⟨rfl, rfl⟩

/-- The innermost block is changed in the same way on both sides. -/
theorem updateBlock (f : BlockContext → BlockContext) :
    p.Paired (Render.updateBlock f) (Render.updateBlock f) := .modify fun _ _ => ⟨rfl, rfl⟩

/-- Paired steps are paired as a piece of their own, if where it is indented does not depend on the
surroundings. -/
theorem asPiece {indents : RenderState → Bool}
    (hindents : ∀ st around, indents { st with around } = indents st) {x y : Render Unit}
    (h : p.Paired x y) : p.Paired (Render.asPiece indents x) (Render.asPiece indents y) := by
  refine .get_bind fun before around hrel => ?_
  rw [hindents before around]
  refine At.bind (.set ⟨around, rfl, hrel⟩) fun _ => .bind h fun _ => ?_
  refine .modify fun st around => ?_
  dsimp only
  split
  · exact ⟨rfl, rfl⟩
  · exact ⟨rfl, rfl⟩

end Paired

/-! ## Calls -/

/-- Calls with the same name and arguments. The bodies of one and the other do the same. -/
inductive CallsBeside (p : Pairing) : Call → Call → Prop
  | mk (call : Call) {body body' inverse inverse' : Option (Render Unit)}
      (hbody : Option.Rel p.Paired body body') (hinverse : Option.Rel p.Paired inverse inverse') :
      CallsBeside p { call with body, inverse } { call with body := body', inverse := inverse' }

/-- Calls that belong beside each other have a body, and an inverse, on both sides or on neither. -/
theorem CallsBeside.occasion_eq {c d : Call} (h : p.CallsBeside c d) :
    c.occasion = d.occasion := by
  obtain ⟨call, hbody, hinverse⟩ := h
  simp only [Call.occasion, Call.snapshot, isSome_eq_of_rel hbody, isSome_eq_of_rel hinverse]

/-- A helper does the same in both renders. -/
def RunsBeside (p : Pairing) (helper : Helper) : Prop :=
  ∀ c d, p.CallsBeside c d → p.Paired (c.run p.left helper) (d.run p.right helper)

/-- A call without bodies goes with itself. -/
theorem CallsBeside.of_bodiless {call : Call} (hbody : call.body = none)
    (hinverse : call.inverse = none) : p.CallsBeside call call := by
  have hcall : call = { call with body := none, inverse := none } := by
    cases call
    cases hbody
    cases hinverse
    rfl
  rw [hcall]
  exact .mk call .none .none

namespace Paired

variable {c d : Call}

/-- An argument is asked for in the same way. -/
theorem require (call : Call) (helper : String) (index : Nat) :
    p.Paired (call.require helper index) (call.require helper index) := by
  unfold Call.require
  split
  · exact .pure _
  · exact .fail _

theorem requireValue (call : Call) (index : Nat) (fault : RenderFault) :
    p.Paired (call.requireValue p.left index fault) (call.requireValue p.right index fault) := by
  unfold Call.requireValue
  rw [p.strict_eq]
  split
  · split
    · exact .fail _
    · exact .pure _
  · exact .fail _

/-- Bodies that are paired are rendered in their place on both sides. -/
theorem runBody {body body' : Option (Render Unit)} (h : Option.Rel p.Paired body body') :
    p.Paired (Call.runBody body) (Call.runBody body') := by
  cases h with
  | none => exact .pure ()
  | some h => exact h

/-- Which of two bodies is taken is decided in the same way on both sides. -/
theorem rel_ite {a b a' b' : Option (Render Unit)} (h : Option.Rel p.Paired a b)
    (h' : Option.Rel p.Paired a' b') (holds : Bool) :
    Option.Rel p.Paired (if holds then a else a') (if holds then b else b') := by
  cases holds with
  | true => exact h
  | false => exact h'

/-- The inverse is rendered on both sides, or there is none and a value may be missing. -/
theorem runInverse (h : p.CallsBeside c d) (arg : Arg) :
    p.Paired (c.runInverse p.left arg) (d.runInverse p.right arg) := by
  obtain ⟨call, -, hinverse⟩ := h
  unfold Call.runInverse
  rw [p.strict_eq]
  cases hinverse with
  | none =>
    dsimp only
    split
    · exact .fail _
    · exact .pure ()
  | some hinverse => exact hinverse

/-- A loop takes the same turns on both sides. The induction is on the turns that are left. -/
theorem loop (h : p.CallsBeside c d) (arg : Arg) {body body' : Render Unit}
    (hbody : p.Paired body body') (count index : Nat) (turns : List Call.Turn) :
    p.Paired (c.loop arg body count index turns) (d.loop arg body' count index turns) := by
  induction turns generalizing index with
  | nil => exact .pure ()
  | cons turn rest ih =>
    obtain ⟨call, -, -⟩ := h
    unfold Call.loop
    exact .bind (.updateBlock _) fun _ => .bind hbody fun _ => ih _

/-- The helper that loops does the same on both sides. -/
theorem runEach (h : p.CallsBeside c d) : p.Paired (c.runEach p.left) (d.runEach p.right) := by
  obtain ⟨call, hbody, hinverse⟩ := h
  have h := CallsBeside.mk call hbody hinverse
  refine .bind (.require call _ _) fun arg => ?_
  cases hbody with
  | none => exact .pure ()
  | some hbody =>
    dsimp only
    split
    · exact .runInverse h arg
    · rw [← isSome_eq_of_rel hinverse]
      split
      · exact .runInverse h arg
      · refine .bind (.pushBlock _) fun _ => ?_
        exact .bind (.loop h arg hbody _ _ _) fun _ => .popBlock

/-- The helper that enters a value does the same on both sides. -/
theorem runWith (h : p.CallsBeside c d) : p.Paired (c.runWith p.left) (d.runWith p.right) := by
  obtain ⟨call, hbody, hinverse⟩ := h
  refine .bind (.require call _ _) fun arg => ?_
  split
  · exact .bind (.pushBlock _) fun _ => .bind (.runBody hbody) fun _ => .popBlock
  · exact .runInverse (.mk call hbody hinverse) arg

/-- The helper that decides does the same on both sides. -/
theorem runWhen (h : p.CallsBeside c d) (positive : Bool) :
    p.Paired (c.runWhen positive) (d.runWhen positive) := by
  obtain ⟨call, hbody, hinverse⟩ := h
  exact .bind (.require call _ _) fun arg => .runBody (rel_ite hbody hinverse _)

/-- The helper that logs does the same on both sides. -/
theorem runLog (h : p.CallsBeside c d) : p.Paired c.runLog d.runLog := by
  obtain ⟨call, -, -⟩ := h
  unfold Call.runLog
  dsimp only [Call.option?]
  split
  · exact .pure ()
  · exact .fail _

/-- A helper of its own renders one of its bodies on both sides. -/
theorem runPart (h : p.CallsBeside c d) (inverse : Bool) (own : Option Value) :
    p.Paired (c.runPart inverse own) (d.runPart inverse own) := by
  obtain ⟨call, hbody, hinverse⟩ := h
  have hpart := runBody (rel_ite hinverse hbody inverse)
  cases own with
  | none => exact hpart
  | some v => exact .bind (.pushBlock _) fun _ => .bind hpart fun _ => .popBlock

/-- What a routine asks for is answered in the same way in both renders. -/
theorem perform (h : p.CallsBeside c d) (aside : List String) (routine : Routine) :
    p.Paired (c.perform p.left aside routine) (d.perform p.right aside routine) := by
  induction routine generalizing aside with
  | done => exact .pure ()
  | fail fault => exact .fail fault
  | write text next ih => exact .bind (.emit _) fun _ => ih aside
  | look reference next ih =>
    unfold Call.perform
    rw [p.data_eq, p.outward_eq]
    exact .get_bind fun st around hrel => ih _ aside st _ ⟨around, rfl, hrel⟩
  | place inverse own next ih => exact .bind (.runPart h inverse own) fun _ => ih aside
  | keep inverse own next ih => exact .bind (.capture (.runPart h inverse own)) fun _ => ih _
  | take inverse own next ih => exact .bind (.capture (.runPart h inverse own)) fun _ => ih _ aside

/-- The helper that looks a field up finds the same on both sides. -/
theorem lookup (call : Call) : p.Paired (call.lookup p.left) (call.lookup p.right) := by
  unfold Call.lookup
  rw [p.strict_eq]
  refine .bind (.require _ _ _) fun collection => .bind (.require _ _ _) fun index => ?_
  dsimp only
  split
  · exact .pure _
  · split
    · exact .fail _
    · exact .pure _

/-- The helpers of the language give the same value on both sides, or none on either. -/
theorem builtinValue? (call : Call) (builtin : Builtin) :
    Option.Rel p.Paired (call.builtinValue? p.left builtin)
      (call.builtinValue? p.right builtin) := by
  cases builtin with
  | lookup => exact .some (.lookup call)
  | compare c =>
    refine .some (.bind (.requireValue call _ _) fun a => ?_)
    exact .bind (.requireValue call _ _) fun b => .pure _
  | all => exact .some (.pure _)
  | any => exact .some (.pure _)
  | not => exact .some (.bind (.requireValue call _ _) fun a => .pure _)
  | len => exact .some (.bind (.requireValue call _ _) fun a => .pure _)
  | _ => exact .none

/-- What a helper gives within an expression does not depend on the bodies of the call. -/
theorem value? (h : p.CallsBeside c d) (helper : Helper) :
    Option.Rel p.Paired (c.value? p.left helper) (d.value? p.right helper) := by
  obtain ⟨call, -, -⟩ := h
  cases helper with
  | builtin builtin => exact builtinValue? call builtin
  | value compute => exact .some (.bind (.ofExcept _) fun v => .pure _)
  | _ => exact .none

/-- A value that a helper gives is shown on both sides. -/
theorem showValue {given given' : Render Resolved} (h : p.Paired given given') :
    p.Paired (Call.showValue p.left given) (Call.showValue p.right given') := by
  unfold Call.showValue
  rw [p.strict_eq]
  refine .bind h fun r => ?_
  split
  · exact .fail _
  · exact .writeValue _

end Paired
end Pairing

/-- Whether a helper leaves what is beyond the page alone: it neither captures nor writes fragments,
starts no job and counts no call. -/
def Helper.isQuiet : Helper → Bool
  | contentFor | block | deferred _ _ | immediate _ _ => false
  | _ => true

namespace Pairing

variable {p : Pairing}

/-- A helper that leaves what is beyond the page alone does the same in both renders. -/
theorem RunsBeside.of_isQuiet {helper : Helper} (hquiet : helper.isQuiet) :
    p.RunsBeside helper := by
  intro c d h
  have hvalue := Paired.value? h helper
  unfold Call.run
  generalize c.value? p.left helper = given at hvalue
  generalize d.value? p.right helper = given' at hvalue
  obtain ⟨call, hbody, hinverse⟩ := id h
  cases hvalue with
  | some hgiven =>
    dsimp only
    split
    · split
      · refine .bind hgiven fun r => ?_
        split
        · exact .runBody (Paired.rel_ite hbody hinverse _)
        · exact .emit _
      · exact .showValue hgiven
    · exact .showValue hgiven
  | none =>
    dsimp only
    split
    · exact .runWhen h _
    · exact .runEach h
    · exact .runWith h
    · exact .runBody hbody
    · exact .runLog h
    · cases hquiet
    · cases hquiet
    · cases hquiet
    · cases hquiet
    · exact .bind (.ofExcept _) fun text => .emit text
    · rw [h.occasion_eq]
      exact .perform h [] _
    · exact .pure ()

/-- A helper does the same within an expression of both renders. -/
theorem RunsBeside.asOperand {helper : Helper} (hruns : p.RunsBeside helper) {c d : Call}
    (h : p.CallsBeside c d) :
    p.Paired (c.asOperand p.left helper) (d.asOperand p.right helper) := by
  have hvalue := Paired.value? h helper
  unfold Call.asOperand
  generalize c.value? p.left helper = given at hvalue
  generalize d.value? p.right helper = given' at hvalue
  cases hvalue with
  | some hgiven => exact hgiven
  | none =>
    refine .get_bind fun st around hrel => ?_
    refine At.bind (.inr ⟨rfl, around, rfl, hrel⟩) fun _ => .bind (.capture (hruns c d h)) ?_
    exact fun text => .bind (.modify fun _ _ => ⟨rfl, rfl⟩) fun _ => .pure _

/-! ## Helpers that are not to be called -/

/-- A helper that does nothing but fail with an alarm. -/
def Sounds (p : Pairing) (helper : Helper) : Prop :=
  ∃ fault, p.alarm fault ∧ helper = .writer fun _ => .error fault

/-- Every helper of the first render does the same in the second, or the second has a helper in its
place that fails with an alarm. -/
def HelpersBeside (p : Pairing) : Prop :=
  ∀ name, (∃ helper, Assoc.find? name p.right.registry.helpers = some helper ∧ p.Sounds helper) ∨
    Assoc.find? name p.right.registry.helpers = Assoc.find? name p.left.registry.helpers ∧
      ∀ helper, Assoc.find? name p.left.registry.helpers = some helper → p.RunsBeside helper

/-- The same holds with the helpers that stand in for those that are not there. -/
theorem HelpersBeside.helperFor? (h : p.HelpersBeside) (name : String) (isBlock : Bool) :
    (∃ helper, p.right.registry.helperFor? name isBlock = some helper ∧ p.Sounds helper) ∨
      p.right.registry.helperFor? name isBlock = p.left.registry.helperFor? name isBlock ∧
        ∀ helper, p.left.registry.helperFor? name isBlock = some helper → p.RunsBeside helper := by
  unfold Registry.helperFor?
  rcases h name with ⟨helper, hfind, hsounds⟩ | ⟨hsame, hruns⟩
  · exact .inl ⟨helper, by rw [hfind]; rfl, hsounds⟩
  · rw [hsame]
    cases hfind : Assoc.find? name p.left.registry.helpers with
    | some helper =>
      refine .inr ⟨rfl, ?_⟩
      rintro _ ⟨⟩
      exact hruns helper hfind
    | none => exact h _

end Pairing
end Views
