import Views.Proofs.Render.Prompt
import Views.Proofs.Token.Renaming
/-!
# Rendering with tokens follows rendering with values

The same template is rendered twice: once with deferred helpers, which leave tokens on the page, and
once beside it. The other render may write the values at once, and then its page is what the page
with tokens means; or it may leave tokens of its own, and then the pages are the same up to the
names of tokens. Both are said by `Denotes`, with the values of tokens or with their other names.

`Passage.States` relates the states of the two renders, `Passage.Follows` two steps that lead from
related states to related states and end alike. The surroundings are related by `Passage.Arounds`:
fragments are the same up to tokens, and the tokens that one scope waits for have the values, or the
other names, by which texts are related. What the steps of one render share with those of the other
is said here once for the combinators that steps are built from; the modules after this one go
through helpers, operands and templates.
-/

namespace Views

open Glyph

/-! ## Related states -/

/-- What is fixed while a template is rendered: the registry, whose helpers leave texts with tokens
alone, the tokens in the order in which they are drawn and how many were at the start, and the
values of tokens drawn in an earlier pass. Within an expression the two renders are to write the
same text, and the passage is plain. -/
structure Passage where
  registry : Registry
  verbatim : registry.Verbatim
  source : Nat → Token
  base : Nat := 0
  known : TokenValues := []
  plain : Bool := false
  /-- The tokens of the other render, if it leaves tokens and does not write values at once. -/
  other : Option (Nat → Token) := none

namespace Passage

/-- What the render with tokens writes, and what the other one does. -/
def Writes (p : Passage) (values : TokenValues) (a b : String) : Prop :=
  if p.plain then a = b else Denotes values a b

/-- What the two scopes wait for. If values are written at once, the values that matter are those
known from before and those that the scope with tokens waits for, and the other scope waits for
none. Else both wait for jobs that end alike, under the one name and the other. -/
def Waits (p : Passage) (values : TokenValues) (s d : Deferrals) : Prop :=
  match p.other with
  | none => values = p.known ++ s.pending.map Pending.shown ∧ d.pending = []
  | some _ => List.Forall₂ (Pending.Renamed values) s.pending d.pending

/-- Scopes with the same fragments up to tokens, that wait for the same. If the other render writes
its values at once its scope waits for nothing. -/
structure Scopes (p : Passage) (values : TokenValues) (s d : PageScope) : Prop where
  fragments : ∀ name, List.Forall₂ (Denotes values) (s.blocks.pending name) (d.blocks.pending name)
  waits : p.Waits values s.deferrals d.deferrals

/-- Beside a run that writes values at once, the values are those that are known already and those
that are still waited for. -/
theorem Scopes.values_eq {p : Passage} {values : TokenValues} {s d : PageScope}
    (h : p.Scopes values s d) (hother : p.other = none) :
    values = p.known ++ s.deferrals.pending.map Pending.shown := by
  have hwaits := h.waits
  rw [Waits, hother] at hwaits
  exact hwaits.1

/-- Beside such a run nothing is waited for on the other side. -/
theorem Scopes.settled {p : Passage} {values : TokenValues} {s d : PageScope}
    (h : p.Scopes values s d) (hother : p.other = none) : d.deferrals.pending = [] := by
  have hwaits := h.waits
  rw [Waits, hother] at hwaits
  exact hwaits.2

/-- The tokens of some values were drawn one after the other and not twice. -/
def Drawn (p : Passage) (values : TokenValues) (used : Nat) : Prop :=
  p.base ≤ used ∧ TokenSupply.HasGiven ⟨p.source, used⟩ (values.map Prod.fst)

/-- In the other render the other names were drawn, if it draws any. -/
def DrawnBeside (p : Passage) (values : TokenValues) (tokens : TokenSupply) : Prop :=
  ∀ source ∈ p.other, tokens.source = source ∧ tokens.HasGiven (values.map Prod.snd)

/-- Surroundings with related scopes. The tallies are the same unless they do not matter, and the
tokens that the values are for have been given out, in their order. -/
structure Arounds (p : Passage) (values : TokenValues) (a d : Surroundings) : Prop where
  scope : ∃ s s', a.scope = some s ∧ d.scope = some s' ∧ p.Scopes values s s'
  source_eq : a.tokens.source = p.source
  drawn : p.Drawn values a.tokens.used
  beside : p.DrawnBeside values d.tokens
  calls : a.calls = d.calls ∨ p.registry.Steady

/-- States that are the same up to tokens in what is written. -/
structure States (p : Passage) (values : TokenValues) (st dt : RenderState) : Prop where
  around : p.Arounds values st.around dt.around
  blocks : st.blocks = dt.blocks
  prompt : ∀ block ∈ st.blocks, block.PartialsPrompt p.registry
  given : List.Forall₂ (Option.Rel (Denotes values)) st.given dt.given
  current : st.current = dt.current
  escapes : st.escapes = dt.escapes
  atLineEnd : st.atLineEnd = dt.atLineEnd
  produced : st.produced = dt.produced
  indentsNext : st.indentsNext = dt.indentsNext
  indent : st.indent = dt.indent
  out : p.Writes values st.out dt.out

namespace Writes

variable {p : Passage} {values more : TokenValues} {a b a' b' : String}

theorem refl (p : Passage) (values : TokenValues) (a : String) : p.Writes values a a := by
  unfold Writes
  split
  · rfl
  · exact .refl _ _

/-- What is written on the two sides denotes the same. -/
theorem denotes (h : p.Writes values a b) : Denotes values a b := by
  unfold Writes at h
  split at h
  · rw [h]
    exact .refl _ _
  · exact h

/-- Where texts need not be plain, what denotes the same may be written. -/
theorem of_denotes (hplain : p.plain = false) (h : Denotes values a b) : p.Writes values a b := by
  rw [Writes, hplain]
  exact h

theorem mono (hsub : values ⊆ more) (h : p.Writes values a b) : p.Writes more a b := by
  unfold Writes at h ⊢
  split at h
  · rwa [if_pos ‹_›]
  · rw [if_neg ‹_›]
    exact h.mono hsub

/-- What is related in a passage that is plain where another one is, is related in the other. -/
theorem withPlain {plain : Bool} (hplain : p.plain → plain)
    (h : { p with plain }.Writes values a b) : p.Writes values a b := by
  by_cases hp : p.plain
  · have heq : { p with plain } = p := by rw [hplain hp, ← hp]
    rwa [heq] at h
  · exact of_denotes (by simpa using hp) h.denotes

/-- What is written piece by piece may be written at once. -/
theorem append (h : p.Writes values a b) (h' : p.Writes values a' b') :
    p.Writes values (a ++ a') (b ++ b') := by
  unfold Writes at h h' ⊢
  split at h
  · rw [if_pos ‹_›] at h' ⊢
    rw [h, h']
  · rw [if_neg ‹_›] at h' ⊢
    exact h.append h'

end Writes

/-- Surroundings belong beside each other whether or not texts have to be plain. -/
theorem Arounds.withPlain {p : Passage} {values : TokenValues} {a d : Surroundings}
    (plain : Bool) (h : p.Arounds values a d) : { p with plain }.Arounds values a d := by
  obtain ⟨s, s', hs, hs', hscopes⟩ := h.scope
  exact ⟨⟨s, s', hs, hs', hscopes.fragments, hscopes.waits⟩, h.source_eq, h.drawn, h.beside,
    h.calls⟩

/-- Related states stay related with other texts written. -/
theorem States.withOut {p : Passage} {values : TokenValues} {st dt : RenderState}
    {a b : String} (plain : Bool) (h : p.States values st dt)
    (hout : { p with plain }.Writes values a b) :
    { p with plain }.States values { st with out := a } { dt with out := b } :=
  { around := h.around.withPlain plain
    blocks := h.blocks
    prompt := h.prompt
    given := h.given
    current := h.current
    escapes := h.escapes
    atLineEnd := h.atLineEnd
    produced := h.produced
    indentsNext := h.indentsNext
    indent := h.indent
    out := hout }

end Passage

/-- Of two related options both have a value, or neither has. -/
theorem isSome_eq_of_rel {α β : Type} {rel : α → β → Prop} {a : Option α} {b : Option β}
    (h : Option.Rel rel a b) : a.isSome = b.isSome := by
  cases h <;> rfl

/-- Two results that are both there and related, or the same error. -/
inductive Alike {ε α β : Type} (rel : α → β → Prop) : Except ε α → Except ε β → Prop
  | ok {a b} : rel a b → Alike rel (.ok a) (.ok b)
  | error (e : ε) : Alike rel (.error e) (.error e)

/-- Results that are alike stay so in a wider sense. -/
theorem Alike.imp {ε α β : Type} {rel rel' : α → β → Prop} {r : Except ε α} {r' : Except ε β}
    (h : Alike rel r r') (himp : ∀ a b, rel a b → rel' a b) : Alike rel' r r' := by
  cases h with
  | ok h => exact .ok (himp _ _ h)
  | error e => exact .error e

/-! ## Texts made of parts -/

namespace Wording

variable {rel : String → String → Prop} {aside aside' : List String}

/-- A text that was set aside is related to the one on the other side, also where there is none. -/
theorem getD_alike (hrefl : ∀ text, rel text text) (h : List.Forall₂ rel aside aside')
    (back : Nat) : rel (aside[back]?.getD "") (aside'[back]?.getD "") := by
  induction h generalizing back with
  | nil => exact hrefl _
  | cons hlast _ ih =>
    cases back with
    | zero => exact hlast
    | succ back => exact ih back

/-- Texts made of the same parts are alike if the texts that were set aside are. -/
theorem join_alike (hrefl : ∀ text, rel text text)
    (happend : ∀ {a b a' b'}, rel a b → rel a' b' → rel (a ++ a') (b ++ b'))
    (h : List.Forall₂ rel aside aside') (text : List Wording) :
    rel (join aside text) (join aside' text) := by
  induction text with
  | nil => exact hrefl _
  | cons part rest ih =>
    cases part with
    | literal text => exact happend (hrefl text) ih
    | aside back => exact happend (getD_alike hrefl h back) ih

end Wording

/-! ## Fragments that are alike -/

namespace Blocks

variable {rel : String → String → Prop} {blocks blocks' : Blocks}
  (h : ∀ name, List.Forall₂ rel (blocks.pending name) (blocks'.pending name))

include h

/-- Blocks that are related stay so when related fragments are captured. -/
theorem capture_alike (name : String) {fragment fragment' : String}
    (hfragment : rel fragment fragment') (other : String) :
    List.Forall₂ rel ((blocks.capture name fragment).pending other)
      ((blocks'.capture name fragment').pending other) := by
  by_cases hname : other = name
  · subst hname
    rw [pending_capture_self, pending_capture_self]
    exact List.rel_append (h other) (.cons hfragment .nil)
  · rw [pending_capture_of_ne hname, pending_capture_of_ne hname]
    exact h other

/-- They stay so when a name is emitted. -/
theorem emit_alike (name other : String) :
    List.Forall₂ rel ((blocks.emit name).2.pending other)
      ((blocks'.emit name).2.pending other) := by
  by_cases hname : other = name
  · subst hname
    rw [pending_emit_self, pending_emit_self]
    exact .nil
  · rw [pending_emit_of_ne hname, pending_emit_of_ne hname]
    exact h other

/-- Whether anything is left to emit depends on how many fragments there are. -/
theorem hasPending_alike (name : String) : blocks.hasPending name = blocks'.hasPending name := by
  have hfragments := h name
  unfold hasPending
  generalize blocks.pending name = fragments at hfragments ⊢
  generalize blocks'.pending name = fragments' at hfragments ⊢
  cases hfragments with
  | nil => rfl
  | cons _ _ => rfl

end Blocks

/-! ## Steps that follow each other -/

@[simp] theorem Render.run_pure {α : Type} (a : α) (st : RenderState) :
    (pure a : Render α).run st = (.ok a, st) := rfl

@[simp] theorem Render.run_get (st : RenderState) :
    (get : Render RenderState).run st = (.ok st, st) := rfl

@[simp] theorem Render.run_set (st st' : RenderState) :
    (set st' : Render Unit).run st = (.ok (), st') := rfl

@[simp] theorem Render.run_modify (f : RenderState → RenderState) (st : RenderState) :
    (modify f : Render Unit).run st = (.ok (), f st) := rfl

/-- A step is run, and if it gives a value the next one is run from where it has led. -/
theorem Render.run_bind {α β : Type} (x : Render α) (f : α → Render β) (st : RenderState) :
    (x >>= f).run st = match x.run st with
      | (.ok a, st') => (f a).run st'
      | (.error e, st') => (.error e, st') := by
  show (ExceptT.run x >>= ExceptT.bindCont f) st = _
  show (let (r, st') := x.run st; ExceptT.bindCont f r st') = _
  rcases x.run st with ⟨r, st'⟩
  cases r <;> rfl

/-- A step is run, and if it fails its error is handled where it has led. -/
theorem Render.run_tryCatch {α : Type} (x : Render α) (handle : RenderFailure → Render α)
    (st : RenderState) :
    (tryCatch x handle).run st = match x.run st with
      | (.ok a, st') => (.ok a, st')
      | (.error e, st') => (handle e).run st' := by
  show ExceptT.tryCatch x handle st = _
  unfold ExceptT.tryCatch ExceptT.mk
  show StateT.bind (ExceptT.run x) _ st = _
  unfold StateT.bind
  show (match ExceptT.run x st with | (a, s) => _) = _
  rcases ExceptT.run x st with ⟨r, st'⟩
  cases r <;> rfl

/-- A step is run on an empty page, and what it has written is given; the page is as before. -/
theorem Render.run_capture (step : Render Unit) (st : RenderState) :
    (Render.capture step).run st = match step.run { st with out := "" } with
      | (.ok _, st') => (.ok st'.out, { st' with out := st.out })
      | (.error e, st') => (.error e, st') := by
  unfold Render.capture
  simp only [Render.run_bind, Render.run_get, Render.run_modify]
  rcases step.run { st with out := "" } with ⟨r, st'⟩
  cases r <;> rfl

namespace Passage

variable {p : Passage} {α β α' β' : Type} {values more : TokenValues}

/-- From two given states, related by some values, two steps lead to states that are related by the
same values and perhaps some more, and they end alike. -/
def FollowsAt (p : Passage) (rel : TokenValues → α → β → Prop) (values : TokenValues)
    (st dt : RenderState) (x : Render α) (y : Render β) : Prop :=
  ∃ more, values ⊆ more ∧ p.States more (x.run st).2 (y.run dt).2 ∧
    Alike (rel more) (x.run st).1 (y.run dt).1

/-- Two steps do so from all states that are related by some values and perhaps more. The values may
grow while the steps go on, as tokens are given out, and what was related stays related. -/
def Follows (p : Passage) (rel : TokenValues → α → β → Prop) (values : TokenValues)
    (x : Render α) (y : Render β) : Prop :=
  ∀ more st dt, values ⊆ more → p.States more st dt → p.FollowsAt rel more st dt x y

/-- Results that are the same whatever the values. -/
def Same : TokenValues → α → α → Prop := fun _ a b => a = b

theorem Follows.mono {rel : TokenValues → α → β → Prop} {x : Render α} {y : Render β}
    (hsub : values ⊆ more) (h : p.Follows rel values x y) : p.Follows rel more x y :=
  fun more' st dt hmore hst => h more' st dt (List.Subset.trans hsub hmore) hst

/-- What follows from all related states does so from some of them. -/
theorem Follows.anywhere {rel : TokenValues → α → β → Prop} {x : Render α} {y : Render β}
    (h : p.Follows rel [] x y) : p.Follows rel values x y :=
  h.mono (List.nil_subset _)

/-- Steps that follow each other at these states go on to do so, with the values that the first have
added. -/
theorem FollowsAt.bind {rel : TokenValues → α → β → Prop} {rel' : TokenValues → α' → β' → Prop}
    {st dt : RenderState} {x : Render α} {y : Render β} {f : α → Render α'} {g : β → Render β'}
    (hx : p.FollowsAt rel values st dt x y)
    (hf : ∀ more st' dt' a b, values ⊆ more → p.States more st' dt' → rel more a b →
      p.FollowsAt rel' more st' dt' (f a) (g b)) :
    p.FollowsAt rel' values st dt (x >>= f) (y >>= g) := by
  obtain ⟨more, hsub, hst, hends⟩ := hx
  rw [FollowsAt, Render.run_bind, Render.run_bind]
  generalize x.run st = left at hst hends
  generalize y.run dt = right at hst hends
  obtain ⟨r, st'⟩ := left
  obtain ⟨r', dt'⟩ := right
  cases hends with
  | ok hab =>
    obtain ⟨more', hsub', hst', hends'⟩ := hf more st' dt' _ _ hsub hst hab
    exact ⟨more', List.Subset.trans hsub hsub', hst', hends'⟩
  | error e => exact ⟨more, hsub, hst, .error e⟩

/-- Steps that follow each other do so one after the other. -/
theorem Follows.bind {rel : TokenValues → α → β → Prop} {rel' : TokenValues → α' → β' → Prop}
    {x : Render α} {y : Render β} {f : α → Render α'} {g : β → Render β'}
    (hx : p.Follows rel values x y)
    (hf : ∀ more a b, values ⊆ more → rel more a b → p.Follows rel' more (f a) (g b)) :
    p.Follows rel' values (x >>= f) (y >>= g) := by
  intro more st dt hsub hst
  refine (hx more st dt hsub hst).bind fun more' st' dt' a b hsub' hst' hab => ?_
  exact hf more' a b (List.Subset.trans hsub hsub') hab more' st' dt' (List.Subset.refl _) hst'

theorem Follows.pure {rel : TokenValues → α → β → Prop} {a : α} {b : β}
    (h : ∀ more, values ⊆ more → rel more a b) :
    p.Follows rel values (Pure.pure a) (Pure.pure b) :=
  fun more _ _ hsub hst => ⟨more, List.Subset.refl _, hst, .ok (h more hsub)⟩

/-- A value is given on both sides. -/
theorem Follows.pure_same (a : α) : p.Follows Same values (Pure.pure a) (Pure.pure a) :=
  .pure fun _ _ => rfl

theorem Follows.throw {rel : TokenValues → α → β → Prop} (e : RenderFailure) :
    p.Follows rel values (throwThe RenderFailure e) (throwThe RenderFailure e) :=
  fun more _ _ _ hst => ⟨more, List.Subset.refl _, hst, .error e⟩

/-- The same for a fault that gets its place later. -/
theorem Follows.fail {rel : TokenValues → α → β → Prop} (fault : RenderFault) :
    p.Follows rel values (Render.fail fault) (Render.fail fault) :=
  .throw _

theorem Follows.ofExcept (x : Except RenderFault α) :
    p.Follows Same values (Render.ofExcept x) (Render.ofExcept x) := by
  cases x with
  | ok a => exact .pure_same a
  | error fault => exact .fail fault

/-- A step that reads the state goes on from the two states. -/
theorem Follows.get_bind {rel : TokenValues → α → β → Prop} {f : RenderState → Render α}
    {g : RenderState → Render β}
    (h : ∀ more st dt, values ⊆ more → p.States more st dt →
      p.FollowsAt rel more st dt (f st) (g dt)) :
    p.Follows rel values (get >>= f) (get >>= g) :=
  fun more st dt hsub hst => h more st dt hsub hst

/-- Changes follow each other if they lead from states that belong beside each other to such states.
-/
theorem Follows.modify {f g : RenderState → RenderState}
    (h : ∀ more st dt, values ⊆ more → p.States more st dt → p.States more (f st) (g dt)) :
    p.Follows Same values (modify f) (modify g) :=
  fun more st dt hsub hst => ⟨more, List.Subset.refl _, h more st dt hsub hst, .ok rfl⟩

/-- Two states are written that belong beside each other. -/
theorem FollowsAt.set {st dt st' dt' : RenderState} (hsub : values ⊆ more)
    (h : p.States more st' dt') :
    p.FollowsAt Same values st dt (MonadStateOf.set st') (MonadStateOf.set dt') :=
  ⟨more, hsub, h, .ok rfl⟩

/-- An error takes its place along in both. -/
theorem Follows.leaving {x y : Render Unit} (name : Option String) (place : Option Position)
    (h : p.Follows Same values x y) :
    p.Follows Same values (tryCatch x fun e => throwThe RenderFailure (e.leaving name place))
      (tryCatch y fun e => throwThe RenderFailure (e.leaving name place)) := by
  intro more st dt hsub hst
  obtain ⟨more', hsub', hst', hends⟩ := h more st dt hsub hst
  rw [FollowsAt, Render.run_tryCatch, Render.run_tryCatch]
  generalize x.run st = left at hst' hends
  generalize y.run dt = right at hst' hends
  obtain ⟨r, st'⟩ := left
  obtain ⟨r', dt'⟩ := right
  cases hends with
  | ok hab => exact ⟨more', hsub', hst', .ok hab⟩
  | error e => exact ⟨more', hsub', hst', .error _⟩

end Passage
end Views
