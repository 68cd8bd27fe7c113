import Views.Engine.Basic
import Mathlib.Logic.Relation
/-!
# What scripts ensure

A script is not alone with its state: while it waits, others may go on. `Terms` says what it may
count on, which answers it may get and what it owes for each of its own writes, and
`Script.Ensures` what holds at its end under these terms. A script that runs alone and is answered
at once ensures the same (`Script.Ensures.run`), and so does one that is advanced from question to
question (`Script.Ensures.advance`).

Terms are in the manner of rely and guarantee. Between two steps of a script others may write what
`rely` lets them; a write of the script itself has to be one of those that `owes` lets it do; and
after a question all that is known of the answer is that it is allowed. The rules for a sequence,
for reading and writing the state and for a question are all that is used of this in the other
modules.
-/

namespace Views

/-- What a script counts on and what it owes: what others may write while it waits, which answers it
may get, and which writes it may make itself. -/
structure Terms (σ : Type) where
  /-- What others do to the state while the script waits. -/
  rely : σ → σ → Prop
  /-- Which answers a question may get. -/
  allows : (q : Question) → q.Answer → Prop
  /-- What the script itself does to the state in one write. -/
  owes : σ → σ → Prop

/-- Terms of a script that runs alone: nothing happens while it waits. -/
def Terms.still {σ : Type} : Terms σ where
  rely s s' := s' = s
  allows _ _ := True
  owes _ _ := True

namespace Script

variable {σ α β γ ω : Type} {terms : Terms σ}

/-- Nothing comes after a script that is followed by its own result. -/
theorem bind_done (x : Script σ α) : x.bind done = x := by
  induction x with
  | done a => rfl
  | read next ih => exact congrArg read (funext ih)
  | write s next ih => exact congrArg (write s) ih
  | ask q next ih => exact congrArg (ask q) (funext ih)

/-- It does not matter how three scripts one after the other are grouped. -/
theorem bind_assoc (x : Script σ α) (f : α → Script σ β) (g : β → Script σ γ) :
    (x.bind f).bind g = x.bind fun a => (f a).bind g := by
  induction x with
  | done a => rfl
  | read next ih => exact congrArg read (funext ih)
  | write s next ih => exact congrArg (write s) ih
  | ask q next ih => exact congrArg (ask q) (funext ih)

instance : LawfulMonad (Script σ) :=
  LawfulMonad.mk' (Script σ) bind_done (fun _ _ => rfl) bind_assoc

/-- From a state on, the script writes only what it owes, and something holds at its end. -/
def Ensures (terms : Terms σ) (post : α → σ → Prop) : Script σ α → σ → Prop
  | done a, s => post a s
  | read next, s => Ensures terms post (next s) s
  | write s' next, s => terms.owes s s' ∧ Ensures terms post next s'
  | ask q next, s => ∀ answer, terms.allows q answer → ∀ s', terms.rely s s' →
      Ensures terms post (next answer) s'

/-- Of two scripts one after the other the second ensures what is wanted, from wherever the first
has led. -/
theorem ensures_bind {post : β → σ → Prop} {x : Script σ α} {k : α → Script σ β} {s : σ} :
    (x.bind k).Ensures terms post s ↔
      x.Ensures terms (fun a s => (k a).Ensures terms post s) s := by
  induction x generalizing s with
  | done a => exact Iff.rfl
  | read next ih => exact ih s
  | write s' next ih => exact and_congr_right fun _ => ih
  | ask q next ih =>
    refine forall_congr' fun answer => forall_congr' fun _ => forall_congr' fun s' => ?_
    exact forall_congr' fun _ => ih answer

theorem Ensures.mono {post post' : α → σ → Prop} (hpost : ∀ a s, post a s → post' a s)
    {x : Script σ α} {s : σ} (h : x.Ensures terms post s) : x.Ensures terms post' s := by
  induction x generalizing s with
  | done a => exact hpost a s h
  | read next ih => exact ih s h
  | write s' next ih => exact ⟨h.1, ih h.2⟩
  | ask q next ih => exact fun answer hanswer s' hs' => ih answer (h answer hanswer s' hs')

/-- What every write that a script owes, and everything that others may do, leaves related, the
whole script leaves related. -/
theorem Ensures.within {rel : σ → σ → Prop} (hrefl : ∀ s, rel s s)
    (htrans : ∀ {s s' s''}, rel s s' → rel s' s'' → rel s s'')
    (howes : ∀ {s s'}, terms.owes s s' → rel s s') (hrely : ∀ {s s'}, terms.rely s s' → rel s s')
    {post : α → σ → Prop} {x : Script σ α} {s : σ} (h : x.Ensures terms post s) :
    x.Ensures terms (fun a s' => post a s' ∧ rel s s') s := by
  induction x generalizing s with
  | done a => exact ⟨h, hrefl s⟩
  | read next ih => exact ih s h
  | write s' next ih =>
    refine ⟨h.1, (ih h.2).mono fun a s'' hpost => ?_⟩
    exact ⟨hpost.1, htrans (howes h.1) hpost.2⟩
  | ask q next ih =>
    intro answer hanswer s' hs'
    refine (ih answer (h answer hanswer s' hs')).mono fun a s'' hpost => ?_
    exact ⟨hpost.1, htrans (hrely hs') hpost.2⟩

/-- What a script ensures it ensures under easier terms. -/
theorem Ensures.of_terms {terms' : Terms σ} {post : α → σ → Prop} {x : Script σ α} {s : σ}
    (h : x.Ensures terms post s) (hrely : ∀ {s s'}, terms'.rely s s' → terms.rely s s')
    (hallows : ∀ {q answer}, terms'.allows q answer → terms.allows q answer)
    (howes : ∀ {s s'}, terms.owes s s' → terms'.owes s s') : x.Ensures terms' post s := by
  induction x generalizing s with
  | done a => exact h
  | read next ih => exact ih s h
  | write s' next ih => exact ⟨howes h.1, ih h.2⟩
  | ask q next ih =>
    intro answer hanswer s' hs'
    exact ih answer (h answer (hallows hanswer) s' (hrely hs'))

/-- Two scripts one after the other are run one after the other, the second from the state and the
world in which the first has ended. -/
theorem run_bind (reply : (q : Question) → ω → q.Answer × ω) (x : Script σ α)
    (k : α → Script σ β) (s : σ) (w : ω) :
    (x.bind k).run reply s w =
      (k (x.run reply s w).1).run reply (x.run reply s w).2.1 (x.run reply s w).2.2 := by
  induction x generalizing s w with
  | done a => rfl
  | read next ih => exact ih s s w
  | write s' next ih => exact ih s' w
  | ask q next ih => exact ih _ s _

/-- What a script ensures holds when it runs alone. -/
theorem Ensures.run {post : α → σ → Prop} {reply : (q : Question) → ω → q.Answer × ω}
    (hreply : ∀ q w, terms.allows q (reply q w).1) (hrely : ∀ s, terms.rely s s)
    {x : Script σ α} {s : σ} (h : x.Ensures terms post s) (w : ω) :
    post (x.run reply s w).1 (x.run reply s w).2.1 := by
  induction x generalizing s w with
  | done a => exact h
  | read next ih => exact ih s h w
  | write s' next ih => exact ih h.2 w
  | ask q next ih => exact ih _ (h _ (hreply q w) s (hrely s)) _

/-- A script that runs alone does to the state what it owes, write after write. -/
theorem Ensures.run_owes {post : α → σ → Prop} (reply : (q : Question) → ω → q.Answer × ω)
    (hreply : ∀ q w, terms.allows q (reply q w).1) (hrely : ∀ s, terms.rely s s)
    {x : Script σ α} {s : σ} (h : x.Ensures terms post s) (w : ω) :
    Relation.ReflTransGen terms.owes s (x.run reply s w).2.1 := by
  induction x generalizing s w with
  | done a => exact .refl
  | read next ih => exact ih s h w
  | write s' next ih => exact .head h.1 (ih h.2 w)
  | ask q next ih => exact ih _ (h _ (hreply q w) s (hrely s)) _

/-- What holds of a script that has come to a halt. -/
def Halted (terms : Terms σ) (post : α → σ → Prop) : Halt σ α → σ → Prop
  | .ended a, s => post a s
  | .asking q next, s => ∀ answer, terms.allows q answer → ∀ s', terms.rely s s' →
      (next answer).Ensures terms post s'

/-- A script that is advanced comes to its next halt by writes that it owes, and ensures the
same from there. -/
theorem Ensures.advance {post : α → σ → Prop} {x : Script σ α} {s : σ}
    (h : x.Ensures terms post s) :
    Relation.ReflTransGen terms.owes s (x.advance s).2 ∧
      Halted terms post (x.advance s).1 (x.advance s).2 := by
  induction x generalizing s with
  | done a => exact ⟨.refl, h⟩
  | read next ih => exact ih s h
  | write s' next ih =>
    obtain ⟨howes, hhalted⟩ := ih h.2
    exact ⟨.head h.1 howes, hhalted⟩
  | ask q next ih => exact ⟨.refl, h⟩

end Script

namespace Rendering

variable {α β : Type} {terms : Terms Engine} {post : Except ViewError β → Engine → Prop}
  {e : Engine}

/-- What holds at the end of a part of a render, whether it gives something or fails. -/
def Ensures (terms : Terms Engine) (post : Except ViewError α → Engine → Prop) (x : Rendering α)
    (e : Engine) : Prop :=
  Script.Ensures terms post x.run e

theorem Ensures.mono {post post' : Except ViewError α → Engine → Prop}
    (hpost : ∀ r e, post r e → post' r e) {x : Rendering α} (h : x.Ensures terms post e) :
    x.Ensures terms post' e :=
  Script.Ensures.mono hpost h

/-- What it ensures it ensures under easier terms. -/
theorem Ensures.of_terms {terms' : Terms Engine} {x : Rendering β}
    (h : x.Ensures terms post e)
    (hrely : ∀ {e e'}, terms'.rely e e' → terms.rely e e')
    (hallows : ∀ {q answer}, terms'.allows q answer → terms.allows q answer)
    (howes : ∀ {e e'}, terms.owes e e' → terms'.owes e e') : x.Ensures terms' post e :=
  Script.Ensures.of_terms h hrely hallows howes

/-- What every write that it owes, and everything that others may do, leaves related, the whole part
leaves related. -/
theorem Ensures.within {rel : Engine → Engine → Prop} (hrefl : ∀ e, rel e e)
    (htrans : ∀ {e e' e''}, rel e e' → rel e' e'' → rel e e'')
    (howes : ∀ {e e'}, terms.owes e e' → rel e e') (hrely : ∀ {e e'}, terms.rely e e' → rel e e')
    {x : Rendering β} (h : x.Ensures terms post e) :
    x.Ensures terms (fun r e' => post r e' ∧ rel e e') e :=
  Script.Ensures.within hrefl htrans howes hrely h

/-- What is ensured of a part of a render that runs alone holds at its end. -/
theorem Ensures.alone {ω : Type} {x : Rendering β} (h : x.Ensures .still post e)
    (reply : (q : Question) → ω → q.Answer × ω) (w : ω) :
    post (x.run.run reply e w).1 (x.run.run reply e w).2.1 :=
  Script.Ensures.run (fun _ _ => trivial) (fun _ => rfl) h w

theorem Ensures.pure {b : β} (h : post (.ok b) e) : Ensures terms post (pure b) e := h

/-- An error that is thrown at once. -/
theorem Ensures.throw {err : ViewError} (h : post (.error err) e) :
    Ensures terms post (throw err) e := h

/-- One part after another one, as an equivalence. A part that fails ends the render. -/
theorem ensures_bind {x : Rendering α} {f : α → Rendering β} :
    (x >>= f).Ensures terms post e ↔ x.Ensures terms (fun r e => match r with
      | .ok a => (f a).Ensures terms post e
      | .error err => post (.error err) e) e := by
  have hbind : (x >>= f).run = Script.bind x.run fun r => match r with
      | .ok a => (f a).run
      | .error err => .done (.error err) := by
    show Script.bind x.run _ = _
    congr 1
    funext r
    cases r <;> rfl
  rw [Ensures, hbind, Script.ensures_bind]
  refine iff_of_eq (congrArg (fun p => Script.Ensures terms p x.run e) ?_)
  funext r e
  cases r <;> rfl

/-- One part after another one when they run alone. -/
theorem run_bind {ω : Type} (reply : (q : Question) → ω → q.Answer × ω) (x : Rendering α)
    (f : α → Rendering β) (e : Engine) (w : ω) :
    (x >>= f).run.run reply e w = match x.run.run reply e w with
      | (.ok a, e', w') => (f a).run.run reply e' w'
      | (.error err, e', w') => (.error err, e', w') := by
  show Script.run reply (Script.bind x.run _) e w = _
  rw [Script.run_bind]
  rcases x.run.run reply e w with ⟨r, e', w'⟩
  cases r <;> rfl

/-- To look at the engine asks nothing and changes nothing. -/
theorem run_get_bind {ω : Type} (reply : (q : Question) → ω → q.Answer × ω)
    (f : Engine → Rendering β) (e : Engine) (w : ω) :
    (get >>= f).run.run reply e w = (f e).run.run reply e w := rfl

/-- One part after another one: the second starts from what the first ensures. -/
theorem Ensures.bind {mid : Except ViewError α → Engine → Prop} {x : Rendering α}
    {f : α → Rendering β} (hx : x.Ensures terms mid e)
    (hok : ∀ a e, mid (.ok a) e → (f a).Ensures terms post e)
    (herror : ∀ err e, mid (.error err) e → post (.error err) e) :
    (x >>= f).Ensures terms post e := by
  rw [ensures_bind]
  refine hx.mono fun r e hr => ?_
  cases r with
  | ok a => exact hok a e hr
  | error err => exact herror err e hr

/-- What follows a look at the engine is about the engine that was seen. -/
theorem ensures_get_bind {f : Engine → Rendering β} :
    (get >>= f).Ensures terms post e ↔ (f e).Ensures terms post e := Iff.rfl

theorem Ensures.set_bind {s : Engine} {f : Unit → Rendering β} (howes : terms.owes e s)
    (h : (f ()).Ensures terms post s) : (set s >>= f).Ensures terms post e :=
  ⟨howes, h⟩

/-- After a question anything is possible that the terms leave open: any answer that is allowed, and
any engine that others may have left. -/
theorem Ensures.ask_bind {q : Question} {f : q.Answer → Rendering β}
    (h : ∀ answer, terms.allows q answer → ∀ e', terms.rely e e' →
      (f answer).Ensures terms post e') :
    (ExceptT.lift (Script.question q) >>= f).Ensures terms post e := h

end Rendering
end Views
