import Views.Proofs.Engine.Scripts
/-!
# The questions that a script asks

`Script.asked` lists the questions of a script that runs alone, in the order in which they are
asked. Answering with a record of what was asked makes no difference to the run (`run_recording`),
so what holds of two runs for all answers holds of their questions too. `Script.AsksOnly` says what
a script may ask whatever the answers are.

Renders are compared by their questions where it matters that a source is *not* asked: a cached
render that is repeated asks nothing, and an uncached one asks the same whatever is kept.
-/

namespace Views

/-- Whether a question goes to the source, and not to the jobs of deferred helpers. -/
def Question.isForSource : Question → Bool
  | .partials => true
  | .template _ => true
  | .values _ => false

namespace Script

variable {σ α β ω : Type} (reply : (q : Question) → ω → q.Answer × ω)

/-- The questions of a script that runs alone. -/
def asked : Script σ α → σ → ω → List Question
  | done _, _, _ => []
  | read next, s, w => asked (next s) s w
  | write s next, _, w => asked next s w
  | ask q next, s, w => q :: asked (next (reply q w).1) s (reply q w).2

/-- Answers as before, with a record of the questions beside the world. A script that is run with it
writes down what it asks, and does nothing else than before. -/
def recording (q : Question) (w : ω × List Question) : q.Answer × ω × List Question :=
  ((reply q w.1).1, (reply q w.1).2, w.2 ++ [q])

/-- Keeping a record makes no difference, and the record is what is asked. -/
theorem run_recording (x : Script σ α) (s : σ) (w : ω) (log : List Question) :
    x.run (recording reply) s (w, log) =
      ((x.run reply s w).1, (x.run reply s w).2.1, (x.run reply s w).2.2,
        log ++ x.asked reply s w) := by
  induction x generalizing s w log with
  | done a => exact congrArg (fun log => (a, s, w, log)) (List.append_nil log).symm
  | read next ih => exact ih s s w log
  | write s' next ih => exact ih s' w log
  | ask q next ih =>
    refine (ih (reply q w).1 s (reply q w).2 (log ++ [q])).trans ?_
    rw [List.append_assoc]
    rfl

/-- Two scripts one after the other ask what the first asks, and then what the second asks from
where the first has led. -/
theorem asked_bind (x : Script σ α) (k : α → Script σ β) (s : σ) (w : ω) :
    (x.bind k).asked reply s w =
      x.asked reply s w ++
        (k (x.run reply s w).1).asked reply (x.run reply s w).2.1 (x.run reply s w).2.2 := by
  induction x generalizing s w with
  | done a => rfl
  | read next ih => exact ih s s w
  | write s' next ih => exact ih s' w
  | ask q next ih => exact congrArg (q :: ·) (ih _ s _)

/-- Whatever the state and the answers are, a script asks only such questions. -/
def AsksOnly (allowed : Question → Prop) : Script σ α → Prop
  | done _ => True
  | read next => ∀ s, AsksOnly allowed (next s)
  | write _ next => AsksOnly allowed next
  | ask q next => allowed q ∧ ∀ answer, AsksOnly allowed (next answer)

variable {allowed : Question → Prop}

/-- What a script may ask is all that it does ask when it runs alone. -/
theorem AsksOnly.asked {x : Script σ α} (h : x.AsksOnly allowed) (s : σ) (w : ω) :
    ∀ q ∈ x.asked reply s w, allowed q := by
  induction x generalizing s w with
  | done a => exact fun q hq => absurd hq List.not_mem_nil
  | read next ih => exact ih s (h s) s w
  | write s' next ih => exact ih h s' w
  | ask q next ih =>
    rintro other (_ | ⟨_, hother⟩)
    · exact h.1
    · exact ih _ (h.2 _) s _ other hother

/-- Scripts one after the other ask only what is allowed if each of them does. -/
theorem AsksOnly.bind {x : Script σ α} {k : α → Script σ β} (hx : x.AsksOnly allowed)
    (hk : ∀ a, (k a).AsksOnly allowed) : (x.bind k).AsksOnly allowed := by
  induction x with
  | done a => exact hk a
  | read next ih => exact fun s => ih s (hx s)
  | write s next ih => exact ih hx
  | ask q next ih => exact ⟨hx.1, fun answer => ih answer (hx.2 answer)⟩

end Script

namespace Rendering

variable {α β ω : Type} {allowed : Question → Prop}

/-- Whatever the engine and the answers are, a part of a render asks only such questions. -/
def AsksOnly (allowed : Question → Prop) (x : Rendering α) : Prop :=
  Script.AsksOnly allowed x.run

namespace AsksOnly

theorem pure (a : α) : AsksOnly allowed (pure a : Rendering α) := trivial

theorem throw (err : ViewError) : AsksOnly allowed (throw err : Rendering α) := trivial

/-- Parts of a render ask only what is allowed if each of them does. -/
theorem bind {x : Rendering α} {f : α → Rendering β} (hx : AsksOnly allowed x)
    (hf : ∀ a, AsksOnly allowed (f a)) : AsksOnly allowed (x >>= f) := by
  refine Script.AsksOnly.bind hx fun r => ?_
  cases r with
  | ok a => exact hf a
  | error err => exact trivial

theorem get_bind {f : Engine → Rendering β} (h : ∀ e, AsksOnly allowed (f e)) :
    AsksOnly allowed (get >>= f) := h

theorem set_bind {s : Engine} {f : Unit → Rendering β} (h : AsksOnly allowed (f ())) :
    AsksOnly allowed (set s >>= f) := h

/-- A question is asked that is allowed. -/
theorem ask_bind {q : Question} {f : q.Answer → Rendering β} (hq : allowed q)
    (h : ∀ answer, AsksOnly allowed (f answer)) :
    AsksOnly allowed (ExceptT.lift (Script.question q) >>= f) := ⟨hq, h⟩

end AsksOnly

/-- The questions of one part of a render after another one. -/
theorem asked_bind (reply : (q : Question) → ω → q.Answer × ω) (x : Rendering α)
    (f : α → Rendering β) (e : Engine) (w : ω) :
    (x >>= f).run.asked reply e w = x.run.asked reply e w ++
      match x.run.run reply e w with
      | (.ok a, e', w') => (f a).run.asked reply e' w'
      | (.error _, _, _) => [] := by
  show Script.asked reply (Script.bind x.run _) e w = _
  rw [Script.asked_bind]
  rcases x.run.run reply e w with ⟨r, e', w'⟩
  cases r <;> rfl

end Rendering
end Views
