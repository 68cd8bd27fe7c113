import Views.Deferred
import Views.Source.Basic
/-!
# Scripts

A render is a script: it reads and writes the state of its engine and now and then asks a question
whose answer it has to wait for. Between two questions nothing else happens; while a script waits,
others may go on. `Script.advance` runs a script up to its next question and `Script.run` to its
end.
-/

namespace Views

/-- What a render waits for. -/
inductive Question where
  | partials
  | template (id : TemplateKey)
  | values (batch : List Pending)
  deriving Repr

/-- The answer to a question: what a source says, or how the jobs of a batch ended. -/
def Question.Answer : Question → Type
  | partials => Except SourceError Partials
  | template _ => Except SourceError String
  | values _ => List Completion

/-- A script over a state of type `σ` that ends with a result. -/
inductive Script (σ α : Type) where
  | done (result : α)
  | read (next : σ → Script σ α)
  | write (state : σ) (next : Script σ α)
  | ask (question : Question) (next : question.Answer → Script σ α)

/-- A script that ended, or one that waits for an answer. -/
inductive Halt (σ α : Type) where
  | ended (result : α)
  | asking (question : Question) (next : question.Answer → Script σ α)

/-- The result of a script that ended. -/
def Halt.result? {σ α : Type} : Halt σ α → Option α
  | ended result => some result
  | asking _ _ => none

namespace Script

variable {σ α β : Type}

/-- One script after the other. -/
def bind : Script σ α → (α → Script σ β) → Script σ β
  | done a, k => k a
  | read next, k => read fun s => (next s).bind k
  | write s next, k => write s (next.bind k)
  | ask q next, k => ask q fun a => (next a).bind k

instance : Monad (Script σ) where
  pure := done
  bind := bind

instance : MonadStateOf σ (Script σ) where
  get := read done
  set s := write s (done ())
  modifyGet f := read fun s => write (f s).2 (done (f s).1)

/-- Asks a question. -/
def question (q : Question) : Script σ q.Answer := ask q done

/-- Runs a script up to its next question. -/
def advance : Script σ α → σ → Halt σ α × σ
  | done a, s => (.ended a, s)
  | read next, s => advance (next s) s
  | write s next, _ => advance next s
  | ask q next, s => (.asking q next, s)

/-- Runs a script to its end with each question answered at once. -/
def run {ω : Type} (reply : (q : Question) → ω → q.Answer × ω) : Script σ α → σ → ω → α × σ × ω
  | done a, s, w => (a, s, w)
  | read next, s, w => run reply (next s) s w
  | write s next, _, w => run reply next s w
  | ask q next, s, w => run reply (next (reply q w).1) s (reply q w).2

end Script
end Views
