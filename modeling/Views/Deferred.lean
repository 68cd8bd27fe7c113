import Views.Text.Search
import Views.Assoc
import Views.Value.Text
/-!
# Deferred values

A helper whose value is not known while a page is rendered leaves a token in its place.
`Deferrals` keeps the tokens given out and the jobs that compute their values; `settle` pairs each
token with the outcome of its own job, in whatever order the jobs end, and `substitute` puts
values for tokens in a text.
-/

namespace Views

/-- How a job ends. -/
inductive Outcome where
  | value (text : String)
  | failed (reason : String)
  | panicked
  deriving DecidableEq, Repr, Inhabited

/-- What is shown for an outcome: a job that did not succeed shows nothing. -/
def Outcome.shown : Outcome → String
  | value text => text
  | failed _ => ""
  | panicked => ""

/-- A job to be run: how it ends, and after how many milliseconds. -/
structure Job where
  outcome : Outcome
  delay : Nat := 0
  deriving DecidableEq, Repr, Inhabited

/-- Why the value of a deferred helper is missing. -/
inductive DeferredError where
  | failed (reason : String)
  | aborted (reason : String)
  deriving DecidableEq, Repr

/-- The error in words. -/
def DeferredError.message : DeferredError → String
  | failed reason => "async helper failed: " ++ reason
  | aborted reason => "async helper task did not complete: " ++ reason

/-- The text that holds the place of a deferred value. -/
abbrev Token := String

namespace Token

/-- How a token starts. -/
def opener : String := "__HBS_DEFERRED_"

/-- How a token ends. -/
def closer : String := "__"

/-- The number of hexadecimal digits between. -/
def width : Nat := 32

/-- The token with a given number. -/
def ofNat (n : Nat) : Token :=
  opener ++ String.ofList (hexDigits width n) ++ closer

/-- Whether a text holds the start of a token. -/
def mayOccur (text : String) : Bool := Text.occurs opener.toList text.toList

/-- What stands in every token and is not to stand elsewhere. -/
def mark : String := "HBS_DEFERRED_"

/-- Whether a text holds the mark of tokens. -/
def isMarked (text : String) : Bool := Text.occurs mark.toList text.toList

/-- Whether a character is a hexadecimal digit as tokens have them. -/
def isDigit (c : Char) : Bool := c.isDigit || ('a' ≤ c && c ≤ 'f')

/-- A text has the form of a token: the opener, as many digits as tokens have, the closer. -/
def WellFormed (token : Token) : Prop :=
  ∃ digits, token.toList = opener.toList ++ digits ++ closer.toList ∧
    digits.length = width ∧ digits.all isDigit

end Token

/-- A supply of tokens: the tokens in the order in which they are given out, and how many have
been. -/
structure TokenSupply where
  source : Nat → Token := Token.ofNat
  used : Nat := 0

namespace TokenSupply

instance : Inhabited TokenSupply := ⟨{}⟩

/-- The first so many tokens have the form of tokens, and no two of them are the same. -/
def DistinctBelow (supply : TokenSupply) (bound : Nat) : Prop :=
  (∀ i < bound, Token.WellFormed (supply.source i)) ∧
    ∀ i < bound, ∀ j < bound, supply.source i = supply.source j → i = j

/-- The next token, and the supply without it. -/
def draw (supply : TokenSupply) : Token × TokenSupply :=
  (supply.source supply.used, { supply with used := supply.used + 1 })

end TokenSupply

/-- A token given out and not yet settled, with its job. -/
structure Pending where
  token : Token
  job : Job
  deriving DecidableEq, Repr, Inhabited

/-- Values for tokens. -/
abbrev TokenValues := Assoc Token String

/-- The tokens given out since the last settlement, the oldest first. -/
structure Deferrals where
  pending : List Pending := []
  deriving DecidableEq, Repr, Inhabited

namespace Deferrals

/-- Gives out a token for the value of a job. -/
def defer (deferrals : Deferrals) (token : Token) (job : Job) : Deferrals :=
  ⟨deferrals.pending ++ [⟨token, job⟩]⟩

/-- How many tokens are not settled. -/
def count (deferrals : Deferrals) : Nat := deferrals.pending.length

/-- Takes the tokens that are waiting and leaves none. -/
def take (deferrals : Deferrals) : List Pending × Deferrals := (deferrals.pending, {})

end Deferrals

/-- The end of a job: its place in the batch, and how it ended. -/
abbrev Completion := Nat × Outcome

/-- The ends tell of each job of a batch how it ended. -/
def Delivers (batch : List Pending) (completions : List Completion) : Prop :=
  ∀ place, (h : place < batch.length) →
    Assoc.find? place completions = some batch[place].job.outcome

instance (batch : List Pending) (completions : List Completion) :
    Decidable (Delivers batch completions) :=
  inferInstanceAs (Decidable (∀ place, (h : place < batch.length) → _ = _))

/-- The values of a batch of tokens, given the ends of its jobs in the order in which they came. -/
def settle (batch : List Pending) (completions : List Completion) : TokenValues :=
  batch.zipIdx.foldl
    (fun values (p, place) =>
      Assoc.put p.token (((Assoc.find? place completions).map Outcome.shown).getD "") values) []

/-- The ends of the jobs of a batch in the order in which they come if all jobs start together. -/
def arrivals (batch : List Pending) : List Completion :=
  let ends := batch.zipIdx.map fun (p, place) => (p.job.delay, (place, p.job.outcome))
  (ends.mergeSort fun a b => a.1 ≤ b.1).map Prod.snd

/-- Waits for the jobs of all tokens given out since the last time: their values, and what
is left waiting, which is nothing. -/
def Deferrals.finish (deferrals : Deferrals) : TokenValues × Deferrals :=
  let (batch, rest) := deferrals.take
  (settle batch (arrivals batch), rest)

/-- The values with those of a later batch added. -/
def TokenValues.extend (values more : TokenValues) : TokenValues :=
  more.foldl (fun acc p => Assoc.put p.1 p.2 acc) values

/-- Leaving values in their order is an order. -/
theorem TokenValues.id_perm (values : TokenValues) : (id values).Perm values := .refl _

/-- The orders in which values are put into the texts of a page: into a body that a layout goes
around, and into the text that is the result. -/
structure Arrangement where
  inner : TokenValues → TokenValues := id
  outer : TokenValues → TokenValues := id
  inner_perm : ∀ values, (inner values).Perm values := by exact TokenValues.id_perm
  outer_perm : ∀ values, (outer values).Perm values := by exact TokenValues.id_perm

/-- The text with the tokens replaced by their values, one token after the other. -/
def substitute (text : String) (values : TokenValues) : String :=
  String.ofList <|
    values.foldl (fun cs p => Text.replace p.1.toList p.2.toList cs) text.toList

end Views
