import Views.Deferred
import Views.Number.Reader
import Views.Render.Context
/-!
# Helpers

A helper is called by a tag with the values of its arguments. The helpers of the language are
named by `Builtin`; the others are given by what they compute: a value to be shown, a text to be
written as it is, or a job whose value comes later. A helper that does more, with the bodies of the
block that it is called for, is given by a `Routine`: a tree of requests, each with what follows the
answer to it.
-/

namespace Views

/-- A call of a helper as the helper sees it: its name and the values of its arguments. -/
structure Arguments where
  name : String := ""
  params : List Value := []
  hash : Fields := []
  deriving Repr, Inhabited

namespace Arguments

/-- A positional argument. -/
def param? (args : Arguments) (index : Nat) : Option Value := args.params[index]?

/-- A positional argument that is a string. -/
def paramString? (args : Arguments) (index : Nat) : Option String :=
  (args.param? index).bind Value.asString?

/-- A named argument that is a string. -/
def hashString? (args : Arguments) (key : String) : Option String :=
  (Fields.get? key args.hash).bind Value.asString?

end Arguments

/-- The ways of comparing two values. -/
inductive Comparison where
  | eq | ne | gt | gte | lt | lte
  deriving DecidableEq, Repr

/-- The helpers of the language. -/
inductive Builtin where
  | when (positive : Bool)
  | each
  | with
  | lookup
  | raw
  | log
  | compare (by' : Comparison)
  | all
  | any
  | not
  | len
  deriving DecidableEq, Repr

/-- What a helper is told when it is called: its arguments, and which bodies the call has. -/
structure Occasion where
  args : Arguments := {}
  hasBody : Bool := false
  hasInverse : Bool := false
  deriving Inhabited

/-- A part of a text to be written: a text of its own, or one of those that were set aside, counted
back from the last. -/
inductive Wording where
  | literal (text : String)
  | aside (back : Nat)
  deriving DecidableEq, Repr

/-- The text that parts make one after the other. -/
def Wording.join (aside : List String) : List Wording → String
  | [] => ""
  | literal text :: rest => text ++ join aside rest
  | Wording.aside back :: rest => aside[back]?.getD "" ++ join aside rest

/-- What a helper does when it is called, one request after the other. A body of the call is
rendered at a value of the helper's, if it gives one, and else where the call stands. -/
inductive Routine where
  | done
  | fail (fault : RenderFault)
  /-- Writes a text as it is. -/
  | write (text : List Wording) (next : Routine)
  /-- Asks what a reference means where the call stands. -/
  | look (reference : Reference) (next : Except RenderFault Resolved → Routine)
  /-- Renders the body, or the inverse, in its place on the page. -/
  | place (inverse : Bool) (own : Option Value) (next : Routine)
  /-- Renders the body, or the inverse, takes its text off the page and sets it aside, to be written
  as it is, as often as the helper likes. -/
  | keep (inverse : Bool) (own : Option Value) (next : Routine)
  /-- Renders the body, or the inverse, takes its text off the page and reads it. -/
  | take (inverse : Bool) (own : Option Value) (next : String → Routine)

/-- A routine that does not read the texts of the bodies: wherever it has them written, they are as
they were rendered. -/
inductive Routine.Verbatim : Routine → Prop
  | done : Verbatim .done
  | fail (fault : RenderFault) : Verbatim (.fail fault)
  | write (text : List Wording) {next : Routine} (h : next.Verbatim) : Verbatim (.write text next)
  | look (reference : Reference) {next : Except RenderFault Resolved → Routine}
      (h : ∀ found, (next found).Verbatim) : Verbatim (.look reference next)
  | place (inverse : Bool) (own : Option Value) {next : Routine} (h : next.Verbatim) :
      Verbatim (.place inverse own next)
  | keep (inverse : Bool) (own : Option Value) {next : Routine} (h : next.Verbatim) :
      Verbatim (.keep inverse own next)

/-- A helper. -/
inductive Helper where
  | builtin (builtin : Builtin)
  /-- Captures its body as a fragment of a content block. -/
  | contentFor
  /-- Writes the fragments of a content block. -/
  | block
  /-- Starts a job and writes a token for its value. Calls are counted under the name of a tally,
  and a job knows how many came before it. -/
  | deferred (tally : String) (start : Arguments → Nat → Job)
  /-- Writes at once the text that a deferred helper would have for its value. Calls are counted as
  those of a deferred helper are. -/
  | immediate (tally : String) (compute : Arguments → Nat → String)
  /-- Computes a value that is shown as a variable would be. -/
  | value (compute : Arguments → Except RenderFault Value)
  /-- Computes a text that is written as it is. -/
  | writer (compute : Arguments → Except RenderFault String)
  /-- Does what a routine says. -/
  | custom (routine : Occasion → Routine)

/-- A helper that writes its body changed. -/
def Helper.changing (change : String → String) : Helper :=
  custom fun _ => .take false none fun text => .write [.literal (change text)] .done

/-- A helper that writes its body between two texts. -/
def Helper.between (before after : String) : Helper :=
  custom fun _ => .write [.literal before] (.place false none (.write [.literal after] .done))

/-- The helper that writes its value at once where a deferred one leaves a token for it; any other
helper as it is. -/
def Helper.direct : Helper → Helper
  | deferred tally start => immediate tally fun args earlier => (start args earlier).outcome.shown
  | helper => helper

/-- Whether nothing that a helper writes is still to come: it leaves no token, and it does not write
fragments, which may hold some. -/
def Helper.isPrompt : Helper → Bool
  | deferred _ _ => false
  | block => false
  | _ => true

/-- A helper does not read the texts of its bodies, and so does not change them. -/
def Helper.Verbatim : Helper → Prop
  | custom routine => ∀ occasion, (routine occasion).Verbatim
  | _ => True

theorem Helper.verbatim_between (before after : String) : (between before after).Verbatim :=
  fun _ => .write _ (.place _ _ (.write _ .done))

/-- What comes of a helper depends on its arguments alone, not on the calls before, nor on the texts
that its bodies make. -/
def Helper.Steady : Helper → Prop
  | deferred _ start => ∀ args m n, (start args m).outcome = (start args n).outcome
  | immediate _ compute => ∀ args m n, compute args m = compute args n
  | custom routine => ∀ occasion, (routine occasion).Verbatim
  | _ => True

theorem Helper.Steady.verbatim {helper : Helper} (h : helper.Steady) : helper.Verbatim := by
  cases helper with
  | custom routine => exact h
  | _ => trivial

/-- The number that a whole text reads as. -/
def Number.ofText? (s : String) : Option Number :=
  match Number.read? s.toList with
  | some (n, []) => some n
  | _ => none

/-- The order of two values, where they have one: numbers, strings and booleans among themselves,
and a number with a string that reads as one. -/
def Value.order? : Value → Value → Option Ordering
  | .number a, .number b => some (a.compare b)
  | .string a, .string b => some (compare a b)
  | .bool a, .bool b => some (compare a.toNat b.toNat)
  | .number a, .string b => (Number.ofText? b).map fun b => a.compare b
  | .string a, .number b => (Number.ofText? a).map fun a => a.compare b
  | _, _ => none

/-- Whether two values compare in a given way. -/
def Comparison.holds (c : Comparison) (a b : Value) : Bool :=
  match c with
  | eq => a.same b
  | ne => !a.same b
  | gt => a.order? b == some .gt
  | gte => a.order? b == some .gt || a.order? b == some .eq
  | lt => a.order? b == some .lt
  | lte => a.order? b == some .lt || a.order? b == some .eq

/-- The names of the comparisons. -/
def Comparison.name : Comparison → String
  | eq => "eq"
  | ne => "ne"
  | gt => "gt"
  | gte => "gte"
  | lt => "lt"
  | lte => "lte"

/-- The levels of log messages. -/
def logLevels : List String := ["error", "warn", "info", "debug", "trace"]

/-- The number of items, fields or bytes of a value. -/
def Value.size : Value → Nat
  | .list items => items.length
  | .object fields => fields.length
  | .string s => s.utf8ByteSize
  | _ => 0

end Views
