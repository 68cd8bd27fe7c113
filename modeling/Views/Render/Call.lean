import Views.Render.State
/-!
# Calling helpers

A call carries the arguments of the tag and, for a block, its bodies as steps to be run.
`Call.value?` is what a helper gives within an expression, `Call.run` what it does to the page;
`Call.perform` does what the routine of a helper says.
-/

namespace Views

/-- An argument: what it stands for, and the path it was written as. -/
structure Arg where
  resolved : Resolved
  spelling : Option String := none
  deriving Repr, Inhabited

/-- A call of a helper. -/
structure Call where
  name : String
  args : List Arg := []
  hash : List (String × Arg) := []
  isBlock : Bool := false
  body : Option (Render Unit) := none
  inverse : Option (Render Unit) := none
  names : Option BlockNames := none

namespace Call

open Render

/-- The call with the values of its arguments alone. -/
def snapshot (call : Call) : Arguments :=
  { name := call.name
    params := call.args.map fun a => a.resolved.get
    hash := Fields.ofList (call.hash.map fun (key, a) => (key, a.resolved.get)) }

/-- A named argument. -/
def option? (call : Call) (key : String) : Option Value :=
  (Assoc.find? key call.hash).map fun a => a.resolved.get

/-- A positional argument that the helper cannot do without. -/
def require (call : Call) (helper : String) (index : Nat) : Render Arg :=
  match call.args[index]? with
  | some a => pure a
  | none => fail (.paramNotFound helper index)

/-- A positional argument whose value a helper cannot do without, and the fault of its absence:
when paths must lead somewhere, one that does not counts as absent. -/
def requireValue (env : RenderEnv) (call : Call) (index : Nat) (fault : RenderFault) :
    Render Value :=
  match call.args[index]? with
  | some a =>
    if env.registry.strict && a.resolved.isMissing then fail fault else pure a.resolved.get
  | none => fail fault

/-- Runs one of the bodies of a block. -/
def runBody : Option (Render Unit) → Render Unit
  | some body => body
  | none => pure ()

/-- Runs the inverse for a value that a block has no use for. -/
def runInverse (env : RenderEnv) (call : Call) (arg : Arg) : Render Unit :=
  match call.inverse with
  | some body => body
  | none => if env.registry.strict then fail (.missingVariable arg.spelling) else pure ()

/-- The block of a value: at its place in the data, or with a value of its own. -/
def blockOf (arg : Arg) : BlockContext :=
  match arg.resolved with
  | .located _ path => { place := path }
  | r => { own := some r.get }

/-- What the name for the value at hand stands for. -/
def bound (arg : Arg) (v : Value) : BoundName :=
  match arg.resolved with
  | .located _ _ => .place
  | _ => .value v

/-- One turn of a loop: the member it is at, its key, and its value. -/
structure Turn where
  member : String
  key : Option String
  value : Value

/-- The turns of a loop over a value, if it can be looped over. -/
def turns? : Value → Option (List Turn)
  | .list items => some (items.zipIdx.map fun (v, i) => ⟨toString i, none, v⟩)
  | .object fields => some (fields.map fun (k, v) => ⟨k, some k, v⟩)
  | _ => none

/-- The block of a loop as it is in one turn. -/
def turnBlock (call : Call) (arg : Arg) (count index : Nat) (turn : Turn) (block : BlockContext) :
    BlockContext :=
  let key : Value := match turn.key with
    | some k => .string k
    | none => .ofNat index
  let vars := Assoc.put "last" (Value.bool (index + 1 == count))
    (Assoc.put "first" (Value.bool (index == 0)) block.vars)
  let vars := match turn.key with
    | some k => Assoc.put "key" (Value.string k) vars
    | none => vars
  let vars := Assoc.put "index" (Value.ofNat index) vars
  let block := { block with vars }
  let block := match arg.resolved.path? with
    | some path => { block with place := path ++ [turn.member] }
    | none => { block with own := some turn.value }
  match call.names with
  | none => block
  | some ⟨value, none⟩ => { block with names := [(value, bound arg turn.value)] }
  | some ⟨value, some second⟩ =>
    { block with names := Assoc.put second (.value key) [(value, bound arg turn.value)] }

/-- Runs the body of a loop for its turns. -/
def loop (call : Call) (arg : Arg) (body : Render Unit) (count : Nat) :
    Nat → List Turn → Render Unit
  | _, [] => pure ()
  | index, turn :: rest => do
    updateBlock (turnBlock call arg count index turn)
    body
    loop call arg body count (index + 1) rest

/-- Runs the body for each member of the first argument. -/
def runEach (env : RenderEnv) (call : Call) : Render Unit := do
  let arg ← call.require "each" 0
  match call.body with
  | none => pure ()
  | some body =>
    match turns? arg.resolved.get with
    | none => call.runInverse env arg
    | some turns =>
      if turns.isEmpty && call.inverse.isSome then call.runInverse env arg
      else
        pushBlock (blockOf arg)
        loop call arg body turns.length 0 turns
        popBlock

/-- Runs the body at the first argument. -/
def runWith (env : RenderEnv) (call : Call) : Render Unit := do
  let arg ← call.require "with" 0
  if arg.resolved.get.holds false then
    let block := blockOf arg
    pushBlock <| match call.names with
      | some ⟨name, none⟩ => { block with names := [(name, bound arg arg.resolved.get)] }
      | _ => block
    runBody call.body
    popBlock
  else call.runInverse env arg

/-- Runs the body or the inverse by whether the first argument holds. -/
def runWhen (call : Call) (positive : Bool) : Render Unit := do
  let arg ← call.require "if" 0
  let includeZero := ((call.option? "includeZero").bind Value.asBool?).getD false
  runBody (if arg.resolved.get.holds includeZero == positive then call.body else call.inverse)

/-- Checks the level of a log message. -/
def runLog (call : Call) : Render Unit :=
  let level := ((call.option? "level").bind Value.asString?).getD "info"
  if logLevels.contains (String.ofList (level.toList.map Char.toLower)) then pure ()
  else fail (.invalidLoggingLevel level)

/-- The member of a list at an index, or of an object under a name. -/
def lookup (env : RenderEnv) (call : Call) : Render Resolved := do
  let collection ← call.require "lookup" 0
  let index ← call.require "lookup" 1
  let found := match collection.resolved.get, index.resolved.get with
    | .list items, .number n => n.toNat?.bind (items[·]?)
    | .object fields, .string key => Fields.get? key fields
    | _, _ => none
  match found with
  | some v => pure (.value v)
  | none => if env.registry.strict then fail (.missingVariable none) else pure .missing

/-- What a helper of the language gives within an expression, if it gives a value. -/
def builtinValue? (env : RenderEnv) (call : Call) : Builtin → Option (Render Resolved)
  | .lookup => some (call.lookup env)
  | .compare c => some do
    let a ← call.requireValue env 0 (.paramNotFound c.name 0)
    let b ← call.requireValue env 1 (.paramNotFound c.name 1)
    pure (.value (.bool (c.holds a b)))
  | .all => some (pure (.value (.bool (call.args.all fun a => a.resolved.get.holds false))))
  | .any => some (pure (.value (.bool (call.args.any fun a => a.resolved.get.holds false))))
  | .not => some do
    let a ← call.requireValue env 0 (.paramNotFound "not" 0)
    pure (.value (.bool (!a.holds false)))
  | .len => some do
    let a ← call.requireValue env 0 (.namedParamNotFound "len" "x")
    pure (.value (.ofNat a.size))
  | _ => none

/-- What a helper gives within an expression, if it gives a value. -/
def value? (env : RenderEnv) (helper : Helper) (call : Call) : Option (Render Resolved) :=
  match helper with
  | .builtin b => call.builtinValue? env b
  | .value compute => some do
    let v ← ofExcept (compute call.snapshot)
    pure (.value v)
  | _ => none

/-- Whether a helper of the language decides between the bodies of a block; without a block it
writes what it finds as it is. -/
def decides : Builtin → Bool
  | .compare _ | .all | .any | .not => true
  | _ => false

/-- Writes the value that a helper gives. -/
def showValue (env : RenderEnv) (given : Render Resolved) : Render Unit := do
  let r ← given
  if env.registry.strict && r.isMissing then fail (.missingVariable none)
  else writeValue env r.get

/-- The name of a content block. -/
def blockName (call : Call) (helper : String) : Render String := do
  let arg ← call.require helper 0
  match arg.resolved.get with
  | .string name => pure name
  | _ => fail (.other (helper ++ ": block name must be a string"))

/-- The scope of the render that a helper is called in. -/
def scope (helper : String) : Render PageScope := do
  match (← get).around.scope with
  | some scope => pure scope
  | none => fail (.other ("'" ++ helper ++ "' can only be used while rendering a view"))

/-- Changes the scope of the render. -/
def setScope (scope : PageScope) : Render Unit :=
  modify fun st => { st with around := { st.around with scope := some scope } }

/-- Captures the body as a fragment of a content block. The body may capture and emit fragments
itself; its own fragment comes after. -/
def runContentFor (call : Call) : Render Unit := do
  let name ← call.blockName "contentFor"
  let _ ← scope "contentFor"
  let fragment ← capture (runBody call.body)
  let now ← scope "contentFor"
  setScope { now with blocks := now.blocks.capture name fragment }

/-- Writes the fragments of a content block. -/
def runBlock (call : Call) : Render Unit := do
  let name ← call.blockName "block"
  let now ← scope "block"
  let (text, blocks) := now.blocks.emit name
  setScope { now with blocks }
  emit text

/-- Starts a job and writes a token for its value. -/
def runDeferred (call : Call) (tally : String) (start : Arguments → Nat → Job) : Render Unit := do
  let now ← scope call.name
  let around := (← get).around
  let earlier := (around.calls.find? tally).getD 0
  let (token, tokens) := around.tokens.draw
  let job := start call.snapshot earlier
  modify fun st => { st with around :=
    { scope := some { now with deferrals := now.deferrals.defer token job }
      tokens
      calls := around.calls.put tally (earlier + 1) } }
  emit token

/-- Writes the text of a helper that counts its calls. -/
def runImmediate (call : Call) (tally : String) (compute : Arguments → Nat → String) :
    Render Unit := do
  let around := (← get).around
  let earlier := (around.calls.find? tally).getD 0
  modify fun st => { st with around :=
    { around with calls := around.calls.put tally (earlier + 1) } }
  emit (compute call.snapshot earlier)

/-- What a helper is told of a call. -/
def occasion (call : Call) : Occasion :=
  { args := call.snapshot, hasBody := call.body.isSome, hasInverse := call.inverse.isSome }

/-- Runs one of the bodies of a block for a helper: at a value of the helper's, if there is one. -/
def runPart (call : Call) (inverse : Bool) (own : Option Value) : Render Unit :=
  let part := runBody (if inverse then call.inverse else call.body)
  match own with
  | some v => do
    pushBlock { own := some v }
    part
    popBlock
  | none => part

/-- Does what a routine says, given the texts that it has set aside, the last one first. -/
def perform (env : RenderEnv) (call : Call) (aside : List String) : Routine → Render Unit
  | .done => pure ()
  | .fail fault => Render.fail fault
  | .write text next => do
    emit (Wording.join aside text)
    perform env call aside next
  | .look reference next => do
    let found := Context.lookup env.outward env.data (← get).blocks reference
    perform env call aside (next found)
  | .place inverse own next => do
    call.runPart inverse own
    perform env call aside next
  | .keep inverse own next => do
    let text ← capture (call.runPart inverse own)
    perform env call (text :: aside) next
  | .take inverse own next => do
    let text ← capture (call.runPart inverse own)
    perform env call aside (next text)

/-- What a helper does to the page. -/
def run (env : RenderEnv) (helper : Helper) (call : Call) : Render Unit :=
  match call.value? env helper with
  | some given =>
    match helper with
    | .builtin b =>
      if decides b then do
        let r ← given
        if call.isBlock then runBody (if r.get.holds false then call.body else call.inverse)
        else emit r.get.display
      else showValue env given
    | _ => showValue env given
  | none =>
    match helper with
    | .builtin (.when positive) => call.runWhen positive
    | .builtin .each => call.runEach env
    | .builtin .with => call.runWith env
    | .builtin .raw => runBody call.body
    | .builtin .log => call.runLog
    | .contentFor => call.runContentFor
    | .block => call.runBlock
    | .deferred tally start => call.runDeferred tally start
    | .immediate tally compute => call.runImmediate tally compute
    | .writer compute => do emit (← ofExcept (compute call.snapshot))
    | .custom routine => call.perform env [] (routine call.occasion)
    | _ => pure ()

/-- What a helper stands for within an expression: its value, or the text that it writes,
unescaped. -/
def asOperand (env : RenderEnv) (helper : Helper) (call : Call) : Render Resolved :=
  match call.value? env helper with
  | some given => given
  | none => do
    let escaped := (← get).escapes
    modify fun st => { st with escapes := false }
    let text ← capture (call.run env helper)
    modify fun st => { st with escapes := escaped }
    pure (.value (.string text))

end Call
end Views
