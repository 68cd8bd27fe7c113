import Views.Layout.Directive
/-!
# Choosing a layout

Three things may name the layout of a page: a directive in the template, the request for the
render, and the default of the engine. A directive wins over the request, and the default is used
only when the request says nothing.
-/

namespace Views

/-- What a request says about the layout. -/
inductive LayoutRequest where
  | unset
  | disabled
  | named (name : String)
  deriving DecidableEq, Repr, Inhabited

/-- Where the layout of a render comes from. -/
inductive LayoutDecision where
  | directive (name : String)
  | named (name : String)
  | default
  | none
  deriving DecidableEq, Repr

/-- The layout for a template source under a request. -/
def LayoutRequest.decision (request : LayoutRequest) (source : String) (hasDefault : Bool) :
    LayoutDecision :=
  match Directive.find? source, request with
  | some name, _ => .directive name
  | none, .named name => .named name
  | none, .disabled => .none
  | none, .unset => if hasDefault then .default else .none

/-- A directive decides, and nothing else makes it do so. -/
theorem LayoutRequest.decision_eq_directive_iff {request : LayoutRequest} {source name : String}
    {hasDefault : Bool} :
    request.decision source hasDefault = .directive name ↔ Directive.find? source = some name := by
  unfold decision
  cases Directive.find? source with
  | some found =>
    cases request <;> simp
  | none =>
    cases request with
    | unset => cases hasDefault <;> simp
    | disabled => simp
    | named other => simp

/-- Without a directive the request decides. -/
theorem LayoutRequest.decision_of_find?_eq_none {source : String}
    (h : Directive.find? source = none) (request : LayoutRequest) (hasDefault : Bool) :
    request.decision source hasDefault = match request with
      | .named name => .named name
      | .disabled => .none
      | .unset => if hasDefault then .default else .none := by
  unfold decision
  rw [h]
  cases request <;> rfl

end Views
