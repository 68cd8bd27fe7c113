import Views.Layout.Decision
import Views.Value.Basic
/-!
# Requests

What a caller asks of one render: whether what was read before may be reused, which layout is
wanted, and the data. `Request.ofValue` reads all three from one value, as web frameworks hand
them over.
-/

namespace Views

/-- What is asked of one render. -/
structure Request where
  reuse : Bool := false
  layout : LayoutRequest := .unset
  data : Value := .object []
  deriving Repr, Inhabited

namespace Request

/-- The layout that the field of a value asks for: a name asks for that layout, a value that
switches nothing on asks for none, and any other value says nothing. -/
def layoutOfField : Option Value → LayoutRequest
  | none => .unset
  | some (.string name) => if name = "" then .disabled else .named name
  | some value => if value.switchesOn then .unset else .disabled

/-- The request that a value stands for: the fields `cache` and `layout` of an object say what is
wanted and stay in the data; a value that is no object is data alone. -/
def ofValue (value : Value) : Request :=
  match value with
  | .object fields =>
    { reuse := ((Fields.get? "cache" fields).map Value.switchesOn).getD false
      layout := layoutOfField (Fields.get? "layout" fields)
      data := value }
  | _ => { data := value }

end Request
end Views
