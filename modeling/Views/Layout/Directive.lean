import Views.Text.Blank
/-!
# Layout directives

A template may name its layout in a comment of its own, two braces around `!< name`.
`Directive.find?` gives the name in the first such comment; `Directive.At` is the form of one,
apart from the search.
-/

namespace Views.Directive

/-- How a directive starts. -/
def opener : List Char := ['\x7b', '\x7b', '!', '<']

/-- How a directive ends. -/
def closer : List Char := ['\x7d', '\x7d']

/-- The characters of a layout name. -/
def isNameChar (c : Char) : Bool := c.isAlphanum || c == '.' || c == '_' || c == '-' || c == '/'

/-- The text is a directive for `name` followed by anything: the opener, blanks, the name, blanks if
any, the closer. -/
def At (text name : List Char) : Prop :=
  ∃ gap gap' post, text = opener ++ gap ++ name ++ gap' ++ closer ++ post ∧
    gap ≠ [] ∧ gap.all Text.isBlank ∧ name ≠ [] ∧ name.all isNameChar ∧ gap'.all Text.isBlank

/-- The name in a directive at the very start of the text. No blank is a name character, so each
part ends where the next one starts. -/
def matchAt? (text : List Char) : Option (List Char) :=
  if opener.isPrefixOf text then
    let afterOpener := text.drop opener.length
    let gap := afterOpener.takeWhile Text.isBlank
    let body := afterOpener.dropWhile Text.isBlank
    let name := body.takeWhile isNameChar
    let afterName := (body.dropWhile isNameChar).dropWhile Text.isBlank
    if gap ≠ [] ∧ name ≠ [] ∧ closer.isPrefixOf afterName then some name else none
  else none

/-- The name in the first directive of a text. -/
def search : List Char → Option (List Char)
  | [] => none
  | c :: cs => (matchAt? (c :: cs)).or (search cs)

/-- The layout name that a template source gives in its first directive. -/
def find? (source : String) : Option String := (search source.toList).map String.ofList

end Views.Directive
