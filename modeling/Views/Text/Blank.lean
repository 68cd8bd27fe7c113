/-!
# Blank characters

Four tests on single characters and the cuts that templates, options and directives make with them.
`isBlank` is the Unicode property White_Space; `isGap` and `isNewline` are the narrower classes that
decide whether a tag stands alone on its line.
-/

namespace Views.Text

/-- The characters with the Unicode property White_Space. -/
def isBlank (c : Char) : Bool :=
  let n := c.toNat
  (9 ≤ n && n ≤ 13) || n == 0x20 || n == 0x85 || n == 0xA0 || n == 0x1680 ||
    (0x2000 ≤ n && n ≤ 0x200A) || n == 0x2028 || n == 0x2029 || n == 0x202F || n == 0x205F ||
    n == 0x3000

/-- A space or a tab. -/
def isGap (c : Char) : Bool := c == ' ' || c == '\t'

/-- A line feed or a carriage return. -/
def isNewline (c : Char) : Bool := c == '\n' || c == '\r'

/-- The text without its leading characters that satisfy `p`. -/
def trimStart (p : Char → Bool) (cs : List Char) : List Char := cs.dropWhile p

/-- The text without its trailing characters that satisfy `p`. -/
def trimEnd (p : Char → Bool) (cs : List Char) : List Char := (cs.reverse.dropWhile p).reverse

/-- The trailing characters that satisfy `p`. -/
def tailRun (p : Char → Bool) (cs : List Char) : List Char := (cs.reverse.takeWhile p).reverse

/-- Cutting the tail off loses nothing. -/
theorem trimEnd_append_tailRun (p : Char → Bool) (cs : List Char) :
    trimEnd p cs ++ tailRun p cs = cs := by
  rw [trimEnd, tailRun, ← List.reverse_append, List.takeWhile_append_dropWhile,
    List.reverse_reverse]

/-- A text that holds nothing but blank characters. -/
def isBlankText (s : String) : Bool := s.toList.all isBlank

/-- The text without one leading line break, if it starts with one. -/
def dropNewline : List Char → List Char
  | '\r' :: '\n' :: rest => rest
  | '\n' :: rest => rest
  | cs => cs

end Views.Text
