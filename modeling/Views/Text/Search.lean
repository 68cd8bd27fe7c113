/-!
# Searching and replacing

`replace needle value` puts `value` for the occurrences of `needle` in a text, from the left and
without overlap; `occurs needle` asks whether there is any. Both run once along the text.
-/

namespace Views.Text

/-- Whether `needle` stands somewhere in the text. -/
def occurs (needle : List Char) : List Char → Bool
  | [] => needle.isEmpty
  | c :: cs => needle.isPrefixOf (c :: cs) || occurs needle cs

/-- Walks along the text; `skip` counts the characters of a found occurrence still to be passed. -/
def replaceFrom (needle value : List Char) : Nat → List Char → List Char
  | _, [] => []
  | skip + 1, _ :: cs => replaceFrom needle value skip cs
  | 0, c :: cs =>
    if needle ≠ [] ∧ needle.isPrefixOf (c :: cs) then
      value ++ replaceFrom needle value (needle.length - 1) cs
    else c :: replaceFrom needle value 0 cs

/-- The text with every occurrence of `needle`, taken from the left without overlap, replaced by
`value`. An empty needle occurs nowhere. -/
def replace (needle value : List Char) (text : List Char) : List Char :=
  replaceFrom needle value 0 text

/-- A text holds a needle if the needle is a contiguous part of it. -/
theorem occurs_iff_infix {needle cs : List Char} : occurs needle cs = true ↔ needle <:+: cs := by
  induction cs with
  | nil => simp [occurs]
  | cons c cs ih => simp [occurs, ih, List.infix_cons_iff]

/-- The characters still to be passed are passed. -/
theorem replaceFrom_length_append (needle value passed rest : List Char) :
    replaceFrom needle value passed.length (passed ++ rest) = replaceFrom needle value 0 rest := by
  induction passed with
  | nil => rfl
  | cons c passed ih => exact ih

/-- A character at which no occurrence starts stays. -/
theorem replace_cons_of_not_prefix {needle : List Char} {c : Char} {cs : List Char}
    (h : ¬ needle <+: c :: cs) (value : List Char) :
    replace needle value (c :: cs) = c :: replace needle value cs := by
  have h' : ¬ (needle ≠ [] ∧ needle.isPrefixOf (c :: cs) = true) :=
    fun hp => h (List.isPrefixOf_iff_prefix.mp hp.2)
  simp only [replace, replaceFrom, if_neg h']

/-- An occurrence at the start gives way to the value. -/
theorem replace_append_self {needle : List Char} (h : needle ≠ []) (value rest : List Char) :
    replace needle value (needle ++ rest) = value ++ replace needle value rest := by
  obtain ⟨c, cs, rfl⟩ := List.exists_cons_of_ne_nil h
  have hp : (c :: cs) ≠ [] ∧ (c :: cs).isPrefixOf (c :: (cs ++ rest)) = true :=
    ⟨h, List.isPrefixOf_iff_prefix.mpr ⟨rest, rfl⟩⟩
  rw [List.cons_append, replace, replaceFrom, if_pos hp]
  exact congrArg (value ++ ·) (replaceFrom_length_append _ _ cs rest)

theorem length_replaceFrom_nil_le (needle : List Char) (skip : Nat) (cs : List Char) :
    (replaceFrom needle [] skip cs).length ≤ cs.length := by
  induction cs generalizing skip with
  | nil => simp [replaceFrom]
  | cons c cs ih =>
    cases skip with
    | succ skip => exact Nat.le_succ_of_le (ih skip)
    | zero =>
      rw [replaceFrom]
      split
      · exact Nat.le_succ_of_le (ih _)
      · exact Nat.succ_le_succ (ih 0)

/-- Cutting out what occurs makes a text shorter. -/
theorem length_replace_nil_lt {needle cs : List Char} (hne : needle ≠ []) (h : needle <:+: cs) :
    (replace needle [] cs).length < cs.length := by
  induction cs with
  | nil => exact absurd (List.infix_nil.mp h) hne
  | cons c cs ih =>
    rw [replace, replaceFrom]
    split
    · exact Nat.lt_succ_of_le (length_replaceFrom_nil_le ..)
    · rename_i hp
      have hin : needle <:+: cs := by
        rcases List.infix_cons_iff.mp h with hpre | hin
        · exact absurd ⟨hne, List.isPrefixOf_iff_prefix.mpr hpre⟩ hp
        · exact hin
      exact Nat.succ_lt_succ (ih hin)

/-- The parts of a text between the characters that satisfy `p`; there is always one part more than
there are such characters. -/
def splitAt (p : Char → Bool) : List Char → List (List Char)
  | [] => [[]]
  | c :: cs =>
    if p c then [] :: splitAt p cs
    else match splitAt p cs with
      | [] => [[c]]
      | part :: parts => (c :: part) :: parts

theorem splitAt_ne_nil (p : Char → Bool) (cs : List Char) : splitAt p cs ≠ [] := by
  induction cs with
  | nil => simp [splitAt]
  | cons c cs _ =>
    simp only [splitAt]
    split
    · simp
    · split <;> simp

/-- The lines of a text: a line break ends a line, and nothing after the last one is no line. -/
def lines (cs : List Char) : List (List Char) :=
  let parts := splitAt (· == '\n') cs
  let whole := if parts.getLast? == some [] then parts.dropLast else parts
  whole.map fun line => if line.getLast? == some '\r' then line.dropLast else line

/-- The number of bytes of the text in UTF-8. -/
def byteLength (cs : List Char) : Nat := cs.foldl (fun n c => n + c.utf8Size) 0

end Views.Text
