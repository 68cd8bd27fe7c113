import Views.Text.Invisible
/-!
# Quoted texts in messages

Messages quote a name so that every character of it can be seen: quotes and backslashes are escaped,
and invisible characters are written by their code points.
-/

namespace Views.Text

/-- A character as it stands between quotes in a message. -/
def revealChar (c : Char) : List Char :=
  match c with
  | '\x00' => ['\\', '0']
  | '\t' => ['\\', 't']
  | '\r' => ['\\', 'r']
  | '\n' => ['\\', 'n']
  | '"' => ['\\', '"']
  | '\\' => ['\\', '\\']
  | c =>
    if isInvisible c then ['\\', 'u', '\x7b'] ++ Nat.toDigits 16 c.toNat ++ ['\x7d'] else [c]

/-- A text in quotes for a message. -/
def reveal (s : String) : String :=
  "\"" ++ String.ofList (s.toList.flatMap revealChar) ++ "\""

end Views.Text
