import SegmentedJournal.Text.Printable
/-!
# Text — quoted strings

Strings shown between quotes, and lists of them between brackets.  Inside the quotes a quote, a
backslash and the characters that are not printable are escaped, the commonest by a letter and the
others by their number; every other character stands for itself.
-/

namespace SegmentedJournal.Quoted

/-- A character as it stands between quotes. -/
def escaped (c : Char) : List Char :=
  match c with
  | '"' => ['\\', '"']
  | '\\' => ['\\', '\\']
  | '\n' => ['\\', 'n']
  | '\r' => ['\\', 'r']
  | '\t' => ['\\', 't']
  | '\x00' => ['\\', '0']
  | c =>
    if Printable.isPrintable c then [c]
    else ['\\', 'u', '\x7b'] ++ Nat.toDigits 16 c.toNat ++ ['\x7d']

/-- A string between quotes. -/
def string (text : String) : String :=
  "\"" ++ String.ofList (text.toList.flatMap escaped) ++ "\""

/-- A list of strings between brackets. -/
def list (texts : List String) : String :=
  "[" ++ ", ".intercalate (texts.map string) ++ "]"

end SegmentedJournal.Quoted
