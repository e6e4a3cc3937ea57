/-
Quoted text for messages: a text between quotation marks on one line, in
which every character that cannot be seen is written as an escape. The
mark is the apostrophe, unless the text holds one and no double quote.

A character is escaped by itself, so a quoted text is its marks around
the concatenation of its characters' spellings.
-/
import FreeLabel.Text.Basic
import FreeLabel.Text.Printable

namespace FreeLabel.Text

/-- `n` in lower-case hexadecimal, with at least `width` digits. -/
def hex (width n : Nat) : Text :=
  let digits := Nat.toDigits 16 n
  List.replicate (width - digits.length) '0' ++ digits

/-- The spelling of one character between marks `mark`. -/
def spelling (mark c : Char) : Text :=
  if c == mark || c == '\\' then ['\\', c]
  else if c == '\n' then "\\n".toList
  else if c == '\r' then "\\r".toList
  else if c == '\t' then "\\t".toList
  else if isPrintable c then [c]
  else if c.toNat < 0x100 then "\\x".toList ++ hex 2 c.toNat
  else if c.toNat < 0x10000 then "\\u".toList ++ hex 4 c.toNat
  else "\\U".toList ++ hex 8 c.toNat

/-- The mark that a text is quoted with. -/
def quoteMark (s : Text) : Char :=
  if '\'' ∈ s ∧ '"' ∉ s then '"' else '\''

/-- A text between quotation marks. -/
def quoted (s : Text) : Text :=
  [quoteMark s] ++ s.flatMap (spelling (quoteMark s)) ++ [quoteMark s]

end FreeLabel.Text
