/-
A length of time on the command line: a number of seconds. Digits of any
script will do, low lines may stand between digits, and blanks around the
number.
-/
import FreeLabel.Decimal.Reading
import FreeLabel.Text.Blank
import FreeLabel.Text.Digit

namespace FreeLabel.CommandLine

/-- A text without its low lines, if each of them stands between two
digits. `before` tells whether a digit comes just before. -/
def joinDigits? (before : Bool) : Text → Option Text
  | [] => some []
  | '_' :: s =>
    if before && (s.head?.map Char.isDigit).getD false then joinDigits? false s else none
  | c :: s => (joinDigits? c.isDigit s).map (c :: ·)

/-- The number of seconds that a text gives. -/
def readSeconds? (t : Text) : Option Float :=
  (joinDigits? false ((Text.trim t).map Text.asciiDigit)).bind Decimal.read?

end FreeLabel.CommandLine
