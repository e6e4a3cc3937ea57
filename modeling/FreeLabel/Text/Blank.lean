/-
Blank characters and trimming. A blank is a character with the Unicode
property White_Space, or one of the four separators U+001C to U+001F;
zero-width characters and the byte order mark are not blank.

Trimming cuts a text into blanks, a core and blanks: `indent_append` and
`trimRight_append` say that nothing else is removed.
-/
import FreeLabel.Text.Basic

namespace FreeLabel

/-- Whether a character is blank. -/
def isBlank (c : Char) : Bool :=
  let n := c.toNat
  (0x09 ≤ n && n ≤ 0x0D) || (0x1C ≤ n && n ≤ 0x20) || n == 0x85 ||
    n == 0xA0 || n == 0x1680 || (0x2000 ≤ n && n ≤ 0x200A) ||
    n == 0x2028 || n == 0x2029 || n == 0x202F || n == 0x205F || n == 0x3000

namespace Text

/-- The blanks that a text begins with. -/
def indent (s : Text) : Text := s.takeWhile isBlank

/-- A text without the blanks that it begins with. -/
def trimLeft (s : Text) : Text := s.dropWhile isBlank

/-- A text without the blanks that it ends with. -/
def trimRight (s : Text) : Text := (s.reverse.dropWhile isBlank).reverse

/-- A text without the blanks around it. -/
def trim (s : Text) : Text := trimRight (trimLeft s)

theorem indent_append (s : Text) : indent s ++ trimLeft s = s :=
  List.takeWhile_append_dropWhile

theorem trimRight_append (s : Text) :
    trimRight s ++ (s.reverse.takeWhile isBlank).reverse = s := by
  rw [trimRight, ← List.reverse_append, List.takeWhile_append_dropWhile,
    List.reverse_reverse]

/-- Whether a character is a space or a tab. -/
def isGap (c : Char) : Bool := c == ' ' || c == '\t'

/-- A text without the spaces and tabs that it begins with. -/
def skipGap (s : Text) : Text := s.dropWhile isGap

/-- What follows one or more spaces and tabs. -/
def afterGap? (s : Text) : Option Text :=
  match s with
  | c :: rest => if isGap c then some (skipGap rest) else none
  | [] => none

/-- What follows one or more blanks. -/
def afterBlanks? (s : Text) : Option Text :=
  match s with
  | c :: rest => if isBlank c then some (trimLeft rest) else none
  | [] => none

end Text

end FreeLabel
