/-
Whole numbers as texts spell them. A plain spelling has no zeros in front
of its digits; it may be of any length up to a limit. A loose one may have
blanks around it, a sign, zeros in front, low lines between its digits and
a point with nothing but zeros behind it. It is reduced to a plain one,
which is then read.
-/
import FreeLabel.Decimal.Reading
import FreeLabel.Text.Blank

namespace FreeLabel.Settings

open Decimal (natOfDigits)

-- ======================================================= plain spellings

/-- The longest plain spelling that is read. -/
def longestWhole : Nat := 4300

/-- What follows a minus sign that a text begins with, and whether it
does. -/
def readMinus : Text → Bool × Text
  | '-' :: s => (true, s)
  | s => (false, s)

/-- Whether a text begins with a plain spelling that is too long. -/
def beginsOverlong (t : Text) : Bool :=
  let (negative, s) := readMinus t
  let ds := s.takeWhile Char.isDigit
  ds.head?.any (· ≠ '0') && longestWhole < ds.length + negative.toNat

/-- The number of a plain spelling. -/
def readPlain? (t : Text) : Option Int :=
  let (negative, ds) := readMinus t
  if ds.all Char.isDigit && ds.head?.any (fun c => c ≠ '0' || ds = ['0']) then
    some (if negative then -(natOfDigits ds) else natOfDigits ds)
  else none

-- ======================================================= loose spellings

/-- Whether a character may stand around a number: the separators U+001C
to U+001F may not. -/
def isOuterBlank (c : Char) : Bool :=
  isBlank c && !(0x1C ≤ c.toNat && c.toNat ≤ 0x1F)

/-- A text without the blanks that may stand around a number. -/
def trimNumber (t : Text) : Text :=
  ((t.dropWhile isOuterBlank).reverse.dropWhile isOuterBlank).reverse

/-- A text without its low lines, if each of them stands between two
other characters. -/
def joinGroups? (t : Text) : Option Text :=
  let groups := t.splitOn '_'
  if groups.any (· = []) then none else some groups.flatten

/-- A text without the plus sign that it may begin with. No other sign
stands behind it. -/
def dropPlus? : Text → Option Text
  | '+' :: '-' :: _ => none
  | '+' :: s => some s
  | s => some s

/-- What of a number follows the zeros in front of it, and the low lines
between them. The last of these is kept if no digit follows. The digits
may have a minus sign of their own. -/
def dropZeros? (s : Text) : Option Text :=
  let begins (c : Char) : Bool := c.isDigit || c == '-'
  match s with
  | '0' :: rest =>
    let zeros := '0' :: rest.takeWhile fun c => c == '0' || c == '_'
    match rest.dropWhile fun c => c == '0' || c == '_' with
    | [] => some (zeros.drop (zeros.length - 1))
    | '.' :: places => some (zeros.drop (zeros.length - 1) ++ '.' :: places)
    | digits => if digits.head?.any begins then some digits else none
  | s => if s.head?.any begins then some s else none

/-- A number without its places, if it has some and they are all zero. -/
def dropPlaces (s : Text) : Text :=
  match s.dropWhile (· ≠ '.') with
  | '.' :: places =>
    if places ≠ [] && places.all (· = '0') then s.takeWhile (· ≠ '.') else s
  | _ => s

/-- The plain spelling of a loose one. -/
def plain? (t : Text) : Option Text := do
  let (negative, s) := readMinus (← dropPlus? (trimNumber t))
  let ds ← joinGroups? (dropPlaces (← dropZeros? s))
  some (if negative then '-' :: ds else ds)

/-- The number of a loose spelling. -/
def readLoose? (t : Text) : Option Int :=
  (plain? t).bind fun s => if beginsOverlong s then none else readPlain? s

end FreeLabel.Settings
