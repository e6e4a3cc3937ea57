/-
Values as they are given for settings. What is given need not have the
type that the setting has: a text may spell a number or a truth value,
and a number may stand for another kind of number if nothing is lost.
-/
import FreeLabel.Decimal.Shortest
import FreeLabel.Settings.Whole

namespace FreeLabel.Settings

/-- A value as it is given. -/
inductive Given
  | text (t : Text)
  | whole (n : Int)
  | real (x : Float)
  | truth (b : Bool)
  /-- Nothing, or something that has parts. -/
  | other

/-- Why a value does not fit a setting. -/
inductive Misfit
  | notText
  | notWhole | unreadableWhole | overlongWhole | fractionalWhole | infiniteWhole
  | notReal | unreadableReal
  | notTruth | unreadableTruth
  | negative
deriving DecidableEq, Repr

/-- The name of a misfit. -/
def Misfit.name : Misfit → Text
  | notText => "string_type".toList
  | notWhole => "int_type".toList
  | unreadableWhole => "int_parsing".toList
  | overlongWhole => "int_parsing_size".toList
  | fractionalWhole => "int_from_float".toList
  | infiniteWhole => "finite_number".toList
  | notReal => "float_type".toList
  | unreadableReal => "float_parsing".toList
  | notTruth => "bool_type".toList
  | unreadableTruth => "bool_parsing".toList
  | negative => "greater_than_equal".toList

-- ========================================================= spelled values

/-- The whole number that a text spells, plainly or not. -/
def readWhole (t : Text) : Except Misfit Int :=
  if beginsOverlong t then .error .overlongWhole
  else ((readPlain? t).or (readLoose? t)).elim (.error .unreadableWhole) .ok

/-- The number that a text spells. Low lines may stand between its
characters, and blanks around it, but not both. -/
def readReal? (t : Text) : Option Float :=
  (Decimal.read? (trimNumber t)).or ((joinGroups? t).bind Decimal.read?)

/-- The truth value that a text spells, in any letter case. -/
def readTruth? (t : Text) : Option Bool :=
  let word := t.map Char.toLower
  if ["1", "true", "t", "yes", "y", "on"].any fun w => w.toList = word then some true
  else if ["0", "false", "f", "no", "n", "off"].any fun w => w.toList = word then
    some false
  else none

-- ================================================================= values

/-- Whole numbers that are given as numbers of another kind are below this
size. -/
def wholeBound : Nat := Nat.pow 2 63

/-- The whole number that a number is equal to. -/
def wholeOf (x : Float) : Except Misfit Int :=
  let b := Decimal.Binary.ofBits x.toBits
  let size := b.mantissa * Nat.pow 2 b.exponent.toNat
  let parts := Nat.pow 2 (-b.exponent).toNat
  if !x.isFinite then .error .infiniteWhole
  else if size % parts ≠ 0 then .error .fractionalWhole
  else if wholeBound ≤ size / parts then .error .overlongWhole
  else .ok (if x < 0 then -(size / parts) else size / parts)

namespace Given

/-- The text given. -/
def toText : Given → Except Misfit Text
  | text t => .ok t
  | _ => .error .notText

/-- The whole number given. -/
def toWhole : Given → Except Misfit Int
  | whole n => .ok n
  | truth b => .ok (if b then 1 else 0)
  | real x => wholeOf x
  | text t => readWhole t
  | other => .error .notWhole

/-- The number given. A whole number may be too large for one. -/
def toReal : Given → Except Misfit Float
  | whole n =>
    let x := Decimal.nearest n.natAbs 0
    if x.isFinite then .ok (if n < 0 then -x else x) else .error .notReal
  | truth b => .ok (if b then 1 else 0)
  | real x => .ok x
  | text t => (readReal? t).elim (.error .unreadableReal) .ok
  | other => .error .notReal

/-- The truth value that a whole number stands for. -/
def truthOf (n : Int) : Except Misfit Bool :=
  if n < -wholeBound ∨ wholeBound ≤ n then .error .notTruth
  else if n = 0 then .ok false
  else if n = 1 then .ok true
  else .error .unreadableTruth

/-- The truth value given. -/
def toTruth : Given → Except Misfit Bool
  | truth b => .ok b
  | whole n => truthOf n
  | real x => (wholeOf x).toOption.elim (.error .notTruth) truthOf
  | text t => (readTruth? t).elim (.error .unreadableTruth) .ok
  | other => .error .notTruth

end Given

end FreeLabel.Settings
