/-
Reading a number from text: digits with a point among them or at either
end, and perhaps a power of ten; or the name of what is not finite, in
any letter case. A sign may stand in front.
-/
import FreeLabel.Text.Basic

namespace FreeLabel.Decimal

/-- What follows a sign that a text begins with, and whether the sign is
a minus. -/
def readSign : Text → Bool × Text
  | '-' :: s => (true, s)
  | '+' :: s => (false, s)
  | s => (false, s)

/-- The number that decimal digits stand for. -/
def natOfDigits (ds : Text) : Nat :=
  ds.foldl (fun n c => 10 * n + (c.toNat - '0'.toNat)) 0

/-- The power of ten that a text consists of. Nothing at all is none. -/
def readPower? : Text → Option Int
  | [] => some 0
  | c :: s =>
    if c.toLower != 'e' then none
    else
      let (negative, ds) := readSign s
      if ds = [] || !ds.all Char.isDigit then none
      else some (if negative then -(natOfDigits ds) else natOfDigits ds)

/-- The number nearest to `n · 10 ^ power`; what is out of reach is
infinite or zero. -/
def nearest (n : Nat) (power : Int) : Float :=
  let reach := ((Nat.toDigits 10 n).length : Int) + power
  if n = 0 || reach < -400 then 0.0
  else if 400 < reach then 1.0 / 0.0
  else Float.ofScientific n (power < 0) power.natAbs

/-- The number written as `s` without a sign. -/
def readUnsigned? (s : Text) : Option Float :=
  let word := s.map Char.toLower
  if word = "inf".toList || word = "infinity".toList then some (1.0 / 0.0)
  else if word = "nan".toList then some (0.0 / 0.0)
  else
    let whole := s.takeWhile Char.isDigit
    let rest := s.dropWhile Char.isDigit
    let (places, rest) :=
      match rest with
      | '.' :: rest => (rest.takeWhile Char.isDigit, rest.dropWhile Char.isDigit)
      | rest => ([], rest)
    if whole = [] && places = [] then none
    else
      (readPower? rest).map fun power =>
        nearest (natOfDigits (whole ++ places)) (power - places.length)

/-- The number that a text consists of. -/
def read? (s : Text) : Option Float :=
  let (negative, s) := readSign s
  (readUnsigned? s).map fun x => if negative then -x else x

end FreeLabel.Decimal
