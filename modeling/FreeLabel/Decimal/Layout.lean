/-
A number as text. Small and middling numbers are written with a point
among their digits, at least one digit on either side of it; from ten to
the sixteenth on, and below a ten-thousandth, the point stands behind the
first digit and a power of ten follows.
-/
import FreeLabel.Decimal.Shortest

namespace FreeLabel.Decimal

/-- `n` zeros. -/
def zeros (n : Nat) : Text := List.replicate n '0'

/-- A number with its point in place. -/
def Digits.plain (d : Digits) : Text :=
  if d.point ≤ 0 then "0.".toList ++ zeros (-d.point).toNat ++ d.digits
  else
    let whole := d.digits.take d.point.toNat
    let rest := d.digits.drop d.point.toNat
    whole ++ zeros (d.point.toNat - whole.length) ++ ['.'] ++
      if rest = [] then ['0'] else rest

/-- A power of ten, with its sign and at least two digits. -/
def power (e : Int) : Text :=
  let ds := Text.ofNat e.natAbs
  ['e', if e < 0 then '-' else '+'] ++ zeros (2 - ds.length) ++ ds

/-- A number with its point behind the first digit. -/
def Digits.scaled (d : Digits) : Text :=
  let rest := d.digits.drop 1
  d.digits.take 1 ++ (if rest = [] then [] else '.' :: rest) ++ power (d.point - 1)

/-- The text of a number without its sign. -/
def Digits.write (d : Digits) : Text :=
  if d.digits = [] then "0.0".toList
  else if -4 < d.point && d.point ≤ 16 then d.plain
  else d.scaled

/-- The text of the number stored as `bits`. -/
def writeBits (bits : UInt64) : Text :=
  let sign : Text := if bits < 0x8000000000000000 then [] else ['-']
  if exponentBits bits = 2047 then
    if fractionBits bits = 0 then sign ++ "inf".toList else "nan".toList
  else sign ++ (Binary.ofBits bits).digits.write

/-- The text of a number. -/
def write (x : Float) : Text := writeBits x.toBits

end FreeLabel.Decimal
