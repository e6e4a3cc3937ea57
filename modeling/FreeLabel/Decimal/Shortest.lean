/-
The fewest digits that tell a number. A binary floating-point number
stands for all the real numbers that round to it. Of the decimals among
them one with the fewest digits is taken; of two such, the nearer one,
and of two equally near, the one that ends in an even digit.

The number and the two ends of what rounds to it are counted in one unit,
a power of ten that divides them all, so nothing but natural numbers is
compared.
-/
import FreeLabel.Text.Basic

namespace FreeLabel.Decimal

-- ======================================================== binary numbers

/-- The number `mantissa · 2 ^ exponent`, as it is stored. -/
structure Binary where
  mantissa : Nat
  exponent : Int
  /-- Whether the next number below is half as far away as the next one
  above, as it is at a power of two. -/
  narrowBelow : Bool
deriving DecidableEq, Repr

/-- The bits that hold the exponent. -/
def exponentBits (bits : UInt64) : Nat := bits.toNat / Nat.pow 2 52 % Nat.pow 2 11

/-- The bits that hold the mantissa, without the leading one. -/
def fractionBits (bits : UInt64) : Nat := bits.toNat % Nat.pow 2 52

/-- The size of the finite number stored as `bits`. -/
def Binary.ofBits (bits : UInt64) : Binary :=
  let e := exponentBits bits
  let f := fractionBits bits
  if e = 0 then { mantissa := f, exponent := -1074, narrowBelow := false }
  else
    { mantissa := Nat.pow 2 52 + f, exponent := (e : Int) - 1075
      narrowBelow := f = 0 && 1 < e }

-- ======================================================= what rounds to it

/-- A number between the ends of what rounds to it, all counted in units
of a tenth to the power `places`. -/
structure Span where
  low : Nat
  value : Nat
  high : Nat
  /-- Whether the ends round to the number too. -/
  closed : Bool
  places : Nat
deriving DecidableEq, Repr

/-- What rounds to a number: everything up to halfway to its neighbours,
and halfway itself if the mantissa is even. -/
def Binary.span (b : Binary) : Span :=
  let quarter := b.exponent - 2
  let unit := Nat.pow 2 quarter.toNat * Nat.pow 5 (-quarter).toNat
  { low := (4 * b.mantissa - if b.narrowBelow then 1 else 2) * unit
    value := 4 * b.mantissa * unit
    high := (4 * b.mantissa + 2) * unit
    closed := b.mantissa % 2 = 0
    places := (-quarter).toNat }

/-- Whether `n` rounds to the number. -/
def Span.holds (s : Span) (n : Nat) : Bool :=
  if n = s.low || n = s.high then s.closed else s.low < n && n < s.high

/-- The multiple of `step` that stands for the number: one of the two
around it. -/
def Span.nearest? (s : Span) (step : Nat) : Option Nat :=
  let below := s.value / step * step
  let above := below + step
  match s.holds below, s.holds above with
  | false, false => none
  | true, false => some below
  | false, true => some above
  | true, true =>
    if s.value - below < above - s.value then some below
    else if above - s.value < s.value - below then some above
    else if s.value / step % 2 = 0 then some below
    else some above

/-- How many digits a number has. -/
def size (n : Nat) : Nat := (Nat.toDigits 10 n).length

/-- The number with the fewest digits that stands for the given one.
Seventeen are always enough. -/
def Span.shortest (s : Span) : Nat :=
  ((List.range 17).findSome? fun n =>
    s.nearest? (Nat.pow 10 (size s.value - (n + 1)))).getD s.value

-- ================================================================= digits

/-- The number `0.digits · 10 ^ point`. The last digit is not zero, so
zero has no digits. -/
structure Digits where
  digits : Text
  point : Int
deriving DecidableEq, Repr

/-- A digit string without the zeros that it ends with. -/
def dropZeros (ds : Text) : Text := (ds.reverse.dropWhile (· = '0')).reverse

/-- The digits that tell a binary number. -/
def Binary.digits (b : Binary) : Digits :=
  let s := b.span
  let ds := Nat.toDigits 10 s.shortest
  { digits := dropZeros ds, point := (ds.length : Int) - s.places }

end FreeLabel.Decimal
