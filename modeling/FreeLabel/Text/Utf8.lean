/-
Text as bytes. Every text has one encoding; bytes that encode none are
read as text too, by putting a mark where a character cannot be read, or
by leaving it out. What is passed over at once is the longest beginning
of an encoding, or a single byte where none begins.
-/
import FreeLabel.Text.Basic

namespace FreeLabel.Text

/-- Bytes, as a file holds them. -/
abbrev Bytes := List UInt8

/-- The bytes that encode a text. -/
def encode (t : Text) : Bytes := t.flatMap String.utf8EncodeChar

/-- How many bytes follow the first byte of an encoding, and in which
range the first of them lies. -/
def following? (b : UInt8) : Option (Nat × UInt8 × UInt8) :=
  if b < 0xC2 then none
  else if b < 0xE0 then some (1, 0x80, 0xBF)
  else if b = 0xE0 then some (2, 0xA0, 0xBF)
  else if b = 0xED then some (2, 0x80, 0x9F)
  else if b < 0xF0 then some (2, 0x80, 0xBF)
  else if b = 0xF0 then some (3, 0x90, 0xBF)
  else if b < 0xF4 then some (3, 0x80, 0xBF)
  else if b = 0xF4 then some (3, 0x80, 0x8F)
  else none

/-- The bits of the first byte that belong to the character, if `n` bytes
follow it. -/
def leadBits (n : Nat) (b : UInt8) : Nat := b.toNat % Nat.pow 2 (6 - n)

/-- Reads `n` bytes that follow, the first of them from `lo` to `hi`, onto
the bits `acc`. There is no character if one of them is missing. -/
def takeFollowing (lo hi : UInt8) (acc : Nat) : Nat → Bytes → Option Nat × Bytes
  | 0, bs => (some acc, bs)
  | _ + 1, [] => (none, [])
  | n + 1, b :: bs =>
    if lo ≤ b && b ≤ hi then
      takeFollowing 0x80 0xBF (acc * 64 + b.toNat % 64) n bs
    else (none, b :: bs)

theorem length_takeFollowing_le (lo hi : UInt8) (acc n : Nat) (bs : Bytes) :
    (takeFollowing lo hi acc n bs).2.length ≤ bs.length := by
  fun_induction takeFollowing lo hi acc n bs with
  | case1 => simp
  | case2 => simp
  | case3 lo hi acc n b bs _ ih => exact Nat.le_trans ih (by simp)
  | case4 => simp

/-- The text that bytes encode, with `mark` for what encodes none. -/
def decode (mark : Text) : Bytes → Text
  | [] => []
  | b :: bs =>
    if b < 0x80 then Char.ofNat b.toNat :: decode mark bs
    else
      match following? b with
      | none => mark ++ decode mark bs
      | some (n, lo, hi) =>
        let r := takeFollowing lo hi (leadBits n b) n bs
        (match r.1 with
          | some code => [Char.ofNat code]
          | none => mark) ++ decode mark r.2
termination_by bs => bs.length
decreasing_by
  · simp
  · simp
  · have := length_takeFollowing_le lo hi (leadBits n b) n bs
    simp
    omega

/-- A text in which every line ends with a line feed alone. -/
def normalizeLineEnds : Text → Text
  | [] => []
  | '\r' :: '\n' :: s => '\n' :: normalizeLineEnds s
  | c :: s => (if c = '\r' then '\n' else c) :: normalizeLineEnds s

/-- The text of a file. What encodes no character is left out, and lines
end with a line feed. -/
def ofFile (bs : Bytes) : Text := normalizeLineEnds (decode [] bs)

end FreeLabel.Text
