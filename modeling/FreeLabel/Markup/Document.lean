/-
A document as characters. It is given as a text whose bytes encode it; no
document begins with the character zero or has it second, so where one of
the first two bytes is zero the bytes are read in units of two. The order
of the two is the one that makes an ASCII character of the first unit.

Bytes taken in pairs need not come out even: a document may end within a
unit, or with the first unit of a character that takes two.
-/
import FreeLabel.Text.Utf8

namespace FreeLabel.Markup

/-- How the characters of a document are encoded. -/
inductive Encoding
  /-- In units of one byte. -/
  | utf8
  /-- In units of two bytes. -/
  | utf16
deriving DecidableEq, Repr

namespace Encoding

/-- How many units encode a character. -/
def units : Encoding → Char → Nat
  | utf8, c => c.utf8Size
  | utf16, c => if c.toNat < 0x10000 then 1 else 2

/-- How many bytes a unit has. -/
def width : Encoding → Nat
  | utf8 => 1
  | utf16 => 2

/-- How many bytes encode a text. -/
def size (e : Encoding) (t : Text) : Nat :=
  t.foldl (fun n c => n + e.width * e.units c) 0

end Encoding

/-- What a document holds behind its last character. -/
inductive Tail
  /-- Nothing. -/
  | nothing
  /-- One byte of a unit of two. -/
  | oddByte
  /-- One unit of a character of two. -/
  | halfCharacter
deriving DecidableEq, Repr

/-- A document. -/
structure Document where
  /-- Its characters. -/
  text : Text
  /-- How they are encoded. -/
  encoding : Encoding := .utf8
  /-- What is left behind them. -/
  tail : Tail := .nothing
deriving DecidableEq, Repr

-- =============================================================== sources

/-- Where text is read from. The line ends of a document are read as line
feeds. In the text of an entity that has been done when it was declared,
and a carriage return that is still there stays. -/
inductive Source
  /-- A document. -/
  | document (encoding : Encoding) (tail : Tail)
  /-- The text of an entity. -/
  | entity
deriving DecidableEq, Repr

namespace Source

/-- How what is read is encoded. -/
def encoding : Source → Encoding
  | document e _ => e
  | entity => .utf8

/-- What is left behind the last character. -/
def tail : Source → Tail
  | document _ tail => tail
  | entity => .nothing

/-- The source if the byte that may be left over has been read. -/
def withoutOddByte : Source → Source
  | document e .oddByte => document e .nothing
  | source => source

/-- Whether a carriage return ends a line. -/
def hasReturns : Source → Bool
  | document .. => true
  | entity => false

end Source

/-- The source that a document is. -/
def Document.source (document : Document) : Source :=
  .document document.encoding document.tail

/-- A text without the line feed that it may begin with, which belongs to
the carriage return before it. -/
def dropLineFeed : Text → Text
  | '\n' :: s => s
  | s => s

theorem length_dropLineFeed_le (s : Text) : (dropLineFeed s).length ≤ s.length := by
  fun_cases dropLineFeed s <;> simp

-- ============================================================ byte pairs

/-- The units that pairs of bytes are, and whether a byte is left over. -/
def unitsOf (highFirst : Bool) : Text.Bytes → List Nat × Bool
  | [] => ([], false)
  | [_] => ([], true)
  | a :: b :: bs =>
    let (us, isOdd) := unitsOf highFirst bs
    let (high, low) := if highFirst then (a, b) else (b, a)
    ((256 * high.toNat + low.toNat) :: us, isOdd)

/-- The character that a unit is. A unit that stands for none is read as
the character zero, which may occur in no document. -/
def unitChar (u : Nat) : Char := Char.ofNat u

/-- The character that two units make up: the first gives the high bits
and the low ten bits of the second the others. -/
def pairChar (u v : Nat) : Char :=
  Char.ofNat (0x10000 + (u - 0xD800) * 0x400 + v % 0x400)

/-- The characters that units encode, and whether a character is cut in
two at the end. -/
def charsOf : List Nat → Text × Bool
  | [] => ([], false)
  | u :: us =>
    if 0xD800 ≤ u && u < 0xDC00 then
      match us with
      | [] => ([], true)
      | v :: us =>
        let (t, isCut) := charsOf us
        (pairChar u v :: t, isCut)
    else
      let (t, isCut) := charsOf us
      (unitChar u :: t, isCut)

/-- The document that pairs of bytes encode. -/
def Document.ofPairs (highFirst : Bool) (bs : Text.Bytes) : Document :=
  let (us, isOdd) := unitsOf highFirst bs
  let (t, isCut) := charsOf us
  { text := t
    encoding := .utf16
    tail := if isCut then .halfCharacter else if isOdd then .oddByte else .nothing }

/-- The document that the bytes of a text are. -/
def Document.ofText (t : Text) : Document :=
  match t with
  | '\x00' :: _ => .ofPairs true (Text.encode t)
  | c :: '\x00' :: _ =>
    if c.toNat < 0x80 then .ofPairs false (Text.encode t) else { text := t }
  | _ => { text := t }

end FreeLabel.Markup
