/-
Texts as others hand them over. A text here is a list of characters; theirs
is a list of code points, and a code point may be a surrogate, which is half
of a character elsewhere and none of its own. Code points with a surrogate
among them cannot be encoded, not even if two surrogates stand together.
-/
import FreeLabel.Text.Quoted

namespace FreeLabel

/-- A code point. -/
inductive CodePoint
  /-- A character. -/
  | char (c : Char)
  /-- A surrogate, by its place among them. -/
  | surrogate (place : Fin 0x800)
deriving DecidableEq, Repr

/-- A text that may hold surrogates. -/
abbrev CodePoints := List CodePoint

namespace CodePoint

/-- The character that a code point is. -/
def char? : CodePoint → Option Char
  | char c => some c
  | surrogate _ => none

/-- The place of the surrogate that a code point is. -/
def place? : CodePoint → Option (Fin 0x800)
  | char _ => none
  | surrogate place => some place

end CodePoint

/-- Where code points cannot be encoded: at the first surrogate, and at those
that follow it at once. -/
structure Unencodable where
  /-- How many characters stand before. -/
  start : Nat
  /-- The surrogates. -/
  places : List (Fin 0x800)
deriving DecidableEq, Repr

namespace Unencodable

/-- Where code points with a surrogate among them cannot be encoded. -/
def within (ps : CodePoints) : Unencodable where
  start := (ps.takeWhile fun p => p.char?.isSome).length
  places :=
    ((ps.dropWhile fun p => p.char?.isSome).takeWhile fun p => p.place?.isSome).filterMap
      CodePoint.place?

/-- The text that reports what cannot be encoded. -/
def message (e : Unencodable) : Text :=
  let what :=
    match e.places with
    | [place] =>
      "character '\\u".toList ++ Text.hex 4 (0xD800 + place) ++ "' in position ".toList ++
        Text.ofNat e.start
    | places =>
      "characters in position ".toList ++ Text.ofNat e.start ++ ['-'] ++
        Text.ofNat (e.start + places.length - 1)
  "'utf-8' codec can't encode ".toList ++ what ++ ": surrogates not allowed".toList

end Unencodable

namespace Text

/-- The code points of a text. -/
def codePoints (t : Text) : CodePoints := t.map .char

/-- The characters that code points are, if all of them are. -/
def chars? : CodePoints → Option Text
  | [] => some []
  | .char c :: ps => (chars? ps).map (c :: ·)
  | .surrogate _ :: _ => none

/-- The text that code points are, if they can be encoded. -/
def ofCodePoints (ps : CodePoints) : Except Unencodable Text :=
  match chars? ps with
  | some t => .ok t
  | none => .error (.within ps)

theorem chars?_eq_some_iff {ps : CodePoints} {t : Text} :
    chars? ps = some t ↔ ps = t.codePoints := by
  unfold codePoints
  induction ps generalizing t with
  | nil => cases t <;> simp [chars?]
  | cons p ps ih =>
    cases p with
    | char c => cases t <;> simp [chars?, ih, and_left_comm]
    | surrogate place => cases t <;> simp [chars?]

/-- Code points can be encoded if they are those of a text. -/
theorem ofCodePoints_eq_ok_iff {ps : CodePoints} {t : Text} :
    ofCodePoints ps = .ok t ↔ ps = t.codePoints := by
  rw [← chars?_eq_some_iff, ofCodePoints]
  cases chars? ps <;> simp

@[simp] theorem ofCodePoints_codePoints (t : Text) : ofCodePoints t.codePoints = .ok t :=
  ofCodePoints_eq_ok_iff.2 rfl

theorem codePoints_inj {t u : Text} : t.codePoints = u.codePoints ↔ t = u := by
  rw [← ofCodePoints_eq_ok_iff, ofCodePoints_codePoints, Except.ok.injEq]

end Text

end FreeLabel
