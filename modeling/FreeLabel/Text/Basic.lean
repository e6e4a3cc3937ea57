/-
Diagram text as a list of characters, so that every scanner below is a
function on a list that returns what it has not read. This file holds
the three moves that all scanners share: reading a fixed word
(`after?`), cutting at the first occurrence of one (`cut?`), and taking
a text apart into lines.

`after?_eq_some_iff` and `cut?_eq_some` say that the first two lose
nothing; `joinLines_lines` says it of the third.
-/
namespace FreeLabel

/-- A text, character by character; lengths and columns count these. -/
abbrev Text := List Char

namespace Text

-- ================================================== reading a fixed word

/-- What follows `word` at the head of `s`, if `s` begins with it. -/
def after? : Text → Text → Option Text
  | [], s => some s
  | _ :: _, [] => none
  | w :: word, c :: s => if w = c then after? word s else none

theorem after?_eq_some_iff {word s rest : Text} :
    after? word s = some rest ↔ s = word ++ rest := by
  induction word generalizing s with
  | nil => simp [after?, eq_comm]
  | cons w word ih =>
    cases s with
    | nil => simp [after?]
    | cons c s =>
      by_cases h : w = c
      · simp [after?, h, ih]
      · simp [after?, h, Ne.symm h]

/-- Whether `s` begins with `word`. -/
def startsWith (word s : Text) : Bool := (after? word s).isSome

-- =================================================== cutting at a word

/-- `s` before and after the first occurrence of `word`. -/
def cut? (word : Text) : Text → Option (Text × Text)
  | [] => if word = [] then some ([], []) else none
  | c :: s =>
    match after? word (c :: s) with
    | some rest => some ([], rest)
    | none => (cut? word s).map fun (before, rest) => (c :: before, rest)

theorem cut?_eq_some {word s before rest : Text}
    (h : cut? word s = some (before, rest)) : s = before ++ word ++ rest := by
  induction s generalizing before with
  | nil =>
    by_cases hw : word = []
    · simp [cut?, hw] at h
      simp [h, hw]
    · simp [cut?, hw] at h
  | cons c s ih =>
    rw [cut?] at h
    split at h
    · next r hr =>
      simp only [Option.some.injEq, Prod.mk.injEq] at h
      obtain ⟨rfl, rfl⟩ := h
      simpa using after?_eq_some_iff.1 hr
    · obtain ⟨⟨b, r⟩, hb, heq⟩ := Option.map_eq_some_iff.1 h
      simp only [Prod.mk.injEq] at heq
      obtain ⟨rfl, rfl⟩ := heq
      simpa using ih hb

-- ================================================================ lines

/-- The lines of a text; a line feed stands between two of them, so a
text has one more line than it has line feeds. -/
def lines (s : Text) : List Text := s.splitOn '\n'

/-- The text with the given lines. -/
def joinLines (ls : List Text) : Text := ['\n'].intercalate ls

theorem joinLines_lines (s : Text) : joinLines (lines s) = s :=
  List.intercalate_splitOn '\n'

/-- The lines of a text with their numbers, from one. -/
def numberedLines (s : Text) : List (Nat × Text) :=
  (lines s).zipIdx 1 |>.map fun (line, n) => (n, line)

-- ============================================================== numbers

/-- A number in decimal digits. -/
def ofNat (n : Nat) : Text := Nat.toDigits 10 n

/-- An integer in decimal digits, with a sign if it is negative. -/
def ofInt : Int → Text
  | .ofNat n => ofNat n
  | .negSucc n => '-' :: ofNat (n + 1)

end Text

end FreeLabel
