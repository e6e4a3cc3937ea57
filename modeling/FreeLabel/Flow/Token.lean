/-
The tokens of a flowchart line. In a source a node is written as its
label alone, in quotes (a rectangle), braces (a diamond) or parentheses
and quotes (a rounded box); between nodes stand arrows, and a node that
the source names itself is an identifier with or without a label in
brackets.

Reading a line never fails: `scan` takes it apart into blanks, tokens and
stray characters that begin no token. `Token.Spelled` says how each token
is written, and `Token.read?_spelled` that a token takes up exactly one
of its spellings; so nothing of a line is lost.
-/
import FreeLabel.Flow.Arrow
import FreeLabel.Flow.Bracket
import FreeLabel.Text.Quotes
import FreeLabel.Text.Word

namespace FreeLabel.Flow

/-- The outline of a labelled node. -/
inductive Shape
  | rectangle | diamond | rounded
deriving DecidableEq, Repr

namespace Shape

/-- The brackets that draw an outline. -/
def bracket : Shape → Bracket
  | rectangle => .square
  | diamond => .curly
  | rounded => .round

end Shape

/-- A token of a flowchart line. -/
inductive Token
  /-- An arrow, with its label if it has one. -/
  | arrow (spelling : Text)
  /-- A node under an identifier of the source's own. -/
  | reference (spelling : Text)
  /-- A node given by its label. -/
  | node (shape : Shape) (label : Text)
deriving DecidableEq, Repr

/-- What a line consists of. -/
inductive Piece
  /-- A blank between tokens. -/
  | blank (c : Char)
  /-- A character that begins no token. -/
  | stray (c : Char)
  /-- A token. -/
  | token (t : Token)
deriving DecidableEq, Repr

namespace Token

/-- Whether a token is an arrow. -/
def isArrow : Token → Bool
  | arrow _ => true
  | _ => false

-- =============================================================== spelling

/-- The label that stands between braces: the text there, trimmed, and
then without the double quotes around it. -/
def bracedLabel (inner : Text) : Text := Text.dropQuotes (Text.trim inner)

/-- How a token may be written. A diamond has many spellings, every other
token one. -/
inductive Spelled : Token → Text → Prop
  | arrow (s : Text) : Spelled (.arrow s) s
  | reference (s : Text) : Spelled (.reference s) s
  | rectangle (label : Text) :
      Spelled (.node .rectangle label) (['"'] ++ label ++ ['"'])
  | rounded (label : Text) :
      Spelled (.node .rounded label) (['(', '"'] ++ label ++ ['"', ')'])
  | diamond (inner : Text) :
      Spelled (.node .diamond (bracedLabel inner)) (['{'] ++ inner ++ ['}'])

-- ================================================================ reading

/-- The arrow that `s` begins with. -/
def arrow? (s : Text) : Option (Token × Text) :=
  (Arrow.read? s).map fun (a, rest) => (.arrow a.spelling, rest)

/-- The diamond that `s` begins with. -/
def diamond? : Text → Option (Token × Text)
  | '{' :: s =>
    (Text.cut? ['}'] s).map fun (inner, rest) =>
      (.node .diamond (bracedLabel inner), rest)
  | _ => none

/-- The rectangle that `s` begins with. -/
def rectangle? : Text → Option (Token × Text)
  | '"' :: s =>
    (Text.cut? ['"'] s).map fun (label, rest) => (.node .rectangle label, rest)
  | _ => none

/-- The rounded box that `s` begins with. -/
def rounded? : Text → Option (Token × Text)
  | '(' :: '"' :: s =>
    (Text.cut? ['"', ')'] s).map fun (label, rest) => (.node .rounded label, rest)
  | _ => none

/-- A label in brackets at the head of `s` as it is spelled, if there is
one, and the rest. -/
def outline (s : Text) : Text × Text :=
  match Bracket.anyLabel? s with
  | some (b, label, rest) => (b.enclose label, rest)
  | none => ([], s)

/-- The node of the source's own that `s` begins with: a letter or low
line, the rest of its word, and a label in brackets if one follows. -/
def reference? : Text → Option (Token × Text)
  | [] => none
  | c :: s =>
    if isAsciiLetter c || c == '_' then
      let o := outline (s.dropWhile isWordChar)
      some (.reference (c :: s.takeWhile isWordChar ++ o.1), o.2)
    else none

/-- The token that `s` begins with, and what follows it. -/
def read? (s : Text) : Option (Token × Text) :=
  arrow? s <|> diamond? s <|> rectangle? s <|> rounded? s <|> reference? s

theorem outline_append (s : Text) : (outline s).1 ++ (outline s).2 = s := by
  unfold outline
  split
  · next h => exact (Bracket.eq_enclose_of_anyLabel? h).symm
  · rfl

private theorem arrow?_spelled {s rest : Text} {t : Token}
    (h : arrow? s = some (t, rest)) :
    ∃ w, Spelled t w ∧ w ≠ [] ∧ s = w ++ rest := by
  obtain ⟨⟨a, r⟩, ha, heq⟩ := Option.map_eq_some_iff.1 h
  simp only [Prod.mk.injEq] at heq
  obtain ⟨rfl, rfl⟩ := heq
  exact ⟨_, .arrow _, Arrow.spelling_ne_nil_of_read? ha,
    Arrow.eq_spelling_of_read? ha⟩

private theorem diamond?_spelled {s rest : Text} {t : Token}
    (h : diamond? s = some (t, rest)) :
    ∃ w, Spelled t w ∧ w ≠ [] ∧ s = w ++ rest := by
  fun_cases diamond? s <;> simp only [diamond?, reduceCtorEq] at h
  obtain ⟨⟨inner, r⟩, hc, heq⟩ := Option.map_eq_some_iff.1 h
  simp only [Prod.mk.injEq] at heq
  obtain ⟨rfl, rfl⟩ := heq
  exact ⟨_, .diamond inner, by simp, by simp [Text.cut?_eq_some hc]⟩

private theorem rectangle?_spelled {s rest : Text} {t : Token}
    (h : rectangle? s = some (t, rest)) :
    ∃ w, Spelled t w ∧ w ≠ [] ∧ s = w ++ rest := by
  fun_cases rectangle? s <;> simp only [rectangle?, reduceCtorEq] at h
  obtain ⟨⟨label, r⟩, hc, heq⟩ := Option.map_eq_some_iff.1 h
  simp only [Prod.mk.injEq] at heq
  obtain ⟨rfl, rfl⟩ := heq
  exact ⟨_, .rectangle label, by simp, by simp [Text.cut?_eq_some hc]⟩

private theorem rounded?_spelled {s rest : Text} {t : Token}
    (h : rounded? s = some (t, rest)) :
    ∃ w, Spelled t w ∧ w ≠ [] ∧ s = w ++ rest := by
  fun_cases rounded? s <;> simp only [rounded?, reduceCtorEq] at h
  obtain ⟨⟨label, r⟩, hc, heq⟩ := Option.map_eq_some_iff.1 h
  simp only [Prod.mk.injEq] at heq
  obtain ⟨rfl, rfl⟩ := heq
  exact ⟨_, .rounded label, by simp, by simp [Text.cut?_eq_some hc]⟩

private theorem reference?_spelled {s rest : Text} {t : Token}
    (h : reference? s = some (t, rest)) :
    ∃ w, Spelled t w ∧ w ≠ [] ∧ s = w ++ rest := by
  cases s with
  | nil => simp [reference?] at h
  | cons c s =>
    simp only [reference?, Option.ite_none_right_eq_some, Option.some.injEq,
      Prod.mk.injEq] at h
    obtain ⟨-, rfl, rfl⟩ := h
    refine ⟨_, .reference _, by simp, ?_⟩
    rw [List.append_assoc, outline_append, List.cons_append,
      List.takeWhile_append_dropWhile]

/-- A token takes up one of its spellings, which is not empty. -/
theorem read?_spelled {s rest : Text} {t : Token}
    (h : read? s = some (t, rest)) :
    ∃ w, Spelled t w ∧ w ≠ [] ∧ s = w ++ rest := by
  simp only [read?, Option.orElse_eq_orElse, Option.orElse_eq_or,
    Option.or_eq_some_iff] at h
  rcases h with h | ⟨-, h | ⟨-, h | ⟨-, h | ⟨-, h⟩⟩⟩⟩
  · exact arrow?_spelled h
  · exact diamond?_spelled h
  · exact rectangle?_spelled h
  · exact rounded?_spelled h
  · exact reference?_spelled h

theorem length_lt_of_read? {s rest : Text} {t : Token}
    (h : read? s = some (t, rest)) : rest.length < s.length := by
  obtain ⟨w, -, hne, rfl⟩ := read?_spelled h
  have := List.length_pos_iff.2 hne
  simp
  omega

end Token

-- =============================================================== scanning

/-- Takes a line apart, from left to right; at each place the token that
begins there is taken, and a character that begins none is stray. -/
def scan : Text → List Piece
  | [] => []
  | c :: s =>
    if isBlank c then .blank c :: scan s
    else
      match _h : Token.read? (c :: s) with
      | some (t, rest) => .token t :: scan rest
      | none => .stray c :: scan s
termination_by s => s.length
decreasing_by
  · simp
  · exact Token.length_lt_of_read? ‹_›
  · simp

namespace Piece

/-- The token that a piece is. -/
def token? : Piece → Option Token
  | token t => some t
  | _ => none

/-- The stray character that a piece is. -/
def stray? : Piece → Option Char
  | stray c => some c
  | _ => none

end Piece

/-- The tokens of a line. -/
def tokens (line : Text) : List Token := (scan line).filterMap Piece.token?

/-- The characters of a line that are dropped. -/
def strays (line : Text) : Text := (scan line).filterMap Piece.stray?

end FreeLabel.Flow
