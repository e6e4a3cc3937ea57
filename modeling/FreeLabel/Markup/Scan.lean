/-
Reading the parts of a document: names, references, comments,
instructions and sections of character data. Each reader starts at the
head of a text and yields what it found and the rest, or the place of a
character that cannot stand there, or nothing because the text ends too
soon.

`Scan.Within n` says of an outcome that its rest has at most `n`
characters; that every reader keeps within its text is what bounds the
readers of whole documents.
-/
import FreeLabel.Markup.Chars
import FreeLabel.Markup.Document

namespace FreeLabel.Markup

-- ============================================================== outcomes

/-- The outcome of reading a part of a document. -/
inductive Scan (α : Type)
  /-- The part, and what follows it. -/
  | found (a : α) (rest : Text)
  /-- A character cannot stand where it does. -/
  | invalid (place : Text)
  /-- The text ends within the part. -/
  | unfinished
  /-- The text ends within a section of character data. -/
  | unclosedSection (place : Text)
deriving DecidableEq, Repr

namespace Scan

/-- Reads on behind a part. -/
def andThen (x : Scan α) (f : α → Text → Scan β) : Scan β :=
  match x with
  | found a rest => f a rest
  | invalid place => invalid place
  | unfinished => unfinished
  | unclosedSection place => unclosedSection place

/-- Makes something else of a part. -/
def map (f : α → β) (x : Scan α) : Scan β :=
  x.andThen fun a rest => found (f a) rest

/-- Whether the rest, if a part was found, has at most `n` characters. -/
def Within (n : Nat) : Scan α → Prop
  | found _ rest => rest.length ≤ n
  | _ => True

theorem Within.andThen {n : Nat} {x : Scan α} {f : α → Text → Scan β}
    (hx : x.Within n) (hf : ∀ a rest, rest.length ≤ n → (f a rest).Within n) :
    (x.andThen f).Within n := by
  cases x with
  | found a rest => exact hf a rest hx
  | _ => trivial

theorem Within.map {n : Nat} {x : Scan α} {f : α → β} (hx : x.Within n) :
    (x.map f).Within n :=
  hx.andThen fun _ _ h => h

theorem Within.mono {m n : Nat} {x : Scan α} (hx : x.Within m) (h : m ≤ n) :
    x.Within n := by
  cases x with
  | found a rest => exact Nat.le_trans hx h
  | _ => trivial

end Scan

theorem length_dropWhile_le (p : Char → Bool) (s : Text) :
    (s.dropWhile p).length ≤ s.length :=
  (List.dropWhile_sublist p).length_le

/-- A text without the separators that it begins with. -/
def skipSpace (s : Text) : Text := s.dropWhile isXmlSpace

theorem length_skipSpace_le (s : Text) : (skipSpace s).length ≤ s.length :=
  length_dropWhile_le _ s

-- ================================================================= names

/-- Reads a name without a colon. -/
def scanWord : Text → Scan Text
  | [] => .unfinished
  | c :: s =>
    if isNameStart c then .found (c :: s.takeWhile isNameChar) (s.dropWhile isNameChar)
    else .invalid (c :: s)

theorem scanWord_within (s : Text) : (scanWord s).Within s.length := by
  fun_cases scanWord s
  · trivial
  · next c s h =>
    have := length_dropWhile_le isNameChar s
    simp [Scan.Within]
    omega
  · trivial

/-- A name as it is spelled in a tag: a word, with a prefix or without. -/
structure RawName where
  /-- What stands before the colon. -/
  pre : Option Text
  /-- The word. -/
  base : Text
deriving DecidableEq, Repr

/-- The spelling of a name. -/
def RawName.spelling (n : RawName) : Text :=
  match n.pre with
  | none => n.base
  | some pre => pre ++ [':'] ++ n.base

/-- The name of a spelling. -/
def RawName.ofSpelling (t : Text) : RawName :=
  match t.dropWhile (· ≠ ':') with
  | ':' :: base => { pre := some (t.takeWhile (· ≠ ':')), base := base }
  | _ => { pre := none, base := t }

/-- Reads a name with at most one colon in it. -/
def scanName (s : Text) : Scan RawName :=
  (scanWord s).andThen fun first rest =>
    match rest with
    | ':' :: rest =>
      (scanWord rest).andThen fun base rest =>
        match rest with
        | ':' :: _ => .invalid rest
        | _ => .found { pre := some first, base := base } rest
    | _ => .found { pre := none, base := first } rest

theorem scanName_within (s : Text) : (scanName s).Within s.length := by
  refine (scanWord_within s).andThen fun first rest h => ?_
  split
  · next rest =>
    refine ((scanWord_within rest).mono (by simp at h; omega)).andThen
      fun base rest h => ?_
    split
    · trivial
    · exact h
  · exact h

-- ============================================================ references

/-- What a reference refers to. -/
inductive Reference
  /-- A character by its number, if it may occur in a document. -/
  | char (c : Option Char)
  /-- An entity by its name. -/
  | entity (name : Text)
deriving DecidableEq, Repr

/-- The characters that every document may name. -/
def namedChar? (name : Text) : Option Char :=
  [("lt".toList, '<'), ("gt".toList, '>'), ("amp".toList, '&'), ("quot".toList, '"'),
    ("apos".toList, '\'')].lookup name

/-- The value of a digit. -/
def digitValue (c : Char) : Nat :=
  if c.isDigit then c.toNat - '0'.toNat else c.toLower.toNat - 'a'.toNat + 10

/-- Whether a character is a hexadecimal digit. -/
def isHexDigit (c : Char) : Bool :=
  c.isDigit || ('a' ≤ c && c ≤ 'f') || ('A' ≤ c && c ≤ 'F')

/-- Reads the end of a reference. -/
def scanSemicolon (a : α) : Text → Scan α
  | [] => .unfinished
  | ';' :: s => .found a s
  | s => .invalid s

theorem scanSemicolon_within (a : α) (s : Text) :
    (scanSemicolon a s).Within s.length := by
  fun_cases scanSemicolon a s <;> simp [Scan.Within]

/-- Reads a number in a base and the end of the reference that it stands
in. -/
def scanNumber (base : Nat) (isDigit : Char → Bool) : Text → Scan Reference
  | [] => .unfinished
  | c :: s =>
    if isDigit c then
      let digits := c :: s.takeWhile isDigit
      let n := digits.foldl (fun n c => base * n + digitValue c) 0
      scanSemicolon (.char (xmlChar? n)) (s.dropWhile isDigit)
    else .invalid (c :: s)

theorem scanNumber_within (base : Nat) (isDigit : Char → Bool) (s : Text) :
    (scanNumber base isDigit s).Within s.length := by
  fun_cases scanNumber base isDigit s
  · trivial
  · next c s h digits n =>
    have := length_dropWhile_le isDigit s
    exact (scanSemicolon_within _ _).mono (by simp; omega)
  · trivial

/-- Reads what follows the ampersand of a reference. -/
def scanReference : Text → Scan Reference
  | '#' :: 'x' :: s => scanNumber 16 isHexDigit s
  | '#' :: s => scanNumber 10 Char.isDigit s
  | s => (scanWord s).andThen fun name rest => scanSemicolon (.entity name) rest

theorem scanReference_within (s : Text) : (scanReference s).Within s.length := by
  fun_cases scanReference s
  · exact (scanNumber_within _ _ _).mono (by simp; omega)
  · exact (scanNumber_within _ _ _).mono (by simp)
  · exact (scanWord_within _).andThen fun name rest h =>
      (scanSemicolon_within _ _).mono h

/-- A reference takes up at least what it begins with. -/
theorem length_lt_of_scanReference {c : Char} {s rest : Text} {r : Reference}
    (h : scanReference s = .found r rest) : rest.length < (c :: s).length := by
  have := scanReference_within s
  rw [h] at this
  simp [Scan.Within] at this ⊢
  omega

/-- What a percent sign is. -/
inductive Percent
  /-- The sign alone. -/
  | sign
  /-- The beginning of a reference to a parameter entity. -/
  | reference
deriving DecidableEq, Repr

/-- Reads what follows a percent sign. -/
def scanPercent : Text → Scan Percent
  | [] => .unfinished
  | c :: s =>
    if isXmlSpace c || c = '%' then .found .sign (c :: s)
    else (scanWord (c :: s)).andThen fun _ rest => scanSemicolon .reference rest

theorem scanPercent_within (s : Text) : (scanPercent s).Within s.length := by
  fun_cases scanPercent s
  · trivial
  · simp [Scan.Within]
  · exact (scanWord_within _).andThen fun _ _ h => (scanSemicolon_within _ _).mono h

-- ============================================================== literals

/-- A text between quotes. -/
structure Literal where
  /-- The text. -/
  body : Text
  /-- The document from the quote behind it on. -/
  behind : Text
deriving DecidableEq, Repr

-- ==================================== comments, instructions and sections

/-- Reads a comment behind its two dashes. Two dashes end it. -/
def scanComment : Text → Scan Unit
  | [] => .unfinished
  | '-' :: '-' :: s =>
    match s with
    | [] => .unfinished
    | '>' :: rest => .found () rest
    | _ => .invalid s
  | c :: s => if isXmlChar c then scanComment s else .invalid (c :: s)

theorem scanComment_within (s : Text) : (scanComment s).Within s.length := by
  fun_induction scanComment s with
  | case1 => trivial
  | case2 => trivial
  | case3 => simp [Scan.Within]; omega
  | case4 => trivial
  | case5 c s _ _ ih => exact ih.mono (by simp)
  | case6 => trivial

/-- Reads text up to the end of an instruction. -/
def scanInstructionText : Text → Scan Text
  | [] => .unfinished
  | '?' :: '>' :: s => .found [] s
  | c :: s =>
    if isXmlChar c then (scanInstructionText s).map (c :: ·) else .invalid (c :: s)

theorem scanInstructionText_within (s : Text) :
    (scanInstructionText s).Within s.length := by
  fun_induction scanInstructionText s with
  | case1 => trivial
  | case2 => simp [Scan.Within]; omega
  | case3 c s _ _ ih => exact (ih.mono (by simp)).map
  | case4 => trivial

/-- The target of the declaration of a document. -/
def declarationTarget : Text := "xml".toList

/-- Reads an instruction behind its question mark: its target and its
text. The target of declarations may not be spelled otherwise. -/
def scanInstruction (s : Text) : Scan (Text × Text) :=
  (scanWord s).andThen fun target rest =>
    if target ≠ declarationTarget ∧ target.map Char.toLower = declarationTarget ∧
        rest ≠ [] then
      .invalid rest
    else
      match rest with
      | [] => .unfinished
      | ['?'] => .unfinished
      | '?' :: '>' :: rest => .found (target, []) rest
      | '?' :: rest => .invalid rest
      | c :: _ =>
        if isXmlSpace c then (scanInstructionText rest).map (target, ·)
        else .invalid rest

theorem scanInstruction_within (s : Text) : (scanInstruction s).Within s.length := by
  refine (scanWord_within s).andThen fun target rest h => ?_
  split
  · trivial
  · split
    · trivial
    · trivial
    · simp [Scan.Within] at h ⊢
      omega
    · trivial
    · split
      · exact ((scanInstructionText_within _).mono h).map
      · trivial

/-- Reads the text of a section of character data up to its end. -/
def scanSectionText (hasReturns : Bool) : Text → Scan Text
  | ']' :: ']' :: '>' :: s => .found [] s
  | [] => .unclosedSection []
  | c :: s =>
    if s = [] ∧ (c = ']' ∨ c = '\r') ∨ c = ']' ∧ s = [']'] then
      .unclosedSection (c :: s)
    else if !isXmlChar c then .invalid (c :: s)
    else if c = '\r' && hasReturns then
      (scanSectionText hasReturns (dropLineFeed s)).map ('\n' :: ·)
    else (scanSectionText hasReturns s).map (c :: ·)
termination_by s => s.length
decreasing_by
  · exact Nat.lt_succ_of_le (length_dropLineFeed_le s)
  · simp

theorem scanSectionText_within (hasReturns : Bool) (s : Text) :
    (scanSectionText hasReturns s).Within s.length := by
  fun_induction scanSectionText hasReturns s with
  | case1 => simp [Scan.Within]; omega
  | case2 => trivial
  | case3 => trivial
  | case4 => trivial
  | case5 c s _ _ _ _ ih =>
    exact (ih.mono (Nat.le_succ_of_le (length_dropLineFeed_le s))).map
  | case6 c s _ _ _ _ ih => exact (ih.mono (by simp)).map

/-- Reads `word`, or the place of the first character that differs. -/
def scanExactly : Text → Text → Scan Unit
  | [], s => .found () s
  | _ :: _, [] => .unfinished
  | w :: word, c :: s => if w = c then scanExactly word s else .invalid (c :: s)

theorem scanExactly_within (word s : Text) : (scanExactly word s).Within s.length := by
  fun_induction scanExactly word s with
  | case1 => simp [Scan.Within]
  | case2 => trivial
  | case3 _ _ _ ih => exact ih.mono (by simp)
  | case4 => trivial

/-- What opens a section of character data behind its first bracket. -/
def sectionWord : Text := "CDATA[".toList

/-- Reads a section of character data behind its first bracket. What
opens it is looked at only if as many units follow as it has. -/
def scanSection (source : Source) (s : Text) : Scan Text :=
  let head := s.take sectionWord.length
  let size := head.foldl (fun n c => n + source.encoding.units c) 0
  if size < sectionWord.length then .unfinished
  else (scanExactly sectionWord s).andThen fun _ rest =>
    scanSectionText source.hasReturns rest

theorem scanSection_within (source : Source) (s : Text) :
    (scanSection source s).Within s.length := by
  simp only [scanSection]
  split
  · trivial
  · exact (scanExactly_within _ _).andThen fun _ rest h =>
      (scanSectionText_within _ rest).mono h

end FreeLabel.Markup
