/-
Reading the markup in content: start tags with their attributes, end
tags, and whatever else a bracket begins. An attribute's value is looked
through as far as its quote and kept as it is spelled; what its
references stand for is found out later, when the whole tag is known to
be one.
-/
import FreeLabel.Markup.Scan

namespace FreeLabel.Markup

-- ====================================================== attribute values

/-- Looks through an attribute's value up to the quote that ends it. -/
def scanValue (quote : Char) : Text → Scan Unit
  | [] => .unfinished
  | c :: s =>
    if c = quote then .found () s
    else if c = '<' || !isXmlChar c then .invalid (c :: s)
    else if c = '&' then
      match _h : scanReference s with
      | .found _ rest => scanValue quote rest
      | .invalid place => .invalid place
      | _ => .unfinished
    else scanValue quote s
termination_by s => s.length
decreasing_by
  · exact length_lt_of_scanReference _h
  · simp

theorem scanValue_within (quote : Char) (s : Text) :
    (scanValue quote s).Within s.length := by
  fun_induction scanValue quote s with
  | case1 => trivial
  | case2 => simp [Scan.Within]
  | case3 => trivial
  | case4 s _ rest h _ _ ih =>
    exact ih.mono (Nat.le_of_lt (length_lt_of_scanReference h))
  | case5 => trivial
  | case6 => trivial
  | case7 c s _ _ _ ih => exact ih.mono (by simp)

-- ================================================================== tags

/-- An attribute as it is spelled. -/
structure RawAttribute where
  /-- Its name. -/
  name : RawName
  /-- The document from its name on. -/
  place : Text
  /-- Its value. -/
  value : Literal
deriving DecidableEq, Repr

/-- Reads the equals sign behind an attribute's name. -/
def scanEquals (s : Text) : Scan Unit :=
  match skipSpace s with
  | [] => .unfinished
  | '=' :: rest => .found () rest
  | rest => .invalid rest

theorem scanEquals_within (s : Text) : (scanEquals s).Within s.length := by
  have hs := length_skipSpace_le s
  unfold scanEquals
  split
  · trivial
  · next h =>
    rw [h] at hs
    simp [Scan.Within] at hs ⊢
    omega
  · trivial

/-- Reads an attribute's value between its quotes. No reference in it
holds a quote, so the first one ends it. -/
def scanQuoted (s : Text) : Scan Literal :=
  match skipSpace s with
  | [] => .unfinished
  | c :: rest =>
    if c = '"' || c = '\'' then
      (scanValue c rest).map fun _ =>
        { body := rest.takeWhile (· ≠ c), behind := rest.dropWhile (· ≠ c) }
    else .invalid (c :: rest)

theorem scanQuoted_within (s : Text) : (scanQuoted s).Within s.length := by
  have hs := length_skipSpace_le s
  unfold scanQuoted
  split
  · trivial
  · next c rest h =>
    rw [h] at hs
    split
    · exact ((scanValue_within _ _).mono (by simp at hs; omega)).map
    · trivial

/-- Reads an attribute. -/
def scanAttribute (s : Text) : Scan RawAttribute :=
  (scanName s).andThen fun name rest =>
    (scanEquals rest).andThen fun _ rest =>
      (scanQuoted rest).map fun value => { name := name, place := s, value := value }

theorem scanAttribute_within (s : Text) : (scanAttribute s).Within s.length :=
  (scanName_within s).andThen fun _ rest h =>
    ((scanEquals_within rest).mono h).andThen fun _ rest h =>
      ((scanQuoted_within rest).mono h).map

/-- Reads the end of a start tag, and whether the tag is the whole
element. -/
def scanTagEnd : Text → Scan Bool
  | [] => .unfinished
  | '>' :: s => .found false s
  | '/' :: '>' :: s => .found true s
  | ['/'] => .unfinished
  | '/' :: s => .invalid s
  | s => .invalid s

theorem scanTagEnd_within (s : Text) : (scanTagEnd s).Within s.length := by
  fun_cases scanTagEnd s <;> simp [Scan.Within]
  omega

/-- Reads the attributes of a start tag and its end. Space stands before
each attribute. -/
def scanAttributes (s : Text) : Scan (List RawAttribute × Bool) :=
  match _hs : s with
  | [] => .unfinished
  | c :: s =>
    if isXmlSpace c && (skipSpace s).head?.any isNameStart then
      match _h : scanAttribute (skipSpace s) with
      | .found a rest =>
        (scanAttributes rest).map fun (more, isWhole) => (a :: more, isWhole)
      | .invalid place => .invalid place
      | _ => .unfinished
    else (scanTagEnd (skipSpace (c :: s))).map fun isWhole => ([], isWhole)
termination_by s.length
decreasing_by
  have h₁ := scanAttribute_within (skipSpace s)
  rw [_h] at h₁
  have h₂ := length_skipSpace_le s
  simp [Scan.Within] at h₁ ⊢
  omega

theorem scanAttributes_within (s : Text) : (scanAttributes s).Within s.length := by
  fun_induction scanAttributes s with
  | case1 => trivial
  | case2 c s _ a rest h ih =>
    have h₁ := scanAttribute_within (skipSpace s)
    rw [h] at h₁
    have h₂ := length_skipSpace_le s
    exact (ih.mono (by simp [Scan.Within] at h₁ ⊢; omega)).map
  | case3 => trivial
  | case4 => trivial
  | case5 c s _ =>
    exact ((scanTagEnd_within _).mono (length_skipSpace_le _)).map

/-- A start tag as it is spelled. -/
structure RawTag where
  /-- The name of the element. -/
  name : RawName
  /-- Its attributes, in order. -/
  attrs : List RawAttribute
  /-- Whether the tag is the whole element. -/
  isWhole : Bool

/-- Reads a start tag behind its bracket. -/
def scanStartTag (s : Text) : Scan RawTag :=
  (scanName s).andThen fun name rest =>
    (scanAttributes rest).map fun (attrs, isWhole) =>
      { name := name, attrs := attrs, isWhole := isWhole }

theorem scanStartTag_within (s : Text) : (scanStartTag s).Within s.length :=
  (scanName_within s).andThen fun _ rest h =>
    ((scanAttributes_within rest).mono h).map

/-- Reads an end tag behind its bracket and slash: the spelling of its
name, with any colons in it. -/
def scanEndTag : Text → Scan Text
  | [] => .unfinished
  | c :: s =>
    if isNameStart c then
      let inName (c : Char) := isNameChar c || c == ':'
      match skipSpace (s.dropWhile inName) with
      | [] => .unfinished
      | '>' :: rest => .found (c :: s.takeWhile inName) rest
      | rest => .invalid rest
    else .invalid (c :: s)

theorem scanEndTag_within (s : Text) : (scanEndTag s).Within s.length := by
  fun_cases scanEndTag s
  · trivial
  · trivial
  · next c s _ inName rest h =>
    have h₁ := length_skipSpace_le (s.dropWhile inName)
    have h₂ := length_dropWhile_le inName s
    rw [h] at h₁
    simp [Scan.Within] at h₁ ⊢
    omega
  · trivial
  · trivial

-- ====================================================== markup in content

/-- What a bracket in content begins. -/
inductive Bracketed
  /-- A comment. -/
  | comment
  /-- An instruction with a target. -/
  | instruction (target : Text)
  /-- A section of character data. -/
  | characters (t : Text)
  /-- An end tag, with the spelling of its name and the document from
  the name on. -/
  | endTag (spelling place : Text)
  /-- A start tag. -/
  | startTag (tag : RawTag)

/-- Reads what a bracket in content begins. -/
def scanBracketed (source : Source) : Text → Scan Bracketed
  | [] => .unfinished
  | ['!'] => .unfinished
  | '!' :: '-' :: s =>
    (scanExactly ['-'] s).andThen fun _ rest => (scanComment rest).map fun _ => .comment
  | '!' :: '[' :: s => (scanSection source s).map .characters
  | '!' :: s => .invalid s
  | '?' :: s => (scanInstruction s).map fun i => .instruction i.1
  | '/' :: s => (scanEndTag s).map (.endTag · s)
  | s => (scanStartTag s).map .startTag

theorem scanBracketed_within (source : Source) (s : Text) :
    (scanBracketed source s).Within s.length := by
  fun_cases scanBracketed source s
  · trivial
  · trivial
  · next s =>
    exact ((scanExactly_within _ s).andThen fun _ rest h =>
      ((scanComment_within rest).mono h).map).mono (by simp; omega)
  · exact ((scanSection_within _ _).mono (by simp; omega)).map
  · trivial
  · exact ((scanInstruction_within _).mono (by simp)).map
  · exact ((scanEndTag_within _).mono (by simp)).map
  · exact (scanStartTag_within _).map

end FreeLabel.Markup
