/-
The tokens of what stands around the element of a document. Text that is
no part of a declaration is taken apart into tokens all the same, because
a character that ends no token is reported where it stands, and a token
that may not stand where it does is reported where it begins.
-/
import FreeLabel.Markup.Scan
import FreeLabel.Text.Word

namespace FreeLabel.Markup

/-- A token of a prolog. -/
inductive PrologToken
  /-- Space. -/
  | space
  /-- A comment. -/
  | comment
  /-- An instruction: its target, its text, and what begins there. -/
  | instruction (target body place : Text)
  /-- The opening of a declaration of some kind. -/
  | declaration (kind : Text)
  /-- A name without a colon. -/
  | word (w : Text)
  /-- A name with a colon. -/
  | qualified (w : Text)
  /-- A word that is no name. -/
  | loose
  /-- A name with a mark of repetition. -/
  | repeated
  /-- A word behind a number sign. -/
  | keyword (w : Text)
  /-- A text between quotes. -/
  | literal (l : Literal)
  /-- A percent sign. -/
  | percent
  /-- A reference to a parameter entity. -/
  | parameterEntity
  /-- The bracket that opens an internal subset. -/
  | openBracket
  /-- The bracket that closes an internal subset. -/
  | closeBracket
  /-- The bracket that ends a declaration. -/
  | close
  /-- The parenthesis that opens a group. -/
  | openGroup
  /-- The parenthesis that closes a group, with the mark of repetition
  behind it. -/
  | closeGroup (mark : Option Char)
  /-- A comma. -/
  | comma
  /-- A bar. -/
  | bar
  /-- A token that only stands in subsets that are elsewhere. -/
  | other
deriving DecidableEq, Repr

/-- Whether a token goes on to the end of the document if nothing ends it
before. -/
def PrologToken.isOpenEnded : PrologToken → Bool
  | .word _ | .qualified _ | .loose | .keyword _ | .literal _ => true
  | .closeBracket | .closeGroup none => true
  | _ => false

/-- Whether a character may follow a literal. -/
def endsLiteral (c : Char) : Bool :=
  isXmlSpace c || c == '>' || c == '%' || c == '['

/-- Reads a text up to its closing quote, and looks at what follows. -/
def scanLiteral (quote : Char) (s : Text) : Scan PrologToken :=
  let inside (c : Char) : Bool := c != quote && isXmlChar c
  match s.dropWhile inside with
  | [] => .unfinished
  | c :: rest =>
    if c ≠ quote then .invalid (c :: rest)
    else if rest.head?.all endsLiteral then
      .found (.literal { body := s.takeWhile inside, behind := c :: rest }) rest
    else .invalid rest

/-- What may follow a word in a declaration. -/
def endsWord (c : Char) : Bool :=
  isXmlSpace c || c == '>' || c == ')' || c == ',' || c == '|' || c == '[' || c == '%'

/-- Reads to the end of a word of which `read` has been read, latest
character first. A word that is a name may have one colon with a name
behind it; a mark of repetition ends it. -/
def scanWordEnd (isName hasColon : Bool) (read : Text) : Text → Scan PrologToken
  | [] => .found (ended isName hasColon read) []
  | c :: s =>
    if isNameChar c then scanWordEnd isName hasColon (c :: read) s
    else if endsWord c then .found (ended isName hasColon read) (c :: s)
    else if c = ':' then
      if isName && !hasColon then
        match s with
        | [] => .unfinished
        | d :: _ => scanWordEnd (isNameChar d) true (c :: read) s
      else scanWordEnd false hasColon (c :: read) s
    else if (c = '+' || c = '*' || c = '?') && isName then .found .repeated s
    else .invalid (c :: s)
where
  /-- The token that a word is. -/
  ended (isName hasColon : Bool) (read : Text) : PrologToken :=
    if !isName then .loose
    else if hasColon then .qualified read.reverse
    else .word read.reverse

/-- Reads what follows a number sign. -/
def scanNumberSign (s : Text) : Scan PrologToken :=
  (scanWord s).andThen fun w rest =>
    match rest with
    | [] => .found (.keyword w) []
    | c :: _ =>
      if isXmlSpace c || c = ')' || c = '>' || c = '%' || c = '|' then
        .found (.keyword w) rest
      else .invalid rest

/-- Whether a character may stand in the word that opens a declaration. It
is a character of names that is a single unit with no more than a byte of
it used. -/
def isKindChar (e : Encoding) (c : Char) : Bool :=
  isNameStart c && (c.toNat < 0x80 || e = .utf16 && c.toNat < 0x100)

/-- Reads the opening of a declaration behind its exclamation mark. -/
def scanDeclaration (e : Encoding) : Text → Scan PrologToken
  | [] => .unfinished
  | '-' :: s =>
    (scanExactly ['-'] s).andThen fun _ rest => (scanComment rest).map fun _ => .comment
  | '[' :: s => .found .other s
  | s =>
    match s.dropWhile (isKindChar e) with
    | [] => .unfinished
    | c :: rest =>
      if (s.takeWhile (isKindChar e)).isEmpty then .invalid (c :: rest)
      else if isXmlSpace c then
        .found (.declaration (s.takeWhile (isKindChar e))) (c :: rest)
      else if c = '%' then
        match rest with
        | [] => .unfinished
        | d :: _ =>
          if isXmlSpace d || d = '%' then .invalid (c :: rest)
          else .found (.declaration (s.takeWhile (isKindChar e))) (c :: rest)
      else .invalid (c :: rest)

/-- Reads what follows a closing parenthesis. -/
def scanGroupEnd : Text → Scan PrologToken
  | [] => .found (.closeGroup none) []
  | c :: s =>
    if c = '*' || c = '+' || c = '?' then .found (.closeGroup (some c)) s
    else if isXmlSpace c || c = '>' || c = ',' || c = '|' || c = ')' then
      .found (.closeGroup none) (c :: s)
    else .invalid (c :: s)

/-- The token that a character is by itself. -/
def ownToken? : Char → Option PrologToken
  | '>' => some .close
  | '[' => some .openBracket
  | ']' => some .closeBracket
  | '(' => some .openGroup
  | ',' => some .comma
  | '|' => some .bar
  | _ => none

/-- Reads a token of a prolog. A bracket that begins an element is left to
the reader of tags. -/
def scanProlog (e : Encoding) : Text → Scan PrologToken
  | [] => .unfinished
  | ['<'] => .unfinished
  | '<' :: '!' :: s => scanDeclaration e s
  | '<' :: '?' :: s =>
    (scanInstruction s).map fun (target, body) => .instruction target body s
  | '<' :: s => .invalid s
  | '"' :: s => scanLiteral '"' s
  | '\'' :: s => scanLiteral '\'' s
  | '%' :: s =>
    (scanPercent s).map fun
      | .sign => .percent
      | .reference => .parameterEntity
  | '#' :: s => scanNumberSign s
  | ')' :: s => scanGroupEnd s
  | [']', ']'] => .unfinished
  | ']' :: ']' :: '>' :: s => .found .other s
  | c :: s =>
    match ownToken? c with
    | some t => .found t s
    | none =>
      if isXmlSpace c then .found .space (skipSpace s)
      else if isNameStart c then scanWordEnd true false [c] s
      else if isNameChar c || c = ':' then scanWordEnd false false [c] s
      else .invalid (c :: s)

private theorem scanLiteral_within (quote : Char) (s : Text) :
    (scanLiteral quote s).Within s.length := by
  have hs := length_dropWhile_le (fun c => c != quote && isXmlChar c) s
  simp only [scanLiteral]
  split
  · trivial
  · next c rest h =>
    rw [h] at hs
    split
    · trivial
    · split
      · exact Nat.le_of_succ_le hs
      · trivial

private theorem scanWordEnd_within (isName hasColon : Bool) (read s : Text) :
    (scanWordEnd isName hasColon read s).Within s.length := by
  fun_induction scanWordEnd isName hasColon read s with
  | case1 => simp [Scan.Within]
  | case2 _ _ _ _ _ _ ih => exact ih.mono (by simp)
  | case3 => simp [Scan.Within]
  | case4 => trivial
  | case5 => next ih => exact ih.mono (by simp)
  | case6 => next ih => exact ih.mono (by simp)
  | case7 => simp [Scan.Within]
  | case8 => trivial

private theorem scanNumberSign_within (s : Text) :
    (scanNumberSign s).Within s.length := by
  refine (scanWord_within s).andThen fun _ rest h => ?_
  split
  · simp [Scan.Within]
  · split
    · exact h
    · trivial

private theorem scanDeclaration_within (e : Encoding) (s : Text) :
    (scanDeclaration e s).Within s.length := by
  have hs := length_dropWhile_le (isKindChar e) s
  fun_cases scanDeclaration e s
  · trivial
  · next s =>
    exact ((scanExactly_within _ s).andThen fun _ rest h =>
      ((scanComment_within rest).mono h).map).mono (by simp)
  · simp [Scan.Within]
  all_goals first | trivial | (simp_all only [Scan.Within])

private theorem scanGroupEnd_within (s : Text) : (scanGroupEnd s).Within s.length := by
  fun_cases scanGroupEnd s <;> simp [Scan.Within]

/-- A token takes up at least one character. -/
theorem scanProlog_within (e : Encoding) (s : Text) :
    (scanProlog e s).Within (s.length - 1) := by
  fun_cases scanProlog e s
  · trivial
  · trivial
  · exact (scanDeclaration_within _ _).mono (by simp)
  · exact ((scanInstruction_within _).mono (by simp)).map
  · trivial
  · exact scanLiteral_within _ _
  · exact scanLiteral_within _ _
  · exact (scanPercent_within _).map
  · exact scanNumberSign_within _
  · exact scanGroupEnd_within _
  · trivial
  · simp only [Scan.Within, List.length_cons]
    omega
  · exact Nat.le_refl _
  · exact length_skipSpace_le _
  · exact scanWordEnd_within _ _ _ _
  · exact scanWordEnd_within _ _ _ _
  · trivial

theorem length_lt_of_scanProlog {e : Encoding} {c : Char} {s rest : Text}
    {t : PrologToken} (h : scanProlog e (c :: s) = .found t rest) :
    rest.length < (c :: s).length := by
  have := scanProlog_within e (c :: s)
  rw [h] at this
  simp [Scan.Within] at this ⊢
  omega

/-- Whether a text begins with the tag of an element. A character behind
the bracket that takes more than a byte is taken for the beginning of its
name, even if it turns out to be none. -/
def startsElement (e : Encoding) : Text → Bool
  | '<' :: c :: _ =>
    isNameStart c || match e with
      | .utf8 => 0x80 ≤ c.toNat
      | .utf16 => 0x100 ≤ c.toNat && isXmlChar c
  | _ => false

end FreeLabel.Markup
