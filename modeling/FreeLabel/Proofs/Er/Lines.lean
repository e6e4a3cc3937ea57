/-
What a pass reads in the lines of a document: each line is classified as
what it was written for, and taken apart into what it was put together
of.

Three kinds of line are told apart by a character. A declaration and a
statement of the direction consist of blanks and of letters of their own
words (`isStatementChar`), so a line with any other character is neither.
What is left is where a line is cut: at commas outside quotes
(`fields_line`), at the first operator (`Cardinality.find?_append`), at the
first colon. None of these stands in a name, and an operator holds no
space, so that it cannot begin in the name before it either.
-/
import FreeLabel.Proofs.Er.Document
import FreeLabel.Proofs.Er.Fields
import FreeLabel.Proofs.Er.Operators

namespace FreeLabel.Er

open Text (trim unquoted)

-- ============================================================= phrases

namespace Phrase

variable {kind : Char → Bool} (p : Phrase kind)

theorem not_mem {c : Char} (hc : kind c = false) : c ∉ p.text := by
  intro hmem
  have := (p.chars c hmem).2
  rw [hc] at this
  cases this

theorem isBlank_getLast : ∀ c ∈ p.text.getLast?, isBlank c = false :=
  (Text.trim_eq_self_iff.1 p.trimmed).2

end Phrase

-- =========================================================== statements

/-- The letters of declarations and of statements of the direction. -/
def statementLetters : Text :=
  ("erdiagram".toList ++ "direction".toList) ++ "tdblr".toList

/-- Whether a character may stand in a declaration of the diagram or in a
statement of the direction. -/
def isStatementChar (c : Char) : Bool :=
  isBlank c || statementLetters.contains (foldCase c)

theorem mem_of_afterAnyCase? {word s rest : Text}
    (h : Text.afterAnyCase? word s = some rest) {c : Char} (hc : c ∈ s) :
    foldCase c ∈ word ∨ c ∈ rest := by
  obtain ⟨read, rfl, rfl⟩ := Text.afterAnyCase?_eq_some_iff.1 h
  rcases List.mem_append.1 hc with hc | hc
  · exact .inl (List.mem_map.2 ⟨c, hc, rfl⟩)
  · exact .inr hc

theorem mem_of_afterBlanks? {s rest : Text} (h : Text.afterBlanks? s = some rest)
    {c : Char} (hc : c ∈ s) : isBlank c = true ∨ c ∈ rest := by
  cases s with
  | nil => cases h
  | cons d s =>
      rw [Text.afterBlanks?] at h
      split at h
      next hd =>
        cases h
        rcases List.mem_cons.1 hc with rfl | hc
        · exact .inl hd
        · rw [← Text.indent_append s] at hc
          rcases List.mem_append.1 hc with hc | hc
          · exact .inl (List.all_eq_true.1 List.all_takeWhile c hc)
          · exact .inr hc
      next => cases h

theorem mem_of_ofName? {s : Text} {d : Direction} (h : Direction.ofName? s = some d)
    {c : Char} (hc : c ∈ s) : foldCase c ∈ "tdblr".toList := by
  have hletters : ∀ d : Direction, ∀ c ∈ d.smallName, c ∈ "tdblr".toList := by
    intro d
    cases d <;> exact Text.forall_mem_of_all (by decide)
  unfold Direction.ofName? Direction.read? at h
  split at h
  next d' hread =>
    cases h
    obtain ⟨e, -, he⟩ := List.exists_of_findSome?_eq_some hread
    obtain ⟨rest, hrest, heq⟩ := Option.map_eq_some_iff.1 he
    cases heq
    exact hletters _ _ ((mem_of_afterAnyCase? hrest hc).resolve_right (by simp))
  next => cases h

theorem not_mem_of_isStatementChar {c : Char} (h : isStatementChar c = false) :
    isBlank c = false
      ∧ (foldCase c ∉ "erdiagram".toList ∧ foldCase c ∉ "direction".toList)
      ∧ foldCase c ∉ "tdblr".toList := by
  rw [isStatementChar, Bool.or_eq_false_iff] at h
  have hword : foldCase c ∉ statementLetters := by
    intro hmem
    have hcontains := List.contains_iff_mem.2 hmem
    rw [h.2] at hcontains
    cases hcontains
  refine ⟨h.1, ⟨?_, ?_⟩, ?_⟩
  · exact fun hmem => hword (List.mem_append_left _ (List.mem_append_left _ hmem))
  · exact fun hmem => hword (List.mem_append_left _ (List.mem_append_right _ hmem))
  · exact fun hmem => hword (List.mem_append_right _ hmem)

/-- A line with a character that is in no statement declares nothing. -/
theorem declaration?_eq_none {t : Text} {c : Char} (hc : c ∈ t)
    (hkind : isStatementChar c = false) : declaration? t = none := by
  obtain ⟨hblank, hword, hletter⟩ := not_mem_of_isStatementChar hkind
  cases h : declaration? t with
  | none => rfl
  | some d =>
      unfold declaration? at h
      obtain ⟨rest, hrest, h⟩ := Option.bind_eq_some_iff.1 h
      have hmem := (mem_of_afterAnyCase? hrest hc).resolve_left hword.1
      split at h
      next => cases hmem
      next =>
        obtain ⟨name, hname, h⟩ := Option.bind_eq_some_iff.1 h
        obtain ⟨direction, hdirection, -⟩ := Option.map_eq_some_iff.1 h
        have hmem := (mem_of_afterBlanks? hname hmem).resolve_left (by simp [hblank])
        exact absurd (mem_of_ofName? hdirection hmem) hletter

/-- A line with a character that is in no statement states no direction. -/
theorem directionStatement?_eq_none {t : Text} {c : Char} (hc : c ∈ t)
    (hkind : isStatementChar c = false) : directionStatement? t = none := by
  obtain ⟨hblank, hword, hletter⟩ := not_mem_of_isStatementChar hkind
  cases h : directionStatement? t with
  | none => rfl
  | some d =>
      unfold directionStatement? at h
      obtain ⟨rest, hrest, h⟩ := Option.bind_eq_some_iff.1 h
      have hmem := (mem_of_afterAnyCase? hrest hc).resolve_left hword.2
      obtain ⟨name, hname, h⟩ := Option.bind_eq_some_iff.1 h
      have hmem := (mem_of_afterBlanks? hname hmem).resolve_left (by simp [hblank])
      exact absurd (mem_of_ofName? h hmem) hletter

/-- A line that begins with what is neither blank nor a comment says
something. -/
theorem isInert_append {s t : Text} (hne : s ≠ [])
    (hs : Text.startsWith commentMark s = false) (ht : ∀ c ∈ t.head?, c ≠ '%') :
    isInert (s ++ t) = false := by
  have hmark : Text.after? commentMark (s ++ t) = none := by
    cases hafter : Text.after? commentMark (s ++ t) with
    | none => rfl
    | some rest =>
        have hsplit : s ++ t = '%' :: '%' :: rest := Text.after?_eq_some_iff.1 hafter
        cases s with
        | nil => exact absurd rfl hne
        | cons c s =>
            cases s with
            | nil =>
                obtain ⟨-, rfl⟩ := List.cons.inj hsplit
                exact absurd rfl (ht '%' rfl)
            | cons d s =>
                simp only [List.cons_append, List.cons.injEq] at hsplit
                obtain ⟨rfl, rfl, -⟩ := hsplit
                cases hs
  rw [isInert, Text.startsWith, hmark]
  simp [hne]

theorem DisplayName.isInert_append (n : DisplayName) {t : Text}
    (ht : ∀ c ∈ t.head?, c ≠ '%') : isInert (n.text ++ t) = false :=
  Er.isInert_append n.nonempty n.uncommented ht

/-- What a trimmed line is that says something and holds a character that
is in no statement. -/
theorem classify_eq {t : Text} {c : Char} (ht : trim t = t) (hinert : isInert t = false)
    (hc : c ∈ t) (hkind : isStatementChar c = false) (hend : t ≠ ['}']) (inBlock : Bool) :
    Line.classify inBlock t
      = if inBlock then .attribute
        else if (Cardinality.find? t).isSome then .relationship
        else match blockStart? t with
          | some name => .blockStart name
          | none => .other := by
  unfold Line.classify
  simp only [ht, hinert, declaration?_eq_none hc hkind, directionStatement?_eq_none hc hkind,
    if_neg hend]
  rfl

theorem classify_declaration :
    Line.classify false "erDiagram".toList = .declaration none := by decide

theorem classify_blockEnd : Line.classify true ['}'] = .blockEnd := by decide

-- ============================================================ the blocks

theorem unquoted_eq_self {t : Text} (ht : trim t = t) (hquote : '"' ∉ t) :
    unquoted t = t := by
  have hopening : Text.dropOpeningQuote t = t := by
    unfold Text.dropOpeningQuote
    split
    next => exact absurd List.mem_cons_self hquote
    next => rfl
  have hclosing : Text.dropClosingQuote t = t := by
    unfold Text.dropClosingQuote
    rw [if_neg fun h => hquote (List.mem_of_getLast? h)]
  rw [unquoted, Text.dropQuotes, hopening, hclosing, ht]

theorem unquoted_quoted {t : Text} (ht : trim t = t) :
    unquoted ('"' :: (t ++ ['"'])) = t := by
  rw [unquoted, Text.dropQuotes, Text.dropOpeningQuote, Text.dropClosingQuote,
    if_pos List.getLast?_concat, List.dropLast_concat, ht]

theorem DisplayName.unquoted_text (n : DisplayName) : unquoted n.text = n.text :=
  unquoted_eq_self n.trimmed (n.not_mem (by decide))

theorem trim_blockLine (n : DisplayName) : trim (blockLine n.text) = blockLine n.text :=
  Text.trim_between n.nonempty n.trimmed (by decide) (by decide) [' ']

/-- The line that starts a block is read as that. -/
theorem classify_blockLine (n : DisplayName) :
    Line.classify false (blockLine n.text) = .blockStart n.text := by
  have hbrace : '{' ∈ blockLine n.text :=
    List.mem_append_right _ (by decide)
  have hend : blockLine n.text ≠ ['}'] := fun h => by
    rw [h] at hbrace
    exact absurd hbrace (by decide)
  have hinert : isInert (blockLine n.text) = false := n.isInert_append (by simp)
  have hfind : Cardinality.find? (blockLine n.text) = none := by
    rw [Cardinality.find?_eq_none_iff]
    intro op hop
    rcases Text.infix_of_infix_append_cons op.space_not_mem_spelling hop with h | h
    · exact n.noOperator op h
    · have hlength := h.length_le
      simp [Cardinality.spelling] at hlength
  have hstart : blockStart? (blockLine n.text) = some n.text := by
    have hbrace : blockLine n.text = n.text ++ [' '] ++ ['{'] := by
      rw [List.append_assoc]
      rfl
    rw [blockStart?, hbrace, List.getLast?_concat, List.dropLast_concat,
      Text.trimRight_append_eq n.isBlank_getLast Text.isBlank_of_mem_space, n.unquoted_text, if_pos]
    simp
  rw [classify_eq (trim_blockLine n) hinert hbrace (by decide) hend, hfind, hstart]
  rfl

-- ================================================================= keys

/-- The letters that keys are spelled with. -/
def keyLetters : Text := ['P', 'p', 'K', 'k', 'F', 'f', 'U', 'u']

/-- A capital is made of itself or of the small letter. -/
theorem toNat_of_toUpper {c u : Char} (h : c.toUpper = u) :
    c = u ∨ c.toNat = u.toNat + 32 := by
  unfold Char.toUpper at h
  split at h
  next hsmall =>
    have hval := congrArg Char.toNat h
    simp only [Char.toNat, UInt32.toNat_add, UInt32.toNat_sub, UInt32.le_iff_toNat_le]
      at hval hsmall ⊢
    have ha : 'a'.val.toNat = 97 := rfl
    have hA : 'A'.val.toNat = 65 := rfl
    have hz : 'z'.val.toNat = 122 := rfl
    right
    omega
  next => exact .inl h

theorem Key.mem_keyLetters (k : Key) {c : Char} (hc : c ∈ k.text) : c ∈ keyLetters := by
  have hmem : c.toUpper ∈ k.text.map Char.toUpper := List.mem_map.2 ⟨c, hc, rfl⟩
  have hcapital : c.toUpper ∈ ['P', 'K', 'F', 'U'] := by
    have hall : ∀ name ∈ Drawing.keyNames, ∀ c ∈ name, c ∈ ['P', 'K', 'F', 'U'] := by
      simp [Drawing.keyNames]
    exact hall _ k.known _ hmem
  have hkept : ∀ u ∈ ['P', 'K', 'F', 'U'], u ∈ keyLetters :=
    Text.forall_mem_of_all (by decide)
  have hsmall : ∀ u ∈ ['P', 'K', 'F', 'U'], Char.ofNat (u.toNat + 32) ∈ keyLetters :=
    Text.forall_mem_of_all (by decide)
  rcases toNat_of_toUpper (c := c) rfl with h | h
  · rw [h]
    exact hkept _ hcapital
  · rw [← Char.ofNat_toNat c, h]
    exact hsmall _ hcapital

theorem Key.nonempty (k : Key) : k.text ≠ [] := by
  intro hnil
  have hknown := k.known
  rw [hnil] at hknown
  exact absurd hknown (by decide)

/-- A key is known in any letter case, and is read in capitals. -/
theorem key?_text (k : Key) : key? k.text = some (k.text.map Char.toUpper) := by
  have hfold : k.text.map foldCase = (k.text.map Char.toUpper).map Char.toLower := by
    have hall : ∀ c ∈ keyLetters, foldCase c = c.toUpper.toLower :=
      Text.forall_mem_of_all (by decide)
    rw [List.map_map]
    exact List.map_congr_left fun c hc => hall c (k.mem_keyLetters hc)
  have htag : k.text.map foldCase ∈ keyTags := by
    have hall : ∀ name ∈ Drawing.keyNames, name.map Char.toLower ∈ keyTags := by decide
    rw [hfold]
    exact hall _ k.known
  unfold key?
  rw [if_pos]
  rw [List.any_eq_true]
  refine ⟨_, htag, ?_⟩
  rw [decide_eq_true_eq, Text.afterAnyCase?_eq_some_iff]
  exact ⟨k.text, (List.append_nil _).symm, rfl⟩

-- =============================================================== fields

/-- Whether a line goes on as one field behind a character. -/
def isFieldChar (c : Char) : Bool := c != ',' && c != '"'

theorem isField_of_isFieldChar {t : Text} (htrim : trim t = t)
    (ht : ∀ c ∈ t, isFieldChar c = true) : IsField t :=
  isField_of_not_mem htrim (fun h => absurd (ht _ h) (by decide))
    fun h => absurd (ht _ h) (by decide)

theorem DisplayName.isFieldChar (n : DisplayName) : ∀ c ∈ n.text, isFieldChar c = true := by
  intro c hc
  have hcomma : c ≠ ',' := fun h => n.not_mem (c := ',') (by decide) (h ▸ hc)
  have hquote : c ≠ '"' := fun h => n.not_mem (c := '"') (by decide) (h ▸ hc)
  simp [Er.isFieldChar, hcomma, hquote]

theorem TypeName.isFieldChar (t : TypeName) : ∀ c ∈ t.text, isFieldChar c = true := by
  intro c hc
  have hkind := (t.chars c hc).2
  rw [isTypeChar, Bool.and_assoc, Bool.and_eq_true] at hkind
  exact hkind.2

theorem Key.isFieldChar (k : Key) : ∀ c ∈ k.text, isFieldChar c = true := by
  have hall : ∀ c ∈ keyLetters, Er.isFieldChar c = true :=
    Text.forall_mem_of_all (by decide)
  exact fun c hc => hall c (k.mem_keyLetters hc)

/-- The fields of a line of a block behind its type. -/
def Field.furtherFields (f : Field) : List Text :=
  match f.key, f.comment with
  | none, none => []
  | some key, none => [key.text]
  | none, some comment => [[], '"' :: (comment.text ++ ['"'])]
  | some key, some comment => [key.text, '"' :: (comment.text ++ ['"'])]

theorem Key.trim_text (k : Key) : trim k.text = k.text := by
  have hall : ∀ c ∈ keyLetters, isBlank c = false :=
    Text.forall_mem_of_all (by decide)
  exact Text.trim_eq_self_of_forall fun c hc => hall c (k.mem_keyLetters hc)

theorem Field.isField_furtherFields (f : Field) : ∀ t ∈ f.furtherFields, IsField t := by
  have hempty : IsField [] := by decide
  have hkey : ∀ k : Key, IsField k.text :=
    fun k => isField_of_isFieldChar k.trim_text k.isFieldChar
  have hremark : ∀ t : Remark, IsField ('"' :: (t.text ++ ['"'])) :=
    fun t => isField_quoted (t.not_mem (by decide))
  unfold Field.furtherFields
  cases f.key with
  | none =>
      cases f.comment with
      | none => simp
      | some t => simp [hempty, hremark]
  | some k =>
      cases f.comment with
      | none => simp [hkey]
      | some t => simp [hkey, hremark]

/-- A line of a block is its fields, with commas between them. -/
theorem Field.line_eq (f : Field) :
    f.line = [',', ' '].intercalate (f.name.text :: f.type.text :: f.furtherFields) := by
  unfold Field.line Field.columns Field.furtherFields
  cases f.key with
  | none => cases f.comment <;> simp [List.intercalate_cons_cons]
  | some k => cases f.comment <;> simp [List.intercalate_cons_cons]

theorem Field.trim_line (f : Field) : trim f.line = f.line := by
  -- a line ends with its type, its key or its comment
  have hbetween : ∀ m t : Text, t ≠ [] → trim t = t →
      trim (f.name.text ++ (m ++ t)) = f.name.text ++ (m ++ t) :=
    fun m t ht htt => Text.trim_between f.name.nonempty f.name.trimmed ht htt m
  rw [Field.line, Field.columns]
  cases f.key with
  | none =>
      cases f.comment with
      | none =>
          have h := hbetween [',', ' '] f.type.text f.type.nonempty f.type.trimmed
          simpa using h
      | some t =>
          have h := hbetween ([',', ' '] ++ f.type.text ++ [',', ' ', ',', ' '])
            ('"' :: (t.text ++ ['"'])) (by simp) (Text.trim_quoted _)
          simpa using h
  | some k =>
      cases f.comment with
      | none =>
          have h := hbetween ([',', ' '] ++ f.type.text ++ [',', ' ']) k.text k.nonempty
            k.trim_text
          simpa using h
      | some t =>
          have h := hbetween ([',', ' '] ++ f.type.text ++ [',', ' '] ++ k.text ++ [',', ' '])
            ('"' :: (t.text ++ ['"'])) (by simp) (Text.trim_quoted _)
          simpa using h

/-- The fields of a line of a block. -/
theorem fields_line (f : Field) :
    fields f.line = f.name.text :: f.type.text :: f.furtherFields := by
  have hname := isField_of_isFieldChar f.name.trimmed f.name.isFieldChar
  have htype := isField_of_isFieldChar f.type.trimmed (TypeName.isFieldChar f.type)
  rw [f.line_eq]
  refine fields_of_isField Text.isBlank_of_mem_space (List.cons_ne_nil _ _) ?_
  exact List.forall_mem_cons.2 ⟨hname, List.forall_mem_cons.2 ⟨htype, f.isField_furtherFields⟩⟩

theorem comment?_quoted (t : Remark) :
    comment? ['"' :: (t.text ++ ['"'])] = some t.text := by
  rw [comment?, List.intercalate_singleton, Text.trim_quoted, unquoted_quoted t.trimmed]
  cases htext : t.text with
  | nil => exact absurd htext t.nonempty
  | cons c s => rfl

/-- A line of a block is read as the attribute that it is. -/
theorem Attribute.ofLine?_line (f : Field) :
    Attribute.ofLine? f.line
      = some
          { name := f.name.text, type := f.type.text
            key := f.key.map fun key => key.text.map Char.toUpper
            comment := f.comment.map (·.text) } := by
  rw [Attribute.ofLine?, f.trim_line, fields_line, Field.furtherFields]
  have hempty : key? [] = none := by decide
  cases f.key with
  | none =>
      cases f.comment with
      | none => rfl
      | some t =>
          simp only [hempty, List.isEmpty_nil, Bool.or_true, if_true, comment?_quoted]
          rfl
  | some k =>
      cases f.comment with
      | none =>
          simp only [key?_text, Option.isSome_some, Bool.true_or, if_true]
          rfl
      | some t =>
          simp only [key?_text, Option.isSome_some, Bool.true_or, if_true, comment?_quoted]
          rfl

/-- Inside a block such a line is classified as an attribute. -/
theorem classify_line (f : Field) : Line.classify true f.line = .attribute := by
  have hcomma : ',' ∈ f.line :=
    List.mem_append_left _ (List.mem_append_left _ (List.mem_append_right _ (by decide)))
  have hend : f.line ≠ ['}'] := fun h => by
    rw [h] at hcomma
    exact absurd hcomma (by decide)
  have hinert : isInert f.line = false := by
    rw [Field.line, List.append_assoc, List.append_assoc]
    exact f.name.isInert_append (by simp)
  rw [classify_eq f.trim_line hinert hcomma (by decide) hend, if_pos rfl]

-- ======================================================== relationships

theorem labelPart_none : labelPart (remarkText none) = [] := rfl

theorem labelPart_some (t : Remark) :
    labelPart (remarkText (some t)) = [' ', ':', ' '] ++ t.text := by
  unfold remarkText labelPart
  simp only [Option.map_some, Option.getD_some]
  split
  next h => exact absurd h t.nonempty
  next => rfl

variable (left right : DisplayName) (op : Cardinality) (label : Option Remark)

theorem trim_target :
    trim (right.text ++ labelPart (remarkText label))
      = right.text ++ labelPart (remarkText label) := by
  cases label with
  | none => rw [labelPart_none, List.append_nil, right.trimmed]
  | some t =>
      rw [labelPart_some]
      exact Text.trim_between right.nonempty right.trimmed t.nonempty t.trimmed _

theorem trim_relationLine :
    trim (relationLine left.text op right.text (remarkText label))
      = relationLine left.text op right.text (remarkText label) := by
  have h := Text.trim_between left.nonempty left.trimmed
    (by simp [right.nonempty]) (trim_target right label) ([' '] ++ op.spelling ++ [' '])
  rw [relationLine_eq]
  simpa using h

/-- The line of a relationship is classified as that. -/
theorem classify_relationLine :
    Line.classify false (relationLine left.text op right.text (remarkText label))
      = .relationship := by
  obtain ⟨c, hc, hstroke⟩ := op.exists_stroke_mem_spelling
  have hmem : c ∈ relationLine left.text op right.text (remarkText label) := by
    rw [relationLine_eq]
    exact List.mem_append_right _ (List.mem_cons_of_mem _ (List.mem_append_left _ hc))
  have hkind : isStatementChar c = false := by
    rcases hstroke with rfl | rfl <;> decide
  have hspace : ' ' ∈ relationLine left.text op right.text (remarkText label) := by
    rw [relationLine_eq]
    exact List.mem_append_right _ List.mem_cons_self
  have hend : relationLine left.text op right.text (remarkText label) ≠ ['}'] := fun h => by
    rw [h] at hspace
    exact absurd hspace (by decide)
  have hinert : isInert (relationLine left.text op right.text (remarkText label)) = false := by
    rw [relationLine_eq]
    exact left.isInert_append (by simp)
  rw [classify_eq (trim_relationLine left right op label) hinert hmem hkind hend,
    if_neg (by decide), relationLine_eq, Cardinality.find?_append left.noOperator]
  rfl

/-- The line of a relationship is read as that. -/
theorem Relationship.ofLine?_relationLine :
    Relationship.ofLine? (relationLine left.text op right.text (remarkText label))
      = some
          { left := left.text, op := op, right := right.text
            label := remarkText label } := by
  have hcolon : ':' ∉ right.text := right.not_mem (by decide)
  rw [Relationship.ofLine?, trim_relationLine, relationLine_eq,
    Cardinality.find?_append left.noOperator]
  simp only [Option.map_some, Text.trim_space (trim_target right label),
    Text.trim_append_space left.trimmed, left.unquoted_text]
  cases label with
  | none =>
      rw [labelPart_none, List.append_nil, Text.cut?_eq_none hcolon]
      simp only [Option.getD_none, right.trimmed, right.unquoted_text]
      rfl
  | some t =>
      have hcut : Text.cut? [':'] (right.text ++ ([' ', ':', ' '] ++ t.text))
          = some (right.text ++ [' '], ' ' :: t.text) := by
        have h := Text.cut?_append (a := right.text ++ [' ']) (b := ' ' :: t.text)
          (c := ':') (by simp [hcolon])
        simpa using h
      rw [labelPart_some, hcut]
      simp only [Option.getD_some, Text.trim_append_space right.trimmed,
        right.unquoted_text, Text.trim_space t.trimmed]
      rfl

end FreeLabel.Er
