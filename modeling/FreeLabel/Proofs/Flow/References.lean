/-
Nodes under identifiers, read as references. A compiled diagram names all
its nodes so, those of the source's own and those that were labels, and
the two are spelled alike (`IsReference`): a name, and a label in brackets
if there is one.

A reference is read again as it is spelled where a space follows or
nothing does: its name ends there or at the bracket behind it, and its
label holds no quote, so the brackets are those that it was written with
(`anyLabel?_enclose`).
-/
import FreeLabel.Proofs.Drawing.Names
import FreeLabel.Proofs.Flow.Arrows

namespace FreeLabel.Flow

open Naming (isIdentifier)
open Text (trim)

-- ============================================================== brackets

variable {label s t w : Text}

theorem label?_enclose (b : Bracket) (hlabel : '"' ∉ label) (t : Text) :
    b.label? (b.enclose label ++ t) = some (label, t) := by
  have hopening : Text.after? (b.opening ++ ['"']) (b.enclose label ++ t)
      = some (label ++ '"' :: (b.closing ++ t)) := by
    rw [Text.after?_eq_some_iff]
    simp [Bracket.enclose]
  have hclosing : Text.after? b.closing (b.closing ++ t) = some t := Text.after?_eq_some_iff.2 rfl
  simp only [Bracket.label?, hopening, bind, Option.bind, Text.cut?_append hlabel, hclosing]

/-- A label is read with the brackets that it stands in: no two pairs begin
alike up to the quote. -/
theorem anyLabel?_enclose (b : Bracket) (hlabel : '"' ∉ label) (t : Text) :
    Bracket.anyLabel? (b.enclose label ++ t) = some (b, label, t) := by
  have hread := label?_enclose b hlabel t
  have hother : ∀ b' ≠ b, b'.label? (b.enclose label ++ t) = none := by
    intro b' hne
    cases b' <;> cases b <;> first | rfl | exact absurd rfl hne
  unfold Bracket.anyLabel? Bracket.all
  cases b <;> simp [hread, hother]

theorem quote_not_mem_of_anyLabel? {b : Bracket} {rest : Text}
    (h : Bracket.anyLabel? s = some (b, label, rest)) : '"' ∉ label := by
  obtain ⟨b', -, h⟩ := List.exists_of_findSome?_eq_some h
  obtain ⟨⟨l, r⟩, hread, heq⟩ := Option.map_eq_some_iff.1 h
  cases heq
  simp only [Bracket.label?, Option.bind_eq_bind, Option.bind_eq_some_iff,
    Option.some.injEq, Prod.mk.injEq, Prod.exists] at hread
  obtain ⟨_, -, _, _, hcut, _, -, rfl, -⟩ := hread
  exact Text.not_mem_of_cut? hcut

/-- What begins a label in brackets. -/
theorem head_enclose (b : Bracket) (label s : Text) :
    ∃ c t, b.enclose label ++ s = c :: t ∧ isWordChar c = false ∧ isIdentChar c = false := by
  cases b
  all_goals exact ⟨_, _, rfl, by decide, by decide⟩

theorem squeeze_enclose (b : Bracket) (label : Text) :
    squeeze (b.enclose label) = b.enclose (squeeze label) := by
  have hclosing : b.closing.head? ≠ some ' ' := by
    cases b <;> decide
  unfold Bracket.enclose
  rw [squeeze_append (.inr hclosing), squeeze_append (.inr (by simp)),
    squeeze_append (.inl (by simp)), squeeze_append (.inr (by simp))]
  cases b <;> rfl

-- ========================================================= leading words

/-- The word that a text begins with, empty if it begins with none. -/
def leadingWord (s : Text) : Text := s.takeWhile isWordChar

theorem isWordChar_head_of_atWordEnd (h : Text.atWordEnd s = true) :
    ∀ c ∈ s.head?, isWordChar c = false := by
  cases s with
  | nil => exact nofun
  | cons c s =>
      rintro d ⟨⟩
      simpa [Text.atWordEnd] using h

/-- Where words are looked for at the head of a text, its leading word is
compared. -/
theorem startsWithWord_iff {words : List Text}
    (hwords : ∀ word ∈ words, ∀ c ∈ word, isWordChar c = true) :
    startsWithWord words s = true ↔ leadingWord s ∈ words := by
  rw [startsWithWord, List.any_eq_true]
  constructor
  · rintro ⟨word, hmem, hstarts⟩
    obtain ⟨rest, hrest⟩ := Option.isSome_iff_exists.1 hstarts
    obtain ⟨hafter, hend⟩ := Option.filter_eq_some_iff.1 hrest
    obtain rfl := Text.after?_eq_some_iff.1 hafter
    have hlead : leadingWord (word ++ rest) = word :=
      Text.takeWhile_append_eq (hwords word hmem) (isWordChar_head_of_atWordEnd hend)
    rwa [hlead]
  · intro hmem
    have hafter : Text.after? (leadingWord s) s = some (s.dropWhile isWordChar) :=
      Text.after?_eq_some_iff.2 List.takeWhile_append_dropWhile.symm
    have hend : Text.atWordEnd (s.dropWhile isWordChar) = true := by
      have hhead := List.head?_dropWhile_not isWordChar s
      cases hdrop : s.dropWhile isWordChar with
      | nil => rfl
      | cons c rest =>
          rw [hdrop] at hhead
          simpa [Text.atWordEnd] using hhead
    refine ⟨leadingWord s, hmem, ?_⟩
    rw [hafter, Option.filter_some, if_pos hend]
    rfl

/-- A word ends before a space. -/
theorem leadingWord_append_space (s t : Text) : leadingWord (s ++ ' ' :: t) = leadingWord s := by
  have hspace : isWordChar ' ' = false := by decide
  unfold leadingWord
  induction s with
  | nil => rw [List.nil_append, List.takeWhile_cons, hspace]; rfl
  | cons c s ih => rw [List.cons_append, List.takeWhile_cons, List.takeWhile_cons, ih]

theorem leadingWord_squeeze (s : Text) : leadingWord (squeeze s) = leadingWord s := by
  unfold leadingWord
  induction s with
  | nil => rfl
  | cons c s ih =>
      rw [squeeze_cons]
      split
      next h =>
        rw [ih, List.takeWhile_cons, h.1]
        cases s with
        | nil => rfl
        | cons d s =>
            obtain rfl : d = ' ' := by simpa using h.2
            rfl
      next => rw [List.takeWhile_cons, List.takeWhile_cons, ih]

-- ================================================================= names

/-- A name as a source may give it to a node. -/
structure IsName (name : Text) : Prop where
  head : ∃ c ∈ name.head?, (isAsciiLetter c || c == '_') = true
  word : ∀ c ∈ name, isWordChar c = true

theorem isName_of_isIdentifier {id : Text} (hid : isIdentifier id = true) : IsName id where
  head := by
    cases id with
    | nil => cases hid
    | cons c id =>
        rw [isIdentifier, Bool.and_eq_true] at hid
        exact ⟨c, rfl, by rw [hid.1, Bool.true_or]⟩
  word := fun c hc =>
    isWordChar_of_isIdentChar ((Naming.isIdentChar_of_isIdentifier hid).2 c hc)

variable {name : Text}

theorem IsName.isWord (h : IsName name) : IsWord name where
  ne_nil := by
    obtain ⟨c, hc, -⟩ := h.head
    exact List.ne_nil_of_mem (List.mem_of_head? hc)
  trimmed := Text.trim_eq_self_of_forall fun c hc => by
    cases hblank : isBlank c with
    | false => rfl
    | true =>
        have hword := h.word c hc
        rw [isWordChar_of_isBlank hblank] at hword
        cases hword

theorem IsName.squeeze_eq (h : IsName name) : squeeze name = name :=
  squeeze_eq_self fun hmem => absurd (h.word ' ' hmem) (by decide)

-- ============================================================ references

/-- A node under an identifier as it is spelled. -/
inductive IsReference : Text → Prop
  | bare {name : Text} (hname : IsName name) : IsReference name
  | labelled {name label : Text} (hname : IsName name) (b : Bracket) (hlabel : '"' ∉ label) :
      IsReference (name ++ b.enclose label)

theorem IsReference.isWord (h : IsReference w) : IsWord w := by
  cases h with
  | bare hname => exact hname.isWord
  | labelled hname b hlabel =>
      rename_i name label
      have hclosing : b.closing ≠ [] ∧ trim b.closing = b.closing := by
        cases b <;> decide
      refine ⟨by simp [hname.isWord.ne_nil], ?_⟩
      exact Text.trim_between hname.isWord.ne_nil hname.isWord.trimmed hclosing.1 hclosing.2
        (b.opening ++ ['"'] ++ label ++ ['"'])

theorem IsReference.squeeze (h : IsReference w) : IsReference (squeeze w) := by
  cases h with
  | bare hname => exact hname.squeeze_eq.symm ▸ .bare hname
  | labelled hname b hlabel =>
      rw [squeeze_append (.inl (getLast?_ne_space hname.isWord.trimmed)), hname.squeeze_eq,
        squeeze_enclose]
      exact .labelled hname b fun hmem => hlabel (mem_of_mem_squeeze hmem)

/-- What was read as a reference is one. -/
theorem isReference_of_read? {rest spelling : Text}
    (h : Token.read? s = some (.reference spelling, rest)) : IsReference spelling := by
  have hread : Token.reference? s = some (.reference spelling, rest) := of_read? h
  cases s with
  | nil => cases hread
  | cons c s =>
      simp only [Token.reference?, Option.ite_none_right_eq_some, Option.some.injEq,
        Prod.mk.injEq, Token.reference.injEq] at hread
      obtain ⟨hc, rfl, -⟩ := hread
      have hname : IsName (c :: s.takeWhile isWordChar) := by
        refine ⟨⟨c, rfl, hc⟩, List.forall_mem_cons.2 ⟨?_, List.all_eq_true.1 List.all_takeWhile⟩⟩
        rcases Bool.or_eq_true_iff.1 hc with hc | hc
        · exact isWordChar_of_isIdentChar (isIdentChar_of_isAsciiLetter hc)
        · rw [eq_of_beq hc]
          decide
      unfold Token.outline
      split
      next b label rest hlabel => exact .labelled hname b (quote_not_mem_of_anyLabel? hlabel)
      next =>
        rw [List.append_nil]
        exact .bare hname

/-- A letter or low line begins nothing but a reference. -/
theorem read?_eq_reference? {c : Char} (hc : (isAsciiLetter c || c == '_') = true) (s : Text) :
    Token.read? (c :: s) = Token.reference? (c :: s) := by
  have hne : ∀ d ∈ ['-', '=', '{', '"', '('], c ≠ d := by
    intro d hd
    refine ne_of_kind (p := fun c => isAsciiLetter c || c == '_') hc ?_
    revert d
    exact Text.forall_mem_of_all (by decide)
  have hshaft : Arrow.shaft? (c :: s) = none := by
    rw [Arrow.shaft?_eq_none_iff]
    intro m hm hbegins
    simp only [shaftMarks, List.mem_cons, List.not_mem_nil, or_false] at hm
    rcases hm with rfl | rfl | rfl
    · exact hne '-' (by decide) (List.cons_prefix_cons.1 hbegins).1.symm
    · exact hne '=' (by decide) (List.cons_prefix_cons.1 hbegins).1.symm
    · exact hne '-' (by decide) (List.cons_prefix_cons.1 hbegins).1.symm
  have harrow : Token.arrow? (c :: s) = none := by
    rw [Token.arrow?, Arrow.read?, hshaft]
    rfl
  have hdiamond : Token.diamond? (c :: s) = none := by
    unfold Token.diamond?
    split
    next heq => exact absurd (List.cons.inj heq).1 (hne '{' (by decide))
    next => rfl
  have hrectangle : Token.rectangle? (c :: s) = none := by
    unfold Token.rectangle?
    split
    next heq => exact absurd (List.cons.inj heq).1 (hne '"' (by decide))
    next => rfl
  have hrounded : Token.rounded? (c :: s) = none := by
    unfold Token.rounded?
    split
    next heq => exact absurd (List.cons.inj heq).1 (hne '(' (by decide))
    next => rfl
  rw [Token.read?, harrow, hdiamond, hrectangle, hrounded]
  rfl

/-- A name is read up to where it ends. -/
theorem IsName.read?_append (h : IsName name) (ht : ∀ c ∈ t.head?, isWordChar c = false) :
    Token.read? (name ++ t)
      = some (.reference (name ++ (Token.outline t).1), (Token.outline t).2) := by
  obtain ⟨c, hc, hletter⟩ := h.head
  cases name with
  | nil => cases hc
  | cons d name =>
      obtain rfl : d = c := by simpa using hc
      have hrest : ∀ e ∈ name, isWordChar e = true :=
        fun e he => h.word e (List.mem_cons_of_mem d he)
      rw [List.cons_append, read?_eq_reference? hletter, Token.reference?, if_pos hletter,
        Text.takeWhile_append_eq hrest ht, Text.dropWhile_append_eq hrest ht]

/-- The word that a node begins with is its name. -/
theorem IsName.leadingWord_append (h : IsName name) (ht : ∀ c ∈ t.head?, isWordChar c = false) :
    leadingWord (name ++ t) = name :=
  Text.takeWhile_append_eq h.word ht

theorem isWordChar_head_enclose (b : Bracket) (label s : Text) :
    ∀ c ∈ (b.enclose label ++ s).head?, isWordChar c = false := by
  obtain ⟨c, u, heq, hc, -⟩ := head_enclose b label s
  rw [heq]
  rintro d ⟨⟩
  exact hc

/-- No label begins with a space. -/
theorem outline_of_apart (ht : Apart t) : Token.outline t = ([], t) := by
  have hnone : Bracket.anyLabel? t = none := by
    cases t with
    | nil => rfl
    | cons c t =>
        obtain rfl := ht c rfl
        rfl
  rw [Token.outline, hnone]

/-- A reference is read as it is spelled. -/
theorem IsReference.read?_append (h : IsReference w) (ht : Apart t) :
    Token.read? (w ++ t) = some (.reference w, t) := by
  cases h with
  | bare hname =>
      have hstop : ∀ c ∈ t.head?, isWordChar c = false := fun c hc => ht c hc ▸ by decide
      rw [hname.read?_append hstop, outline_of_apart ht, List.append_nil]
  | labelled hname b hlabel =>
      rename_i name label
      rw [List.append_assoc, hname.read?_append (isWordChar_head_enclose b label t),
        Token.outline, anyLabel?_enclose b hlabel t]

end FreeLabel.Flow
