/-
Tags as they are written are read back: names, attributes with their
values, the ends of start tags, end tags.

# What may be written

A name is written so that it can be read if its parts are words
(`isWord`), and a value if it holds none of the characters for which a
reference is written (`isPlainValue`). Drawings need no more: the values
of their attributes are numbers, roles and identifiers. Text between tags
may hold any character and is dealt with where content is read.

The reader notes with each attribute which part of the document begins
there, for its reports; `RawAttribute.spelled` leaves that out, so that the
statements name what was written and nothing of what follows it.
-/
import FreeLabel.Markup.Tag
import FreeLabel.Markup.Writer
import FreeLabel.Proofs.Text.Span

namespace FreeLabel.Markup

open Text (takeWhile_append_eq dropWhile_append_eq dropWhile_eq_self)

-- ================================================================= words

/-- Whether a text is a name without a colon. -/
def isWord : Text → Bool
  | [] => false
  | c :: t => isNameStart c && t.all isNameChar

/-- Whether the parts of a name are words. -/
def RawName.isWordy (n : RawName) : Bool := n.pre.all isWord && isWord n.base

/-- A name may go on with any character that it may begin with. -/
theorem isNameChar_of_isNameStart {c : Char} (h : isNameStart c = true) :
    isNameChar c = true := by
  unfold isNameStart at h
  unfold isNameChar
  split at h
  next hlt =>
    rw [if_pos hlt]
    simp only [Char.isAlphanum, Bool.or_eq_true] at h ⊢
    rcases h with h | h
    · exact .inl (.inl (.inl (.inl h)))
    · exact .inl (.inl (.inr h))
  next hge => rw [if_neg hge, h, Bool.true_or]

/-- Whether a word ends where a text begins. -/
def endsName (s : Text) : Prop := ∀ c ∈ s.head?, isNameChar c = false ∧ c ≠ ':'

theorem scanWord_append {t s : Text} (ht : isWord t = true)
    (hs : ∀ c ∈ s.head?, isNameChar c = false) :
    scanWord (t ++ s) = .found t s := by
  cases t with
  | nil => simp [isWord] at ht
  | cons c t =>
      rw [isWord, Bool.and_eq_true, List.all_eq_true] at ht
      rw [List.cons_append, scanWord, if_pos ht.1,
        takeWhile_append_eq ht.2 hs, dropWhile_append_eq ht.2 hs]

/-- A spelled name is read back where it ends. -/
theorem scanName_append {n : RawName} {s : Text} (hn : n.isWordy = true)
    (hs : endsName s) : scanName (n.spelling ++ s) = .found n s := by
  obtain ⟨pre, base⟩ := n
  have hstop : ∀ c ∈ s.head?, isNameChar c = false := fun c hc => (hs c hc).1
  have hcolon : ∀ r, s ≠ ':' :: r := by
    intro r hr
    subst hr
    exact (hs ':' rfl).2 rfl
  cases pre with
  | none =>
      have hbase : isWord base = true := by simpa [RawName.isWordy] using hn
      unfold scanName
      rw [RawName.spelling, scanWord_append hbase hstop, Scan.andThen]
      split
      next r => exact absurd rfl (hcolon r)
      next => rfl
  | some pre =>
      rw [RawName.isWordy, Bool.and_eq_true] at hn
      have hpre : isWord pre = true := by simpa using hn.1
      have hmid : ∀ c ∈ (':' :: (base ++ s)).head?, isNameChar c = false := by
        intro c hc
        obtain rfl : ':' = c := by simpa using hc
        decide
      unfold scanName
      rw [RawName.spelling, List.append_assoc, List.append_assoc,
        List.singleton_append, scanWord_append hpre hmid]
      simp only [Scan.andThen]
      rw [scanWord_append hn.2 hstop]
      simp only

/-- A spelled name begins as a name does. -/
theorem exists_cons_spelling {n : RawName} (hn : n.isWordy = true) :
    ∃ c t, n.spelling = c :: t ∧ isNameStart c = true
      ∧ ∀ d ∈ t, (isNameChar d || d == ':') = true := by
  have hchars : ∀ {u : Text}, isWord u = true →
      ∃ c t, u = c :: t ∧ isNameStart c = true ∧ ∀ d ∈ t, isNameChar d = true := by
    intro u hu
    cases u with
    | nil => simp [isWord] at hu
    | cons c t =>
        rw [isWord, Bool.and_eq_true, List.all_eq_true] at hu
        exact ⟨c, t, rfl, hu⟩
  obtain ⟨pre, base⟩ := n
  rw [RawName.isWordy, Bool.and_eq_true] at hn
  obtain ⟨c, t, hbase, hc, ht⟩ := hchars hn.2
  simp only at hbase
  cases pre with
  | none =>
      refine ⟨c, t, hbase, hc, ?_⟩
      intro d hd
      rw [ht d hd, Bool.true_or]
  | some pre =>
      obtain ⟨e, u, rfl, he, hu⟩ := hchars (u := pre) (by simpa using hn.1)
      refine ⟨e, u ++ ':' :: base, by simp [RawName.spelling], he, ?_⟩
      intro d hd
      rw [hbase] at hd
      simp only [List.mem_append, List.mem_cons] at hd
      rcases hd with hd | rfl | rfl | hd
      · rw [hu d hd, Bool.true_or]
      · rfl
      · rw [isNameChar_of_isNameStart hc, Bool.true_or]
      · rw [ht d hd, Bool.true_or]

/-- A character that begins a name is none of those that markup is made
of. -/
theorem ne_of_isNameStart {c d : Char} (h : isNameStart c = true)
    (hd : isNameStart d = false) : c ≠ d := by
  intro heq
  rw [heq, hd] at h
  cases h

theorem isXmlSpace_of_isNameStart {c : Char} (h : isNameStart c = true) :
    isXmlSpace c = false := by
  have hne : ∀ d, isNameStart d = false → (c == d) = false := by
    intro d hd
    exact beq_eq_false_iff_ne.2 (ne_of_isNameStart h hd)
  unfold isXmlSpace
  rw [hne ' ' (by decide), hne '\t' (by decide), hne '\n' (by decide),
    hne '\r' (by decide)]
  rfl

-- ================================================================ values

/-- Whether a character of a value is written as it is. -/
def isPlainChar (c : Char) : Bool := isXmlChar c && escapeValueChar c == [c]

/-- Whether a value is written as it is. -/
def isPlainValue (v : Text) : Bool := v.all isPlainChar

theorem isXmlChar_of_isPlainChar {c : Char} (h : isPlainChar c = true) :
    isXmlChar c = true := by
  rw [isPlainChar, Bool.and_eq_true] at h
  exact h.1

theorem ne_of_isPlainChar {c d : Char} (h : isPlainChar c = true)
    (hd : isPlainChar d = false) : c ≠ d := by
  intro heq
  rw [heq, hd] at h
  cases h

theorem escapeValue_of_isPlainValue {v : Text} (h : isPlainValue v = true) :
    escapeValue v = v := by
  induction v with
  | nil => rfl
  | cons c v ih =>
      rw [isPlainValue, List.all_cons, Bool.and_eq_true] at h
      have hc : escapeValueChar c = [c] := by
        have := h.1
        rw [isPlainChar, Bool.and_eq_true, beq_iff_eq] at this
        exact this.2
      have hv := ih h.2
      unfold escapeValue at hv ⊢
      rw [List.flatMap_cons, hc, hv, List.singleton_append]

/-- A plain value is looked through up to the quote behind it. -/
theorem scanValue_append {v : Text} (hv : isPlainValue v = true) (s : Text) :
    scanValue '"' (v ++ '"' :: s) = .found () s := by
  induction v with
  | nil =>
      rw [List.nil_append, scanValue]
      simp
  | cons c v ih =>
      rw [isPlainValue, List.all_cons, Bool.and_eq_true] at hv
      have hquote : c ≠ '"' := ne_of_isPlainChar hv.1 (by decide)
      have hbracket : c ≠ '<' := ne_of_isPlainChar hv.1 (by decide)
      have hamp : c ≠ '&' := ne_of_isPlainChar hv.1 (by decide)
      have hxml := isXmlChar_of_isPlainChar hv.1
      rw [List.cons_append, scanValue, if_neg hquote, if_neg (by simp [hbracket, hxml]),
        if_neg hamp]
      exact ih hv.2

/-- The body of a quoted plain value, and what is behind it. -/
theorem scanQuoted_append {v : Text} (hv : isPlainValue v = true) (s : Text) :
    scanQuoted ('"' :: (v ++ '"' :: s))
      = .found { body := v, behind := '"' :: s } s := by
  have hinside : ∀ c ∈ v, (decide (c ≠ '"')) = true := by
    intro c hc
    have := List.all_eq_true.1 hv c hc
    exact decide_eq_true (ne_of_isPlainChar this (by decide))
  have hstop : ∀ c ∈ ('"' :: s).head?, (decide (c ≠ '"')) = false := by
    intro c hc
    obtain rfl : '"' = c := by simpa using hc
    decide
  have hskip : skipSpace ('"' :: (v ++ '"' :: s)) = '"' :: (v ++ '"' :: s) :=
    dropWhile_eq_self fun c hc => by
      obtain rfl : '"' = c := by simpa using hc
      decide
  unfold scanQuoted
  rw [hskip]
  simp only
  rw [if_pos (by decide), scanValue_append hv, Scan.map, Scan.andThen,
    takeWhile_append_eq hinside hstop, dropWhile_append_eq hinside hstop]

-- ============================================================ attributes

/-- A spelled attribute: its name and its value. -/
abbrev Spelled := RawName × Text

/-- Whether an attribute can be read as it is written. -/
def Spelled.isPlain (a : Spelled) : Bool := a.1.isWordy && isPlainValue a.2

/-- Attributes as they are written. -/
def writeSpelled (as : List Spelled) : Text :=
  as.flatMap fun (name, value) => writeAttribute name.spelling value

/-- What an attribute says, wherever it stands. -/
def RawAttribute.spelled (a : RawAttribute) : Spelled := (a.name, a.value.body)

/-- The end of a start tag as it is written. -/
def tagEnd (isWhole : Bool) : Text := if isWhole then " />".toList else ['>']

theorem scanAttribute_append {name : RawName} {value : Text}
    (hn : name.isWordy = true) (hv : isPlainValue value = true) (s : Text) :
    ∃ a, scanAttribute (name.spelling ++ ['=', '"'] ++ escapeValue value ++ '"' :: s)
        = .found a s ∧ a.spelled = (name, value) := by
  have hends : endsName ('=' :: '"' :: (value ++ '"' :: s)) := by
    intro c hc
    obtain rfl : '=' = c := by simpa using hc
    decide
  have hequals : scanEquals ('=' :: '"' :: (value ++ '"' :: s))
      = .found () ('"' :: (value ++ '"' :: s)) := rfl
  have hread : scanAttribute (name.spelling ++ '=' :: '"' :: (value ++ '"' :: s))
      = .found
          { name := name, place := name.spelling ++ '=' :: '"' :: (value ++ '"' :: s)
            value := { body := value, behind := '"' :: s } } s := by
    unfold scanAttribute
    rw [scanName_append hn hends]
    simp only [Scan.andThen]
    rw [hequals]
    simp only
    rw [scanQuoted_append hv]
    rfl
  rw [escapeValue_of_isPlainValue hv]
  simp only [List.append_assoc, List.cons_append, List.nil_append]
  exact ⟨_, hread, rfl⟩

/-- Written attributes and the end of the tag are read back. -/
theorem scanAttributes_append {as : List Spelled}
    (has : ∀ a ∈ as, a.isPlain = true) (isWhole : Bool) (s : Text) :
    ∃ raws, scanAttributes (writeSpelled as ++ (tagEnd isWhole ++ s))
        = .found (raws, isWhole) s ∧ raws.map RawAttribute.spelled = as := by
  induction as with
  | nil =>
      refine ⟨[], ?_, rfl⟩
      cases isWhole with
      | false => rw [writeSpelled, List.flatMap_nil, List.nil_append, scanAttributes.eq_def]; rfl
      | true => rw [writeSpelled, List.flatMap_nil, List.nil_append, scanAttributes.eq_def]; rfl
  | cons a as ih =>
      obtain ⟨name, value⟩ := a
      have ha := has _ List.mem_cons_self
      rw [Spelled.isPlain, Bool.and_eq_true] at ha
      obtain ⟨raws, hraws, hspelled⟩ := ih fun b hb => has b (List.mem_cons_of_mem _ hb)
      obtain ⟨c, t, hname, hstart, -⟩ := exists_cons_spelling ha.1
      obtain ⟨raw, hraw, hspell⟩ := scanAttribute_append ha.1 ha.2
        (writeSpelled as ++ (tagEnd isWhole ++ s))
      have hskip : skipSpace (name.spelling ++ ['=', '"'] ++ escapeValue value
            ++ '"' :: (writeSpelled as ++ (tagEnd isWhole ++ s)))
          = name.spelling ++ ['=', '"'] ++ escapeValue value
            ++ '"' :: (writeSpelled as ++ (tagEnd isWhole ++ s)) := by
        apply dropWhile_eq_self
        intro d hd
        rw [hname] at hd
        obtain rfl : c = d := by simpa using hd
        exact isXmlSpace_of_isNameStart hstart
      have hwrite : writeSpelled ((name, value) :: as) ++ (tagEnd isWhole ++ s)
          = ' ' :: (name.spelling ++ ['=', '"'] ++ escapeValue value
            ++ '"' :: (writeSpelled as ++ (tagEnd isWhole ++ s))) := by
        simp [writeSpelled, writeAttribute]
      refine ⟨raw :: raws, ?_, by rw [List.map_cons, hspell, hspelled]⟩
      rw [hwrite, scanAttributes.eq_def]
      simp only
      rw [if_pos, hskip, hraw]
      · simp only
        rw [hraws]
        rfl
      · rw [hskip, hname]
        simp [hstart, isXmlSpace]

-- ================================================================== tags

/-- A written start tag is read back behind its bracket. -/
theorem scanStartTag_append {name : RawName} {as : List Spelled}
    (hn : name.isWordy = true) (has : ∀ a ∈ as, a.isPlain = true)
    (isWhole : Bool) (s : Text) :
    ∃ raws, scanStartTag (name.spelling ++ (writeSpelled as ++ (tagEnd isWhole ++ s)))
        = .found { name := name, attrs := raws, isWhole := isWhole } s
      ∧ raws.map RawAttribute.spelled = as := by
  have hends : endsName (writeSpelled as ++ (tagEnd isWhole ++ s)) := by
    intro c hc
    cases as with
    | nil =>
        cases isWhole with
        | false =>
            obtain rfl : '>' = c := by simpa [writeSpelled, tagEnd] using hc
            decide
        | true =>
            obtain rfl : ' ' = c := by simpa [writeSpelled, tagEnd] using hc
            decide
    | cons a as =>
        obtain rfl : ' ' = c := by
          simpa [writeSpelled, writeAttribute] using hc
        decide
  obtain ⟨raws, hraws, hspelled⟩ := scanAttributes_append has isWhole s
  refine ⟨raws, ?_, hspelled⟩
  unfold scanStartTag
  rw [scanName_append hn hends, Scan.andThen, hraws]
  rfl

/-- What a bracket begins is a start tag if a name follows it. -/
theorem scanBracketed_append {name : RawName} (hn : name.isWordy = true)
    (source : Source) (s : Text) :
    scanBracketed source (name.spelling ++ s)
      = (scanStartTag (name.spelling ++ s)).map .startTag := by
  obtain ⟨c, t, hname, hstart, -⟩ := exists_cons_spelling hn
  have hne : ∀ d, isNameStart d = false → c ≠ d := fun d hd =>
    ne_of_isNameStart hstart hd
  have hmark := hne '!' (by decide)
  have hask := hne '?' (by decide)
  have hslash := hne '/' (by decide)
  rw [hname, List.cons_append]
  unfold scanBracketed
  split <;> simp_all

/-- A written end tag is read back behind its bracket. -/
theorem scanBracketed_endTag {name : RawName} (hn : name.isWordy = true)
    (source : Source) (s : Text) :
    scanBracketed source ('/' :: (name.spelling ++ '>' :: s))
      = .found (.endTag name.spelling (name.spelling ++ '>' :: s)) s := by
  obtain ⟨c, t, hname, hstart, hrest⟩ := exists_cons_spelling hn
  have hstop : ∀ d ∈ ('>' :: s).head?, (isNameChar d || d == ':') = false := by
    intro d hd
    obtain rfl : '>' = d := by simpa using hd
    decide
  have htake := takeWhile_append_eq hrest hstop
  have hdrop := dropWhile_append_eq hrest hstop
  rw [hname]
  unfold scanBracketed scanEndTag
  simp only [List.cons_append]
  rw [if_pos hstart, htake, hdrop]
  rfl

end FreeLabel.Markup
