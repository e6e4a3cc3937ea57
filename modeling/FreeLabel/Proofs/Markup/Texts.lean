/-
Texts between tags are read back.

# What comes back

Any text may stand between two tags. What the writer makes of it holds no
bracket, so it ends where the next tag begins, and every character that
could begin markup has become a reference. The reader takes the text for
what it was except for its line ends, which it makes line feeds
(`readContent_escapeText`); and a text that holds a character which no
document may hold is refused wherever it stands
(`readContent_illegalText`). There is no third case.
-/
import FreeLabel.Markup.Reader
import FreeLabel.Markup.Writer
import FreeLabel.Proofs.Text.Utf8

namespace FreeLabel.Markup

open Text (normalizeLineEnds)

-- ========================================================== surroundings

/-- Where drawings are read: in a document without declarations. -/
structure Surroundings.Plain (w : Surroundings) : Prop where
  document : ∃ encoding tail, w.source = .document encoding tail
  declarations : w.declarations = {}

theorem Surroundings.Plain.before {w : Surroundings} (hw : w.Plain) (b : Budget)
    (rest : Text) : (w.before b rest).Plain := by
  obtain ⟨encoding, tail, hsource⟩ := hw.document
  have hbefore : w.before b rest = { w with read := Thunk.mk fun _ => b.read rest } := by
    unfold Surroundings.before
    rw [hsource]
  rw [hbefore]
  exact ⟨hw.document, hw.declarations⟩

theorem Surroundings.Plain.hasReturns {w : Surroundings} (hw : w.Plain) :
    w.source.hasReturns = true := by
  obtain ⟨encoding, tail, hsource⟩ := hw.document
  rw [hsource]
  rfl

-- ============================================================= characters

/-- What may follow a written text: something that neither ends a section
nor belongs to a line end before it. -/
def Bounds (s : Text) : Prop := ∃ c r, s = c :: r ∧ c ≠ ']' ∧ c ≠ '>' ∧ c ≠ '\n'

theorem bounds_bracket (s : Text) : Bounds ('<' :: s) :=
  ⟨'<', s, rfl, by decide, by decide, by decide⟩

/-- What is written for a character begins with no mark that could end a
section, and with a line feed only for a line feed. -/
theorem exists_cons_escapeTextChar (c : Char) :
    ∃ d r, escapeTextChar c = d :: r ∧ d ≠ '>' ∧ (d = '\n' → c = '\n') := by
  unfold escapeTextChar
  split
  · exact ⟨'&', _, rfl, by decide, by decide⟩
  · exact ⟨'&', _, rfl, by decide, by decide⟩
  · exact ⟨'&', _, rfl, by decide, by decide⟩
  · next hne => exact ⟨c, [], rfl, hne, id⟩

theorem escapeText_cons (c : Char) (t : Text) :
    escapeText (c :: t) = escapeTextChar c ++ escapeText t := List.flatMap_cons

/-- No written text makes the end of a section with what follows it. -/
theorem ne_sectionEnd {s : Text} (hs : Bounds s) (t : Text) :
    escapeText t ++ s ≠ [] ∧ escapeText t ++ s ≠ [']'] ∧
      ∀ r, escapeText t ++ s ≠ ']' :: '>' :: r := by
  obtain ⟨c, r, rfl, hsection, hangle, -⟩ := hs
  cases t with
  | nil =>
      refine ⟨by simp [escapeText], ?_, ?_⟩
      · intro heq
        exact hsection (by simpa [escapeText] using congrArg List.head? heq)
      · intro u heq
        exact hsection (by simpa [escapeText] using congrArg List.head? heq)
  | cons d t =>
      obtain ⟨e, u, hescape, -, -⟩ := exists_cons_escapeTextChar d
      rw [escapeText_cons, hescape]
      refine ⟨by simp, by simp, ?_⟩
      intro v heq
      have htail : u ++ escapeText t ++ c :: r = '>' :: v := by
        simpa using congrArg List.tail heq
      have hsingle : u = [] := by
        have hhead : e = ']' := by simpa using congrArg List.head? heq
        revert hescape
        unfold escapeTextChar
        split <;> simp_all
      subst hsingle
      cases t with
      | nil => exact hangle (by simpa [escapeText] using congrArg List.head? htail)
      | cons f t =>
          obtain ⟨g, x, hnext, hne, -⟩ := exists_cons_escapeTextChar f
          rw [escapeText_cons, hnext] at htail
          exact hne (by simpa using congrArg List.head? htail)

theorem dropLineFeed_escapeText {s : Text} (hs : Bounds s) {t : Text}
    (ht : ∀ r, t ≠ '\n' :: r) : dropLineFeed (escapeText t ++ s) = escapeText t ++ s := by
  have hhead : ∀ r, escapeText t ++ s ≠ '\n' :: r := by
    intro r heq
    cases t with
    | nil =>
        obtain ⟨c, u, rfl, -, -, hfeed⟩ := hs
        exact hfeed (by simpa [escapeText] using congrArg List.head? heq)
    | cons d t =>
        obtain ⟨e, u, hescape, -, hfeed⟩ := exists_cons_escapeTextChar d
        rw [escapeText_cons, hescape] at heq
        have he : e = '\n' := by simpa using congrArg List.head? heq
        exact ht t (by rw [hfeed he])
  unfold dropLineFeed
  split
  · next r heq => exact absurd heq (hhead r)
  · rfl

-- ========================================================= single readings

variable {w : Surroundings} {b : Budget} {f : Frame} {outer : List Frame}

/-- A character that begins nothing is read as it is. -/
theorem readContent_char {c : Char} {s : Text} (hbracket : c ≠ '<') (hamp : c ≠ '&')
    (hreturn : c ≠ '\r') (hxml : isXmlChar c = true) (hempty : s ≠ [])
    (hend : s ≠ [']']) (hsection : ∀ r, s ≠ ']' :: '>' :: r) :
    readContent w b f outer (c :: s) = readContent w b (f.push c) outer s := by
  rw [readContent.eq_def]
  split
  · next heq => cases heq
  · next heq => exact absurd (List.cons.inj heq).2 hempty
  · next heq => exact absurd (List.cons.inj heq).2 hend
  · next r heq => exact absurd (List.cons.inj heq).2 (hsection r)
  · next heq =>
      obtain ⟨rfl, rfl⟩ := List.cons.inj heq
      rw [if_neg hbracket, if_neg hamp, hxml, if_neg (by simp), if_neg (by simp [hreturn])]

/-- A line end is read as a line feed. -/
theorem readContent_return (hw : w.Plain) {s : Text} (hs : s ≠ []) :
    readContent w b f outer ('\r' :: s)
      = readContent w b (f.push '\n') outer (dropLineFeed s) := by
  rw [readContent, if_neg (by decide), if_neg (by decide), if_neg (by decide),
    if_pos (by simp [hw.hasReturns]), if_neg hs]
  all_goals simp

/-- A reference to one of the characters that every document may name is
read as that character. -/
theorem readContent_named {s rest : Text} (name : Text) {c : Char}
    (hscan : scanReference s = .found (.entity name) rest)
    (hname : namedChar? name = some c) :
    readContent w b f outer ('&' :: s) = readContent w b (f.push c) outer rest := by
  have hrefer : (w.before b rest).referent b (.entity name) = .ok (.char c) := by
    simp [Surroundings.referent, hname]
  rw [readContent, if_neg (by decide), if_pos rfl]
  · split
    · next r rest' hfound =>
        rw [hscan] at hfound
        cases hfound
        split
        · next hr =>
            rw [hrefer] at hr
            cases hr
        · next hr =>
            rw [hrefer] at hr
            cases hr
            rfl
        · next hr =>
            rw [hrefer] at hr
            cases hr
    · next hnone => exact absurd hscan (hnone _ _)
  all_goals simp

/-- No document holds a character that none may hold. -/
theorem readContent_illegalChar {c : Char} (hc : isXmlChar c = false) (s : Text) :
    ∃ flaw, readContent w b f outer (c :: s) = .error flaw := by
  have hne : ∀ d, isXmlChar d = true → c ≠ d := by
    intro d hd heq
    rw [heq, hd] at hc
    cases hc
  have hsection := hne ']' (by decide)
  have hbracket := hne '<' (by decide)
  have hamp := hne '&' (by decide)
  refine ⟨{ fault := .invalidToken, place := c :: s }, ?_⟩
  rw [readContent.eq_def]
  split
  · next heq => cases heq
  · next heq => exact absurd (List.cons.inj heq).1 hsection
  · next heq => exact absurd (List.cons.inj heq).1 hsection
  · next heq => exact absurd (List.cons.inj heq).1 hsection
  · next heq =>
      obtain ⟨rfl, rfl⟩ := List.cons.inj heq
      rw [if_neg hbracket, if_neg hamp, hc, if_pos (by simp)]

/-- A character other than a line end is read back from what is written
for it. -/
theorem readContent_escapeTextChar {s : Text} (hs : Bounds s) {c : Char}
    (hreturn : c ≠ '\r') (hxml : isXmlChar c = true) (t : Text) :
    readContent w b f outer (escapeTextChar c ++ (escapeText t ++ s))
      = readContent w b (f.push c) outer (escapeText t ++ s) := by
  obtain ⟨hempty, hend, hsection⟩ := ne_sectionEnd hs t
  unfold escapeTextChar
  split
  · exact readContent_named "amp".toList rfl (by decide)
  · exact readContent_named "lt".toList rfl (by decide)
  · exact readContent_named "gt".toList rfl (by decide)
  · next hamp hbracket _ =>
      exact readContent_char hbracket hamp hreturn hxml hempty hend hsection

-- ================================================================== texts

/-- Whether a document may hold a text. -/
def isXmlText (t : Text) : Bool := t.all isXmlChar

theorem isXmlText_normalizeLineEnds {t : Text} (h : isXmlText t = true) :
    isXmlText (normalizeLineEnds t) = true := by
  fun_induction normalizeLineEnds t with
  | case1 => rfl
  | case2 t ih =>
      simp only [isXmlText, List.all_cons, Bool.and_eq_true] at h ⊢
      exact ⟨h.2.1, ih h.2.2⟩
  | case3 c t _ ih =>
      simp only [isXmlText, List.all_cons, Bool.and_eq_true] at h ⊢
      refine ⟨?_, ih h.2⟩
      split
      · decide
      · exact h.1

theorem Frame.pushAll_cons (f : Frame) (c : Char) (t : Text) :
    f.pushAll (c :: t) = (f.push c).pushAll t := by
  simp [Frame.pushAll, Frame.push]

/-- A written text is read back, with line feeds for its line ends. -/
theorem readContent_escapeText (hw : w.Plain) {s : Text} (hs : Bounds s) {t : Text}
    (ht : isXmlText t = true) :
    readContent w b f outer (escapeText t ++ s)
      = readContent w b (f.pushAll (normalizeLineEnds t)) outer s := by
  fun_induction normalizeLineEnds t generalizing f with
  | case1 => rfl
  | case2 t ih =>
      have ht' : isXmlText t = true := by
        simp only [isXmlText, List.all_cons, Bool.and_eq_true] at ht
        exact ht.2.2
      have hne : escapeText ('\n' :: t) ++ s ≠ [] := (ne_sectionEnd hs _).1
      rw [escapeText_cons, show escapeTextChar '\r' = ['\r'] from rfl,
        List.append_assoc, List.singleton_append, readContent_return hw hne,
        escapeText_cons, Frame.pushAll_cons]
      exact ih ht'
  | case3 c t hover ih =>
      simp only [isXmlText, List.all_cons, Bool.and_eq_true] at ht
      rw [escapeText_cons, List.append_assoc, Frame.pushAll_cons]
      by_cases hc : c = '\r'
      · subst hc
        have hne : escapeText t ++ s ≠ [] := (ne_sectionEnd hs t).1
        have hfeed : ∀ r, t ≠ '\n' :: r := fun r hr => hover r rfl hr
        rw [show escapeTextChar '\r' = ['\r'] from rfl, List.singleton_append,
          readContent_return hw hne, dropLineFeed_escapeText hs hfeed, if_pos rfl]
        exact ih ht.2
      · rw [readContent_escapeTextChar hs hc ht.1, if_neg hc]
        exact ih ht.2

/-- A text with a character that no document may hold is not read. -/
theorem readContent_illegalText (hw : w.Plain) {t : Text}
    (ht : isXmlText t = false) (s : Text) :
    ∃ flaw, readContent w b f outer (escapeText t ++ s) = .error flaw := by
  -- what comes before the first such character is read
  obtain ⟨c, hmem, hc⟩ : ∃ c ∈ t, isXmlChar c = false := by
    simpa [isXmlText] using ht
  have hfind : ∃ before after, t = before ++ after ∧ isXmlText before = true ∧
      ∃ d u, after = d :: u ∧ isXmlChar d = false := by
    refine ⟨t.takeWhile isXmlChar, t.dropWhile isXmlChar,
      List.takeWhile_append_dropWhile.symm, ?_, ?_⟩
    · exact List.all_takeWhile
    · cases hrest : t.dropWhile isXmlChar with
      | nil =>
          have hsplit := List.takeWhile_append_dropWhile (p := isXmlChar) (l := t)
          rw [hrest, List.append_nil] at hsplit
          have := List.all_eq_true.1 List.all_takeWhile c (hsplit ▸ hmem)
          rw [hc] at this
          cases this
      | cons d u =>
          refine ⟨d, u, rfl, ?_⟩
          have := List.head?_dropWhile_not isXmlChar t
          rw [hrest] at this
          simpa using this
  obtain ⟨before, _, rfl, hbefore, d, u, rfl, hd⟩ := hfind
  have hne : ∀ e, isXmlChar e = true → d ≠ e := by
    intro e he heq
    rw [heq, he] at hd
    cases hd
  have hescape : escapeTextChar d = [d] := by
    unfold escapeTextChar
    split
    · exact absurd rfl (hne '&' (by decide))
    · exact absurd rfl (hne '<' (by decide))
    · exact absurd rfl (hne '>' (by decide))
    · rfl
  have hbounds : Bounds (d :: (escapeText u ++ s)) :=
    ⟨d, _, rfl, hne ']' (by decide), hne '>' (by decide), hne '\n' (by decide)⟩
  have hsplit : escapeText (before ++ d :: u) ++ s
      = escapeText before ++ d :: (escapeText u ++ s) := by
    have happend : escapeText (before ++ d :: u)
        = escapeText before ++ escapeText (d :: u) := List.flatMap_append
    rw [happend, escapeText_cons, hescape, List.append_assoc]
    rfl
  rw [hsplit, readContent_escapeText hw hbounds hbefore]
  exact readContent_illegalChar hd _

end FreeLabel.Markup
