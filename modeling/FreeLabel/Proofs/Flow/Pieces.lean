/-
A line is taken apart without loss.

# Parts

A piece does not tell what it takes up of its line: a diamond is spelled in
many ways. So a line is cut into parts, each of them a piece and the text
that it takes up (`Cut`). The texts, one behind the other, are the line,
and each is a spelling of its piece. A token that a source spells out, an
arrow or a reference, is moreover spelled as arrows and references are;
otherwise a scanner that took the whole line for one reference would do as
well.

# What is dropped

`Unopened` says of a text that no token begins it, without reading it: what
could begin one is missing, or it is a bracket or quote that is not closed.
Exactly then nothing is read (`read?_eq_none_iff`), so a character is
dropped only for that reason.

# Places

Every place of a line is in exactly one part (`exists_covers`). The text of
a blank or of a dropped character is that one character, so what is neither
stands in a token, and in one only.
-/
import Mathlib.Data.List.Infix
import FreeLabel.Proofs.Flow.References

namespace FreeLabel.Flow

-- ======================================================== where none begins

/-- No token begins a text. It begins with no shaft and no name, and if it
begins with a brace, a quote, or a parenthesis and a quote, these are not
closed. -/
structure Unopened (s : Text) : Prop where
  shaft : ∀ m ∈ shaftMarks, ¬ m <+: s
  brace : ∀ t, s = '{' :: t → '}' ∉ t
  quote : ∀ t, s = '"' :: t → '"' ∉ t
  parenthesis : ∀ t, s = '(' :: '"' :: t → ¬ ['"', ')'] <:+: t
  name : ∀ c ∈ s.head?, isAsciiLetter c = false ∧ c ≠ '_'

variable {s : Text}

namespace Token

theorem arrow?_eq_none_iff : arrow? s = none ↔ ∀ m ∈ shaftMarks, ¬ m <+: s := by
  rw [arrow?, Option.map_eq_none_iff, Arrow.read?_eq_none_iff]

theorem diamond?_eq_none_iff : diamond? s = none ↔ ∀ t, s = '{' :: t → '}' ∉ t := by
  fun_cases diamond? s
  case case1 t =>
    rw [Option.map_eq_none_iff, Text.cut?_eq_none_iff, List.singleton_infix_iff]
    simp
  case case2 hother => exact iff_of_true rfl fun t heq => (hother t heq).elim

theorem rectangle?_eq_none_iff : rectangle? s = none ↔ ∀ t, s = '"' :: t → '"' ∉ t := by
  fun_cases rectangle? s
  case case1 t =>
    rw [Option.map_eq_none_iff, Text.cut?_eq_none_iff, List.singleton_infix_iff]
    simp
  case case2 hother => exact iff_of_true rfl fun t heq => (hother t heq).elim

theorem rounded?_eq_none_iff :
    rounded? s = none ↔ ∀ t, s = '(' :: '"' :: t → ¬ ['"', ')'] <:+: t := by
  fun_cases rounded? s
  case case1 t =>
    rw [Option.map_eq_none_iff, Text.cut?_eq_none_iff]
    simp
  case case2 hother => exact iff_of_true rfl fun t heq => (hother t heq).elim

theorem reference?_eq_none_iff :
    reference? s = none ↔ ∀ c ∈ s.head?, isAsciiLetter c = false ∧ c ≠ '_' := by
  cases s with
  | nil => simp [reference?]
  | cons c s => simp [reference?]

/-- Nothing is read exactly where no token begins. -/
theorem read?_eq_none_iff : read? s = none ↔ Unopened s := by
  simp only [read?, Option.orElse_eq_orElse, Option.orElse_eq_or, Option.or_eq_none_iff]
  rw [arrow?_eq_none_iff, diamond?_eq_none_iff, rectangle?_eq_none_iff, rounded?_eq_none_iff,
    reference?_eq_none_iff]
  constructor
  · rintro ⟨shaft, brace, quote, parenthesis, name⟩
    exact ⟨shaft, brace, quote, parenthesis, name⟩
  · intro h
    exact ⟨h.shaft, h.brace, h.quote, h.parenthesis, h.name⟩

/-- A token that a source spells out is spelled as its kind is. -/
def Formed : Token → Prop
  | arrow w => IsArrow w
  | reference w => IsReference w
  | node _ _ => True

theorem formed_of_read? {t : Token} {rest : Text} (h : read? s = some (t, rest)) :
    t.Formed := by
  cases t with
  | arrow w => exact isArrow_of_read? h
  | reference w => exact isReference_of_read? h
  | node shape label => trivial

end Token

-- ================================================================== parts

/-- How a piece may be written. -/
inductive Piece.Spelled : Piece → Text → Prop
  | blank {c : Char} (hc : isBlank c = true) : Spelled (.blank c) [c]
  | stray {c : Char} (hc : isBlank c = false) : Spelled (.stray c) [c]
  | token {t : Token} {w : Text} (hw : t.Spelled w) (hne : w ≠ []) (ht : t.Formed) :
      Spelled (.token t) w

theorem Piece.Spelled.ne_nil {q : Piece} {w : Text} (h : q.Spelled w) : w ≠ [] := by
  cases h with
  | blank hc => exact List.cons_ne_nil _ _
  | stray hc => exact List.cons_ne_nil _ _
  | token hw hne ht => exact hne

/-- A piece with what it takes up of its line. -/
structure Part where
  /-- The piece. -/
  piece : Piece
  /-- The text that it takes up. -/
  text : Text

namespace Part

/-- The token that a part is. -/
def token? (p : Part) : Option Token := p.piece.token?

/-- The character that a part drops. -/
def stray? (p : Part) : Option Char := p.piece.stray?

/-- The text of parts, one behind the other. -/
def join (ps : List Part) : Text := ps.flatMap Part.text

theorem join_cons (p : Part) (ps : List Part) : join (p :: ps) = p.text ++ join ps :=
  List.flatMap_cons

end Part

open FreeLabel.Flow.Part (join join_cons)

/-- The parts that a line is cut into. Where one drops a character, no
token begins. -/
structure Cut (line : Text) (ps : List Part) : Prop where
  pieces : ps.map Part.piece = scan line
  joined : join ps = line
  spelled : ∀ p ∈ ps, p.piece.Spelled p.text
  dropped : ∀ p rest, p :: rest <:+ ps → p.stray?.isSome = true → Unopened (join (p :: rest))

variable {line w rest : Text} {p : Part} {ps : List Part} {c : Char} {i j k : Nat}

theorem cut_nil : Cut [] [] where
  pieces := by
    unfold scan
    rfl
  joined := rfl
  spelled := by simp
  dropped := by simp

/-- A line with one more part in front. -/
theorem Cut.cons (h : Cut rest ps) (hpiece : scan (p.text ++ rest) = p.piece :: scan rest)
    (hspelled : p.piece.Spelled p.text)
    (hdropped : p.stray?.isSome = true → Unopened (p.text ++ rest)) :
    Cut (p.text ++ rest) (p :: ps) where
  pieces := by rw [List.map_cons, h.pieces, hpiece]
  joined := by rw [join_cons, h.joined]
  spelled := List.forall_mem_cons.2 ⟨hspelled, h.spelled⟩
  dropped := by
    intro q after hsuffix
    rcases List.suffix_cons_iff.1 hsuffix with heq | hsuffix
    · obtain ⟨rfl, rfl⟩ := List.cons.inj heq
      rw [join_cons, h.joined]
      exact hdropped
    · exact h.dropped q after hsuffix

/-- Every line is cut, by induction on the scan. -/
theorem exists_cut (line : Text) : ∃ ps, Cut line ps := by
  fun_induction scan line with
  | case1 => exact ⟨[], cut_nil⟩
  | case2 c s hblank ih =>
      obtain ⟨ps, hcut⟩ := ih
      have hfirst := hcut.cons (p := ⟨.blank c, [c]⟩) (scan_blank hblank s) (.blank hblank)
      exact ⟨_, hfirst fun hstray => by cases hstray⟩
  | case3 c s hblank t rest hread ih =>
      have hc : isBlank c = false := by simpa using hblank
      obtain ⟨w, hspelled, hne, hline⟩ := Token.read?_spelled hread
      have hscan := scan_token hc hread
      obtain ⟨ps, hcut⟩ := ih
      rw [hline] at hscan ⊢
      have hfirst := hcut.cons (p := ⟨.token t, w⟩) hscan
        (.token hspelled hne (Token.formed_of_read? hread))
      exact ⟨_, hfirst fun hstray => by cases hstray⟩
  | case4 c s hblank hread ih =>
      have hc : isBlank c = false := by simpa using hblank
      obtain ⟨ps, hcut⟩ := ih
      have hfirst := hcut.cons (p := ⟨.stray c, [c]⟩) (scan_stray hc hread) (.stray hc)
      exact ⟨_, hfirst fun _ => Token.read?_eq_none_iff.1 hread⟩

-- ================================================================= places

/-- The place `i` of a line is in part `k`. -/
def Covers (ps : List Part) (k i : Nat) : Prop :=
  (join (ps.take k)).length ≤ i ∧ i < (join (ps.take (k + 1))).length

theorem covers_zero : Covers (p :: ps) 0 i ↔ i < p.text.length := by
  simp [Covers, join]

theorem covers_succ :
    Covers (p :: ps) (k + 1) i ↔ p.text.length ≤ i ∧ Covers ps k (i - p.text.length) := by
  unfold Covers
  simp only [List.take_succ_cons, join_cons, List.length_append]
  omega

/-- Every place is in exactly one part. -/
theorem exists_covers (hi : i < (join ps).length) :
    ∃ k, Covers ps k i ∧ ∀ j, Covers ps j i → j = k := by
  induction ps generalizing i with
  | nil => cases hi
  | cons p ps ih =>
      rw [join_cons, List.length_append] at hi
      by_cases hfirst : i < p.text.length
      · refine ⟨0, covers_zero.2 hfirst, ?_⟩
        intro j hj
        cases j with
        | zero => rfl
        | succ j =>
            have := (covers_succ.1 hj).1
            omega
      · obtain ⟨k, hk, honly⟩ := ih (i := i - p.text.length) (by omega)
        refine ⟨k + 1, covers_succ.2 ⟨by omega, hk⟩, ?_⟩
        intro j hj
        cases j with
        | zero => exact absurd (covers_zero.1 hj) hfirst
        | succ j => rw [honly j (covers_succ.1 hj).2]

/-- What stands at a place stands in the part that it is in. -/
theorem Covers.exists_part (h : Covers ps k i) (hc : (join ps)[i]? = some c) :
    ∃ p, ps[k]? = some p ∧ c ∈ p.text := by
  induction ps generalizing k i with
  | nil => cases hc
  | cons p ps ih =>
      rw [join_cons] at hc
      cases k with
      | zero =>
          rw [List.getElem?_append_left (covers_zero.1 h)] at hc
          exact ⟨p, rfl, List.mem_of_getElem? hc⟩
      | succ k =>
          obtain ⟨hle, hrest⟩ := covers_succ.1 h
          rw [List.getElem?_append_right hle] at hc
          exact ih hrest hc

/-- A part takes up a character at least. -/
theorem length_le_join (h : ∀ p ∈ ps, p.piece.Spelled p.text) :
    ps.length ≤ (join ps).length := by
  induction ps with
  | nil => exact Nat.le_refl _
  | cons p ps ih =>
      obtain ⟨hp, hps⟩ := List.forall_mem_cons.1 h
      have hrest := ih hps
      have hpos := List.length_pos_iff.2 hp.ne_nil
      rw [join_cons, List.length_append, List.length_cons]
      omega

namespace Cut

theorem tokens_eq (h : Cut line ps) : ps.filterMap Part.token? = tokens line := by
  rw [tokens, ← h.pieces, List.filterMap_map]
  rfl

theorem strays_eq (h : Cut line ps) : ps.filterMap Part.stray? = strays line := by
  rw [strays, ← h.pieces, List.filterMap_map]
  rfl

/-- What is dropped is no blank. -/
theorem isBlank_of_mem_strays (h : Cut line ps) (hc : c ∈ strays line) : isBlank c = false := by
  rw [← h.strays_eq] at hc
  obtain ⟨⟨piece, w⟩, hp, hstray⟩ := List.mem_filterMap.1 hc
  have hspelled := h.spelled _ hp
  cases hspelled with
  | blank => cases hstray
  | stray hd =>
      cases hstray
      exact hd
  | token => cases hstray

/-- What is no blank stands in a token, unless it is dropped. -/
theorem exists_token (h : Cut line ps) (hstrays : strays line = []) (hk : Covers ps k i)
    (hi : (join ps)[i]? = some c) (hc : isBlank c = false) :
    ∃ t w, ps[k]? = some ⟨.token t, w⟩ := by
  obtain ⟨⟨piece, w⟩, hpart, hmem⟩ := hk.exists_part hi
  have hp := List.mem_of_getElem? hpart
  have hspelled := h.spelled _ hp
  cases hspelled with
  | blank hblank =>
      rw [List.mem_singleton.1 hmem, hblank] at hc
      cases hc
  | stray =>
      have hdropped : _ ∈ ps.filterMap Part.stray? := List.mem_filterMap.2 ⟨_, hp, rfl⟩
      rw [h.strays_eq, hstrays] at hdropped
      cases hdropped
  | token => exact ⟨_, w, hpart⟩

end Cut

/-- Nothing of a line is lost. The line is, in order, the texts of its
parts, of which there are no more than characters: blanks, dropped
characters and spellings of tokens, and the dropped characters and the
tokens are, in order, the ones that reading the line gives. A dropped
character is no blank, and none is dropped where a token begins. Every
place of the line is in exactly one part; if nothing is dropped, what is no
blank is in exactly one token. -/
theorem scan_loses_nothing (s : Text) :
    ∃ ps : List Part,
      join ps = s ∧ ps.length ≤ s.length
        ∧ (∀ p ∈ ps, p.piece.Spelled p.text)
        ∧ ps.filterMap Part.token? = tokens s
        ∧ ps.filterMap Part.stray? = strays s
        ∧ (∀ c ∈ strays s, isBlank c = false)
        ∧ (∀ p rest, p :: rest <:+ ps → p.stray?.isSome = true → Unopened (join (p :: rest)))
        ∧ (∀ i < s.length, ∃ k, Covers ps k i ∧ ∀ j, Covers ps j i → j = k)
        ∧ (strays s = [] → ∀ i c, s[i]? = some c → isBlank c = false →
            ∃ k, Covers ps k i ∧ (∃ t w, ps[k]? = some ⟨.token t, w⟩)
              ∧ ∀ j, Covers ps j i → j = k) := by
  obtain ⟨ps, hcut⟩ := exists_cut s
  have hplaces : ∀ i < s.length, ∃ k, Covers ps k i ∧ ∀ j, Covers ps j i → j = k :=
    fun i hi => exists_covers (hcut.joined.symm ▸ hi)
  refine ⟨ps, hcut.joined, ?few, hcut.spelled, hcut.tokens_eq, hcut.strays_eq,
    fun c => hcut.isBlank_of_mem_strays, hcut.dropped, hplaces, ?tokens⟩
  case few =>
    have hlength := length_le_join hcut.spelled
    rwa [hcut.joined] at hlength
  case tokens =>
    intro hstrays i c hi hc
    obtain ⟨hlt, -⟩ := List.getElem?_eq_some_iff.1 hi
    obtain ⟨k, hk, honly⟩ := hplaces i hlt
    rw [← hcut.joined] at hi
    exact ⟨k, hk, hcut.exists_token hstrays hk hi hc, honly⟩

end FreeLabel.Flow
