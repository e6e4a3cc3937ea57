/-
The row of a line's tokens, read again.

A row is the spellings of its tokens with spaces between them, and each
spelling is read as one token where a space follows or nothing does
(`Token.Stands`): an arrow as the arrow, and a node, which then has an
identifier, as a reference. So a row that begins with a node is read as its
tokens, one after the other, and nothing of it is dropped (`reads_row`).

Two things are left out. A label with a quote would end its node early. An
arrow that a row begins with brings a space along, which is read as a part
of the indent and so comes once more when the line is laid out again.
-/
import FreeLabel.Proofs.Flow.Translation

namespace FreeLabel.Flow

open Naming (isIdentifier)
open Text (trim)

-- ================================================================ tokens

/-- A text that is read as a token where a space follows or nothing. -/
structure Token.Stands (t : Token) (w : Text) : Prop where
  isWord : IsWord w
  read : ∀ rest, Apart rest → Token.read? (w ++ rest) = some (t, rest)

/-- A token as it is read again from a row: with single spaces, and a node
under its identifier. -/
def Token.again (ids : Text → Text) : Token → Token
  | .arrow spelling => .arrow (squeeze spelling)
  | t => .reference (squeeze (t.written ids))

variable {ids : Text → Text} {line : Text} {t : Token} {ts : List Token}

theorem isArrow_again (ids : Text → Text) (t : Token) : (t.again ids).isArrow = t.isArrow := by
  cases t <;> rfl

theorem labels_again (ids : Text → Text) (t : Token) : (t.again ids).labels = [] := by
  cases t <;> rfl

theorem written_again (ids : Text → Text) (t : Token) :
    (t.again ids).written ids = squeeze (t.written ids) := by
  cases t <;> rfl

/-- What a token is written as. -/
theorem isArrow_or_isReference_written (hids : ∀ label, isIdentifier (ids label) = true)
    (ht : t ∈ tokens line) (hquote : ∀ label ∈ t.labels, '"' ∉ label) :
    t.isArrow = true ∧ IsArrow (t.written ids)
      ∨ t.isArrow = false ∧ IsReference (t.written ids) := by
  obtain ⟨s, rest, hread, -⟩ := exists_read?_of_mem_tokens ht
  cases t with
  | arrow spelling => exact .inl ⟨rfl, isArrow_of_read? hread⟩
  | reference spelling => exact .inr ⟨rfl, isReference_of_read? hread⟩
  | node shape label =>
      exact .inr ⟨rfl, .labelled (isName_of_isIdentifier (hids label)) shape.bracket
        (hquote label List.mem_cons_self)⟩

theorem isWord_written (hids : ∀ label, isIdentifier (ids label) = true)
    (ht : t ∈ tokens line) : IsWord (t.written ids) := by
  obtain ⟨s, rest, hread, -⟩ := exists_read?_of_mem_tokens ht
  cases t with
  | arrow spelling => exact (isArrow_of_read? hread).isWord
  | reference spelling => exact (isReference_of_read? hread).isWord
  | node shape label =>
      refine ⟨?_, trim_node (hids label) _ _⟩
      simp [Token.written, (Naming.isIdentChar_of_isIdentifier (hids label)).1]

/-- A token of a line is read again from its spelling with single
spaces. -/
theorem stands_again (hids : ∀ label, isIdentifier (ids label) = true)
    (ht : t ∈ tokens line) (hquote : ∀ label ∈ t.labels, '"' ∉ label) :
    (t.again ids).Stands (squeeze (t.written ids)) := by
  refine ⟨(isWord_written hids ht).squeeze, ?_⟩
  intro rest hrest
  rcases isArrow_or_isReference_written hids ht hquote with ⟨hkind, harrow⟩ | ⟨hkind, hreference⟩
  · obtain ⟨a, hspelling, hread, -⟩ := harrow.read?_squeeze
    have hagain : t.again ids = .arrow a.spelling := by
      cases t with
      | arrow spelling => exact congrArg Token.arrow hspelling.symm
      | reference spelling => cases hkind
      | node shape label => cases hkind
    rw [Token.read?, Token.arrow?, hread rest hrest, hagain]
    rfl
  · have hagain : t.again ids = .reference (squeeze (t.written ids)) := by
      cases t with
      | arrow spelling => cases hkind
      | reference spelling => rfl
      | node shape label => rfl
    rw [hagain]
    exact hreference.squeeze.read?_append hrest

-- ================================================================== rows

/-- A text is read as tokens, with nothing dropped. -/
structure Reads (s : Text) (ts : List Token) : Prop where
  tokens : Flow.tokens s = ts
  strays : Flow.strays s = []

theorem reads_nil : Reads [] [] where
  tokens := by
    unfold Flow.tokens scan
    rfl
  strays := by
    unfold Flow.strays scan
    rfl

theorem Reads.behind_blank {c : Char} {s : Text} (hc : isBlank c = true) (h : Reads s ts) :
    Reads (c :: s) ts := by
  have hscan := scan_blank hc s
  constructor
  · rw [← h.tokens, Flow.tokens, hscan]
    rfl
  · rw [← h.strays, Flow.strays, hscan]
    rfl

theorem Reads.behind_token {w rest : Text} (hw : t.Stands w) (hrest : Apart rest)
    (h : Reads rest ts) : Reads (w ++ rest) (t :: ts) := by
  have hread := hw.read rest hrest
  have hblank := (Text.trim_eq_self_iff.1 hw.isWord.trimmed).1
  cases w with
  | nil => exact absurd rfl hw.isWord.ne_nil
  | cons c w =>
      rw [List.cons_append] at hread ⊢
      have hscan := scan_token (hblank c rfl) hread
      constructor
      · rw [← h.tokens, Flow.tokens, hscan]
        rfl
      · rw [← h.strays, Flow.strays, hscan]
        rfl

/-- A row is read as its tokens, by induction on what stands behind the
first. -/
theorem reads_row (hts : ∀ u ∈ t :: ts, (u.again ids).Stands (squeeze (u.written ids))) :
    Reads (squeeze (t.written ids) ++ spaced (ts.map fun u => squeeze (u.written ids)))
      ((t :: ts).map (Token.again ids)) := by
  induction ts generalizing t with
  | nil => exact reads_nil.behind_token (hts t List.mem_cons_self) apart_nil
  | cons u ts ih =>
      obtain ⟨ht, hts⟩ := List.forall_mem_cons.1 hts
      exact ((ih hts).behind_blank (by decide)).behind_token ht (apart_space _)

end FreeLabel.Flow
