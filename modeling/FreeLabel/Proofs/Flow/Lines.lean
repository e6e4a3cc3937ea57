/-
The lines of a compiled flowchart. Each is what one line of the source
became, under the same number, since no line feed gets into a line
(`numberedLines_diagram`).

A line that is rewritten keeps its indent, and behind that it holds the
spellings of its tokens with single spaces between them
(`trim_diagramLine`).
-/
import FreeLabel.Proofs.Flow.Capture
import FreeLabel.Proofs.Flow.Rows

namespace FreeLabel.Flow

open Naming (isIdentifier)
open Text (trim indent)

variable {ids : Text → Text} {line : Text} {t : Token} {ts : List Token}

-- ============================================================== one line

/-- A line with tokens is one that is rewritten. -/
theorem of_lineTokens (h : lineTokens line = t :: ts) :
    isKept (trim line) = false ∧ tokens (trim line) = t :: ts := by
  unfold lineTokens at h
  split at h
  next => cases h
  next hkept => exact ⟨by simpa using hkept, h⟩

/-- The words of tokens, as they stand in a row. -/
def rowWords (ids : Text → Text) (ts : List Token) : List Text :=
  ts.map fun t => squeeze (t.written ids)

/-- What a line becomes that holds a token. -/
theorem diagramLine_eq (hids : ∀ label, isIdentifier (ids label) = true)
    (htokens : lineTokens line = t :: ts) :
    diagramLine ids line
      = indent line ++ (if t.isArrow then [' '] else [])
        ++ (squeeze (t.written ids) ++ spaced (rowWords ids ts)
          ++ trail t.isArrow (ts.map fun t => (t.isArrow, t.written ids))) := by
  obtain ⟨hkept, htokens⟩ := of_lineTokens htokens
  have hwords : ∀ u ∈ t :: ts, IsWord (u.written ids) :=
    fun u hu => isWord_written hids (htokens ▸ hu)
  have hrest : ∀ e ∈ ts.map (fun u => (u.isArrow, u.written ids)), IsWord e.2 := by
    intro e he
    obtain ⟨u, hu, rfl⟩ := List.mem_map.1 he
    exact hwords u (List.mem_cons_of_mem t hu)
  rw [diagramLine, hkept, htokens, List.map_cons]
  show indent line ++ squeeze (layOut false ((t.isArrow, t.written ids) :: _)) = _
  rw [squeeze_layOut (hwords t List.mem_cons_self) hrest, List.map_map]
  simp only [List.append_assoc]
  rfl

/-- The words of a line are one. -/
theorem isWord_row (hids : ∀ label, isIdentifier (ids label) = true)
    (htokens : lineTokens line = t :: ts) :
    IsWord (squeeze (t.written ids) ++ spaced (rowWords ids ts)) := by
  have hwords : ∀ u ∈ t :: ts, IsWord (squeeze (u.written ids)) := fun u hu =>
    (isWord_written hids ((of_lineTokens htokens).2 ▸ hu)).squeeze
  refine (hwords t List.mem_cons_self).append_spaced ?_
  intro w hw
  obtain ⟨u, hu, rfl⟩ := List.mem_map.1 hw
  exact hwords u (List.mem_cons_of_mem t hu)

/-- What a line becomes, trimmed. -/
theorem trim_diagramLine (hids : ∀ label, isIdentifier (ids label) = true)
    (htokens : lineTokens line = t :: ts) :
    trim (diagramLine ids line) = squeeze (t.written ids) ++ spaced (rowWords ids ts) := by
  rw [diagramLine_eq hids htokens]
  refine Text.trim_append ?_ isBlank_of_mem_trail (isWord_row hids htokens).trimmed
  intro c hc
  rcases List.mem_append.1 hc with hc | hc
  · exact Text.isBlank_of_mem_indent line c hc
  · split at hc
    next => exact Text.isBlank_of_mem_space c hc
    next => cases hc

/-- A line keeps its indent, unless an arrow brings a space along. -/
theorem indent_diagramLine (hids : ∀ label, isIdentifier (ids label) = true)
    (htokens : lineTokens line = t :: ts) (hfirst : t.isArrow = false) :
    indent (diagramLine ids line) = indent line := by
  have hrow := isWord_row hids htokens
  rw [diagramLine_eq hids htokens, hfirst]
  simp only [Bool.false_eq_true, if_false, List.append_nil]
  refine Text.takeWhile_append_eq (Text.isBlank_of_mem_indent line) ?_
  intro c hc
  refine (Text.trim_eq_self_iff.1 hrow.trimmed).1 c ?_
  rwa [List.head?_append, Option.or_of_isSome (List.isSome_head?.2 hrow.ne_nil)] at hc

-- ============================================================= all lines

/-- No line feed gets into a line. -/
theorem newline_not_mem_diagramLine (hids : ∀ label, isIdentifier (ids label) = true)
    (hline : '\n' ∉ line) : '\n' ∉ diagramLine ids line := by
  have hindent := Text.newline_not_mem_indent hline
  have htrim : '\n' ∉ trim line := fun hmem => hline (Text.mem_of_mem_trim hmem)
  unfold diagramLine
  split
  next => exact hline
  next =>
    intro hmem
    rcases List.mem_append.1 hmem with hmem | hmem
    · exact hindent hmem
    rcases mem_layOut (mem_of_mem_squeeze hmem) with hspace | ⟨e, he, hmem⟩
    · cases hspace
    obtain ⟨t, ht, rfl⟩ := List.mem_map.1 he
    obtain ⟨s, rest, hread, hs⟩ := exists_read?_of_mem_tokens ht
    obtain ⟨w, hspelled, -, rfl⟩ := Token.read?_spelled hread
    have hw : '\n' ∉ w := fun hmem => htrim (hs.subset (List.mem_append_left rest hmem))
    cases t with
    | arrow spelling =>
        cases hspelled
        exact hw hmem
    | reference spelling =>
        cases hspelled
        exact hw hmem
    | node shape label =>
        have hbracket : '\n' ∉ shape.bracket.opening ∧ '\n' ∉ shape.bracket.closing := by
          cases shape <;> decide
        have hlabel : '\n' ∉ label := fun hmem => hw (mem_of_spelled hspelled hmem)
        have hid := Drawing.newline_not_mem_identifier (hids label)
        simp [Token.written, Bracket.enclose, hbracket, hlabel, hid] at hmem

/-- The lines of a diagram are those that the lines of its source became. -/
theorem lines_diagram (hids : ∀ label, isIdentifier (ids label) = true) (source : Text) :
    Text.lines (Text.joinLines ((Text.lines source).map (diagramLine ids)))
      = (Text.lines source).map (diagramLine ids) := by
  have hne : Text.lines source ≠ [] := List.splitOn_ne_nil _ _
  refine Text.lines_joinLines (by simp [hne]) ?_
  intro out hout
  obtain ⟨line, hline, rfl⟩ := List.mem_map.1 hout
  exact newline_not_mem_diagramLine hids (Text.newline_not_mem_of_mem_lines hline)

/-- They have the same numbers. -/
theorem numberedLines_diagram (hids : ∀ label, isIdentifier (ids label) = true)
    (source : Text) :
    Text.numberedLines (Text.joinLines ((Text.lines source).map (diagramLine ids)))
      = (Text.numberedLines source).map fun p => (p.1, diagramLine ids p.2) := by
  unfold Text.numberedLines
  rw [lines_diagram hids, List.zipIdx_map, List.map_map, List.map_map]
  rfl

end FreeLabel.Flow
