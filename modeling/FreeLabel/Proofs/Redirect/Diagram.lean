/-
Setting the direction of an entity-relationship source, and the diagram
that it compiles to.

The edits of a source are edits of its lines, since they put no line feed
anywhere (`lines_redirect`). So two facts meet here: what is left of the
lines without the direction decides the diagram, and edits that touch
nothing but the direction leave that as it is. They do so exactly for clean
lines, and there are others: a line that merely begins like a statement of
the direction is cut (`lookalike_cut`).
-/
import FreeLabel.Proofs.Redirect.Clean
import FreeLabel.Proofs.Strictness

namespace FreeLabel

open Redirect (afterStatement? dropStatement changeFirst shorthand afterShorthand)
open Text (trim trimLeft)

namespace Redirect

variable {lines : List Text} {d : Option Direction}

theorem newline_not_mem_dropStatement (hlines : ∀ line ∈ lines, '\n' ∉ line) :
    ∀ line ∈ dropStatement lines, '\n' ∉ line := by
  rcases dropStatement_cases lines with ⟨-, hsame⟩
    | ⟨before, line, left, after, rfl, -, hline, -, hdrop | ⟨-, -, hdrop⟩⟩
  · rwa [hsame]
  · rw [hdrop]
    intro l hl
    rcases List.mem_append.1 hl with hl | hl
    · exact hlines l (List.mem_append_left _ hl)
    · rcases List.mem_cons.1 hl with rfl | hl
      · exact fun hmem => hlines line (by simp) ((left_suffix hline).1.subset hmem)
      · exact hlines l (List.mem_append_right _ (List.mem_cons_of_mem line hl))
  · rw [hdrop]
    intro l hl
    rcases List.mem_append.1 hl with hl | hl
    · exact hlines l (List.mem_append_left _ hl)
    · exact hlines l (List.mem_append_right _ (List.mem_cons_of_mem line hl))

theorem newline_not_mem_declaration? {line changed : Text} (h : declaration? d line = some changed)
    (hline : '\n' ∉ line) : '\n' ∉ changed := by
  cases hkeyword : Text.afterKeyword? erWord (trimLeft line) with
  | none =>
      rw [declaration?_eq_none_iff.2 hkeyword] at h
      cases h
  | some s =>
      obtain ⟨blanks, word, rfl, -, -⟩ := exists_of_afterKeyword? hkeyword
      rw [declaration?_eq hkeyword] at h
      cases h
      have hrest : '\n' ∈ afterShorthand s → '\n' ∈ s := by
        rcases afterShorthand_cases s with hsame | ⟨gap, name, e, hs, -, -, -⟩
        · rw [hsame]
          exact id
        · intro hmem
          rw [hs]
          simp [hmem]
      simp only [List.mem_append, not_or] at hline ⊢
      exact ⟨hline.1, hline.2.1, newline_not_mem_shorthand d, fun hmem => hline.2.2 (hrest hmem)⟩

theorem dropStatement_ne_nil (hne : lines ≠ []) : dropStatement lines ≠ [] := by
  rcases dropStatement_cases lines with ⟨-, hsame⟩
    | ⟨before, line, left, after, rfl, -, -, -, hdrop | ⟨-, hafter, hdrop⟩⟩
  · rwa [hsame]
  · simp [hdrop]
  · simp [hdrop, hafter]

end Redirect

/-- The lines of a source with the direction set are its lines with both
edits. -/
theorem lines_redirect {source : Text} (hmode : Mode.ofSource source = .er)
    (d : Option Direction) :
    Text.lines (redirect source d)
      = changeFirst (Redirect.declaration? d) (dropStatement (Text.lines source)) := by
  have hne : Text.lines source ≠ [] := List.splitOn_ne_nil _ _
  have hfree : ∀ line ∈ Text.lines source, '\n' ∉ line :=
    fun line hline => Text.newline_not_mem_of_mem_lines hline
  unfold redirect
  rw [hmode]
  exact Text.lines_joinLines (Redirect.changeFirst_ne_nil (Redirect.dropStatement_ne_nil hne))
    (Redirect.newline_not_mem_changeFirst (fun _ _ => Redirect.newline_not_mem_declaration?)
      (Redirect.newline_not_mem_dropStatement hfree))

open Redirect (Clean DirectionOnly)

/-- When setting the direction keeps the diagram. Whatever the direction,
the diagram is the same but for blank lines, and nothing but a whole
statement of the direction and the direction behind a declaration is
touched, exactly if the lines of the source are clean: nothing but blanks
comes behind the first thing that is spelled like a statement and behind
the first word of a declaration with its direction, or that line happens to
stay as it is. A strict pass over a clean source then ends as before,
too. -/
theorem redirect_keeps_diagram_iff {source : Text} (hmode : Mode.ofSource source = .er)
    (d : Option Direction) (padding : Int) :
    ∃ before after : Compiled, compile source false padding = .ok before
      ∧ compile (redirect source d) false padding = .ok after
      ∧ ((before.SameDiagram after
            ∧ DirectionOnly d (Text.lines source) (Text.lines (redirect source d)))
          ↔ Clean d (Text.lines source))
      ∧ (Clean d (Text.lines source) → ∀ strict,
          SameOutcome (compile source strict padding)
            (compile (redirect source d) strict padding)) := by
  obtain ⟨before, hbefore, -, -⟩ := exists_lenient source padding
  obtain ⟨after, hafter, -, -⟩ := exists_lenient (redirect source d) padding
  have hlines := lines_redirect hmode d
  have hsame : Clean d (Text.lines source) → ∀ strict,
      SameOutcome (compile source strict padding) (compile (redirect source d) strict padding) := by
    intro hclean strict
    refine sameOutcome_of_undirected ?_ hmode strict padding
    rw [hlines]
    exact hclean.directionOnly.undirected
  refine ⟨before, after, hbefore, hafter, ⟨?_, ?_⟩, hsame⟩
  · rintro ⟨-, honly⟩
    rw [hlines] at honly
    exact Clean.of_undirected honly.undirected
  · intro hclean
    have houtcome := hsame hclean false
    rw [hbefore, hafter] at houtcome
    rw [hlines]
    exact ⟨houtcome, hclean.directionOnly⟩

/-- Lines inside and outside of a block that begin like what is touched, and
are not, keep a diagram whose direction is given three times. -/
theorem redirect_keeps_lookalikes :
    Mode.ofSource ("erDiagram tb\nA \x7b\n  directional, string\n\x7d\n  direction LR\n" ++
          "A ||--|\x7b TBL : has\ndirection BT").toList = .er
      ∧ ∃ before after : Compiled,
          compile ("erDiagram tb\nA \x7b\n  directional, string\n\x7d\n  direction LR\n" ++
              "A ||--|\x7b TBL : has\ndirection BT").toList false 2 = .ok before
            ∧ redirect ("erDiagram tb\nA \x7b\n  directional, string\n\x7d\n  direction LR\n" ++
                "A ||--|\x7b TBL : has\ndirection BT").toList (some .rl)
              = ("erDiagram RL\nA \x7b\n  directional, string\n\x7d\n" ++
                "A ||--|\x7b TBL : has\ndirection BT").toList
            ∧ compile ("erDiagram RL\nA \x7b\n  directional, string\n\x7d\n" ++
                "A ||--|\x7b TBL : has\ndirection BT").toList false 2 = .ok after
            ∧ before.SameDiagram after := by
  have hmode : Mode.ofSource
      ("erDiagram tb\nA \x7b\n  directional, string\n\x7d\n  direction LR\n" ++
        "A ||--|\x7b TBL : has\ndirection BT").toList = .er := by decide +kernel
  have hredirect :
      redirect ("erDiagram tb\nA \x7b\n  directional, string\n\x7d\n  direction LR\n" ++
          "A ||--|\x7b TBL : has\ndirection BT").toList (some .rl)
        = ("erDiagram RL\nA \x7b\n  directional, string\n\x7d\n" ++
          "A ||--|\x7b TBL : has\ndirection BT").toList := by decide +kernel
  have hstatement : (Text.lines
      ("erDiagram tb\nA \x7b\n  directional, string\n\x7d\n  direction LR\n" ++
        "A ||--|\x7b TBL : has\ndirection BT").toList).findSome? afterStatement?
        = some [] := by decide +kernel
  have hword : (Text.lines
      ("erDiagram tb\nA \x7b\n  directional, string\n\x7d\n  direction LR\n" ++
        "A ||--|\x7b TBL : has\ndirection BT").toList).findSome?
          (fun line => Text.afterKeyword? erWord (trimLeft line))
        = some " tb".toList := by decide +kernel
  have hclean : Clean (some .rl) (Text.lines
      ("erDiagram tb\nA \x7b\n  directional, string\n\x7d\n  direction LR\n" ++
        "A ||--|\x7b TBL : has\ndirection BT").toList) := by
    constructor
    · rw [hstatement]
      rintro _ ⟨⟩
      exact nofun
    · rw [hword]
      rintro _ ⟨⟩
      exact .inl (Text.forall_mem_of_all (by decide))
  obtain ⟨before, after, hbefore, hafter, hiff, -⟩ := redirect_keeps_diagram_iff hmode (some .rl) 2
  rw [hredirect] at hafter
  exact ⟨hmode, before, after, hbefore, hredirect, hafter, (hiff.2 hclean).1⟩

/-- An attribute that begins like a statement of the direction is cut, and
the diagram has another attribute then. -/
theorem lookalike_cut :
    ∃ before after : Compiled,
      Mode.ofSource "erDiagram\nA \x7b\n  direction TBD, string\n\x7d".toList = .er
        ∧ redirect "erDiagram\nA \x7b\n  direction TBD, string\n\x7d".toList (some .lr)
          = "erDiagram LR\nA \x7b\nD, string\n\x7d".toList
        ∧ compile "erDiagram\nA \x7b\n  direction TBD, string\n\x7d".toList false 2 = .ok before
        ∧ before.code = "erDiagram\nA \x7b\n  direction_TBD__ string\n\x7d".toList
        ∧ before.legend.entries = [("A".toList, "A".toList),
            ("direction_TBD__".toList, "direction TBD".toList)]
        ∧ compile "erDiagram LR\nA \x7b\nD, string\n\x7d".toList false 2 = .ok after
        ∧ after.code = "erDiagram\nA \x7b\nD__ string\n\x7d".toList
        ∧ after.legend.entries = [("A".toList, "A".toList), ("D__".toList, "D".toList)]
        ∧ Text.writtenLines before.code ≠ Text.writtenLines after.code := by
  obtain ⟨before, hbefore, -, hcode, hentries⟩ := exists_compiled
    "erDiagram\nA \x7b\n  direction TBD, string\n\x7d".toList
    "erDiagram\nA \x7b\n  direction_TBD__ string\n\x7d".toList .er
    [("A".toList, "A".toList), ("direction_TBD__".toList, "direction TBD".toList)]
    (by decide +kernel)
  obtain ⟨after, hafter, -, hcode', hentries'⟩ := exists_compiled
    "erDiagram LR\nA \x7b\nD, string\n\x7d".toList
    "erDiagram\nA \x7b\nD__ string\n\x7d".toList .er
    [("A".toList, "A".toList), ("D__".toList, "D".toList)] (by decide +kernel)
  refine ⟨before, after, by decide +kernel, by decide +kernel, hbefore, hcode, hentries, hafter,
    hcode', hentries', ?_⟩
  rw [hcode, hcode']
  decide +kernel

end FreeLabel
