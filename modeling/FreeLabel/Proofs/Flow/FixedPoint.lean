/-
Compiled flowcharts, compiled again. What a pass makes of a source is left
as it is by every later pass, in which nothing is issued and nothing
reported: its nodes have identifiers, and are references now.

# One line

A line that was kept says the same to the compiler as before. A line that
was laid out from tokens may have become one that is kept: a blank line, if
nothing but strays stood on it, or a line that begins with a word such as
`end`, if such a word is the name of its first node. Else it is read as its
tokens again, and so it is laid out as it stands
(`translateNumbered_diagramLine`).

# All lines

No line feed gets into a line, so the lines of the diagram are those that
were made, and each is passed by itself (`translate_eq_pure`).
-/
import FreeLabel.Proofs.Flow.Lines

namespace FreeLabel

namespace Pass

/-- Steps that leave the pass as it is do so one after the other. -/
theorem mapM_eq_pure {α β : Type} {f : α → Pass β} {g : α → β} {as : List α}
    (h : ∀ a ∈ as, f a = pure (g a)) : as.mapM f = pure (as.map g) := by
  induction as with
  | nil => rfl
  | cons a as ih =>
      obtain ⟨ha, has⟩ := List.forall_mem_cons.1 h
      rw [List.mapM_cons, ha, pure_bind, ih has, pure_bind, List.map_cons]

end Pass

namespace Flow

open Naming (isIdentifier)
open Text (trim indent)

variable {ids : Text → Text} {line : Text} {t : Token} {ts : List Token}

-- ================================================================ tokens

/-- Tokens without labels are written down as they are. -/
theorem translateTokens_eq_pure (h : ∀ t ∈ ts, t.labels = []) (ids : Text → Text) :
    translateTokens ts
      = pure (squeeze (layOut false (ts.map fun t => (t.isArrow, t.written ids)))) := by
  have hspelled : ts.mapM (fun t => do return (t.isArrow, ← t.translate) : Token → Pass _)
      = pure (ts.map fun t => (t.isArrow, t.written ids)) := by
    refine Pass.mapM_eq_pure fun t ht => ?_
    cases t with
    | arrow spelling => rfl
    | reference spelling => rfl
    | node shape label => cases h _ ht
  unfold translateTokens
  rw [hspelled, pure_bind]

-- ================================================================= lines

/-- A line of a diagram is read as its tokens. -/
theorem reads_diagramLine (hids : ∀ label, isIdentifier (ids label) = true)
    (htokens : lineTokens line = t :: ts)
    (hquote : ∀ u ∈ t :: ts, ∀ label ∈ u.labels, '"' ∉ label) :
    Reads (trim (diagramLine ids line)) ((t :: ts).map (Token.again ids)) := by
  rw [trim_diagramLine hids htokens]
  refine reads_row fun u hu => ?_
  exact stands_again hids ((of_lineTokens htokens).2 ▸ hu) (hquote u hu)

/-- The tokens that a line is read as are laid out as the line. -/
theorem diagramLine_again (hids : ∀ label, isIdentifier (ids label) = true)
    (htokens : lineTokens line = t :: ts) (hfirst : t.isArrow = false) :
    indent (diagramLine ids line)
        ++ squeeze (layOut false
          (((t :: ts).map (Token.again ids)).map fun u => (u.isArrow, u.written ids)))
      = diagramLine ids line := by
  have hspelled : ((t :: ts).map (Token.again ids)).map (fun u => (u.isArrow, u.written ids))
      = ((t :: ts).map fun u => (u.isArrow, u.written ids)).map fun e => (e.1, squeeze e.2) := by
    rw [List.map_map, List.map_map]
    refine List.map_congr_left fun u _ => ?_
    simp only [Function.comp_apply, isArrow_again, written_again]
  rw [indent_diagramLine hids htokens hfirst, hspelled]
  obtain ⟨hkept, htokens⟩ := of_lineTokens htokens
  have hwords : ∀ e ∈ (t :: ts).map (fun u => (u.isArrow, u.written ids)), IsWord e.2 := by
    intro e he
    obtain ⟨u, hu, rfl⟩ := List.mem_map.1 he
    exact isWord_written hids (htokens ▸ hu)
  rw [squeeze_layOut_squeezed hwords, diagramLine, hkept, htokens]
  rfl

/-- The step lemma: a line of a diagram is passed as it stands. -/
theorem translateNumbered_diagramLine (hids : ∀ label, isIdentifier (ids label) = true)
    (hfirst : ∀ t ∈ (lineTokens line).head?, t.isArrow = false)
    (hquote : ∀ t ∈ lineTokens line, ∀ label ∈ t.labels, '"' ∉ label) (lineNo : Nat) :
    translateNumbered (lineNo, diagramLine ids line) = pure (diagramLine ids line) := by
  by_cases hagain : isKept (trim (diagramLine ids line)) = true
  · exact if_pos hagain
  cases htokens : lineTokens line with
  | nil =>
      -- the line was kept, or nothing but its indent is left
      refine absurd ?_ hagain
      unfold lineTokens at htokens
      unfold diagramLine
      split at htokens
      next hkept => rwa [if_pos hkept]
      next hkept =>
        have hblank : trim (indent line ++ []) = [] := by
          rw [Text.trim_eq_nil_iff, List.append_nil]
          exact Text.isBlank_of_mem_indent line
        rw [if_neg hkept, htokens]
        show isKept (trim (indent line ++ [])) = true
        rw [hblank]
        rfl
  | cons t ts =>
      rw [htokens] at hfirst hquote
      have hreads := reads_diagramLine hids htokens hquote
      have hlabels : ∀ u ∈ (t :: ts).map (Token.again ids), u.labels = [] := by
        intro u hu
        obtain ⟨v, -, rfl⟩ := List.mem_map.1 hu
        exact labels_again ids v
      unfold translateNumbered
      rw [if_neg hagain]
      unfold translateLine
      simp only [hreads.strays, hreads.tokens, translateTokens_eq_pure hlabels ids, pure_bind]
      rw [diagramLine_again hids htokens (hfirst t rfl)]

-- =============================================================== sources

/-- The run lemma: a text whose lines are passed as they stand is passed as
it stands. -/
theorem translate_eq_pure {code : Text}
    (h : ∀ p ∈ Text.numberedLines code, translateNumbered p = pure p.2) :
    Flow.translate code = pure code := by
  have hlines : (Text.numberedLines code).mapM translateNumbered = pure (Text.lines code) := by
    rw [Pass.mapM_eq_pure h, Text.map_snd_numberedLines]
  unfold translateNumbered at hlines
  unfold Flow.translate
  rw [hlines, pure_bind, Text.joinLines_lines]

/-- Compiled flowcharts are a fixed point. A source compiles to one text,
whatever the padding and also if the pass is strict and gets to its end;
and every pass over that text, whatever it owns at the start, leaves text
and pass as they are. No label may hold a quote, and no line that is
rewritten may begin with an arrow. -/
theorem compiled_is_fixed {source : Text} (hquote : ∀ label ∈ sourceLabels source, '"' ∉ label)
    (hfirst : ∀ line ∈ Text.lines source, ∀ t ∈ (lineTokens line).head?, t.isArrow = false)
    (padding : Int) :
    ∃ (code : Text) (d : Context),
      Flow.translate source { strict := false, padding := padding } = .ok code d
        ∧ (∀ strict padding' again e,
            Flow.translate source { strict := strict, padding := padding' } = .ok again e →
              again = code)
        ∧ ∀ c : Context, Flow.translate code c = .ok code c := by
  have hids := isIdentifier_ids (sourceAllocator source)
  obtain ⟨d, hrun, -⟩ := exists_translated source padding
  refine ⟨_, d, hrun, ?_, ?_⟩
  · intro strict padding' again e hagain
    obtain ⟨d', hrun', -⟩ := exists_translated source padding'
    obtain ⟨code, d'', reports, hlenient, -, -, -, -, hstops⟩ :=
      reports_translate source _ (Context.sound_start false padding') rfl
    cases hrun'.symm.trans hlenient
    cases strict with
    | false =>
        cases hagain.symm.trans hrun'
        rfl
    | true =>
        -- a strict pass that gets to its end reports nothing
        have hstrict : Pass.StopsAt (.ok again e) _ d' reports := hagain ▸ hstops
        cases reports with
        | nil =>
            cases hstrict
            rfl
        | cons first rest =>
            obtain ⟨_, hhalt⟩ := hstrict
            cases hhalt
  · intro c
    refine congrFun (translate_eq_pure ?_) c
    intro p hp
    have hmem := Text.mem_lines_of_mem_numberedLines hp
    rw [lines_diagram hids] at hmem
    obtain ⟨line, hline, heq⟩ := List.mem_map.1 hmem
    have hquiet : ∀ t ∈ lineTokens line, ∀ label ∈ t.labels, '"' ∉ label := by
      intro t ht label hlabel
      exact hquote label (List.mem_flatMap.2 ⟨t, List.mem_flatMap.2 ⟨line, hline, ht⟩, hlabel⟩)
    have hsettled := translateNumbered_diagramLine hids (hfirst line hline) hquiet p.1
    rwa [heq] at hsettled

/-- Spaces in a label and around tokens, and an arrow that leads nowhere. -/
theorem compiled_is_fixed_with_spaces :
    (∀ label ∈ sourceLabels "flowchart TD\n  \"a  b\" -->|x  y|   \x7bc\x7d\nd -->".toList,
        '"' ∉ label)
      ∧ (∀ line ∈ Text.lines "flowchart TD\n  \"a  b\" -->|x  y|   \x7bc\x7d\nd -->".toList,
          ∀ t ∈ (lineTokens line).head?, t.isArrow = false)
      ∧ ∃ (code : Text) (d : Context),
          Flow.translate "flowchart TD\n  \"a  b\" -->|x  y|   \x7bc\x7d\nd -->".toList
              { strict := false, padding := 2 } = .ok code d
            ∧ code = "flowchart TD\n  a_b[\"a b\"] -->|x y| c\x7b\"c\"\x7d\nd --> ".toList
            ∧ ∀ c : Context, Flow.translate code c = .ok code c := by
  have hquote : ∀ label ∈ sourceLabels
      "flowchart TD\n  \"a  b\" -->|x  y|   \x7bc\x7d\nd -->".toList, '"' ∉ label := by
    decide +kernel
  have hfirst : ∀ line ∈ Text.lines
      "flowchart TD\n  \"a  b\" -->|x  y|   \x7bc\x7d\nd -->".toList,
      ∀ t ∈ (lineTokens line).head?, t.isArrow = false := by
    decide +kernel
  obtain ⟨code, d, hrun, -, hfixed⟩ := compiled_is_fixed hquote hfirst 2
  have hcode : (match Flow.translate
        "flowchart TD\n  \"a  b\" -->|x  y|   \x7bc\x7d\nd -->".toList
        { strict := false, padding := 2 } with
      | .ok code _ => code
      | .error _ _ => [])
      = "flowchart TD\n  a_b[\"a b\"] -->|x y| c\x7b\"c\"\x7d\nd --> ".toList := by
    decide +kernel
  rw [hrun] at hcode
  exact ⟨hquote, hfirst, code, d, hrun, hcode, hfixed⟩

end Flow

end FreeLabel
