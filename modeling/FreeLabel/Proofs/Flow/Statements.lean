/-
What is a statement, to the compiler and to the reader of diagrams.

Both go by the word that a line begins with. The compiler looks at the line
of the source and keeps it as it is, with `subgraph` and `end` in any letter
case; the reader looks at the line of the diagram and skips it, with every
word as it is spelled, and it knows `direction` besides.

# Where they part

The reader skips a line exactly if its leading word is one of its own
(`skipped_iff`). Behind a rewritten line stands no statement, but the first
node of a line gives it its leading word, and that may be such a word: a
name that the source chose, or an identifier that was issued for a label.
An identifier can only be such a word if it is the label's own, since one
with a number behind it ends in a digit (`ids_mem_ignoredWords_iff`). And a
kept line may be spelled with other letters than the reader's.
-/
import FreeLabel.Proofs.Flow.Lines
import FreeLabel.Proofs.Flow.Redrawing

namespace FreeLabel.Flow

open Drawing (FlowDrawing mentionNode)
open Naming (Allocator isIdentifier)
open Naming.Allocator (candidate)
open Text (trim)

variable {ids : Text → Text} {line s : Text} {t : Token} {ts : List Token} {lineNo : Nat}

-- =============================================================== skipping

/-- A line that draws nothing, whatever the lines before it show, and is
not rejected. -/
def Skipped (lineNo : Nat) (line : Text) : Prop :=
  ∀ d : FlowDrawing, d.readLine lineNo line = .ok d

theorem mentionNode_ne_nil (nodes : List Drawing.Node) (name : Text) (label : Option Text) :
    mentionNode nodes name label ≠ [] := by
  unfold mentionNode
  split
  next hany =>
    have hne : nodes ≠ [] := by
      rintro rfl
      cases hany
    cases label with
    | none => exact hne
    | some l => simpa using hne
  next => simp

/-- The reader skips the lines that begin with one of its words, and adds a
node for every other line that it admits. -/
theorem skipped_iff : Skipped lineNo line ↔ leadingWord line ∈ Drawing.ignoredWords := by
  rw [← startsWithWord_iff isWordChar_of_mem_ignoredWords]
  constructor
  · intro h
    have hempty := h {}
    rw [readLine_eq] at hempty
    split at hempty
    next hstarts => exact hstarts
    next =>
      split at hempty
      next n links _ =>
        have hnodes : (n :: links.map Prod.snd).foldl
            (fun nodes n => mentionNode nodes n.1 n.2) [] = [] :=
          congrArg FlowDrawing.nodes (Except.ok.inj hempty)
        -- the last node that is mentioned is there
        obtain ⟨front, last, hlast⟩ := List.eq_nil_or_concat (n :: links.map Prod.snd)
          |>.resolve_left (List.cons_ne_nil _ _)
        rw [hlast, List.concat_eq_append, List.foldl_append] at hnodes
        exact absurd hnodes (mentionNode_ne_nil _ _ _)
      next => cases hempty
  · intro hstarts d
    rw [readLine_eq, if_pos hstarts]

-- ============================================================ statements

/-- Whether a trimmed line is kept as a statement about subgraphs, looks or
links. -/
def isStatement (trimmed : Text) : Bool :=
  startsWithAnyCase subgraphWords trimmed || startsWithWord styleWords trimmed

/-- The words that begin statements, spelled as the reader knows them. -/
def statementWords : List Text := subgraphWords ++ styleWords

theorem isKept_of_isStatement (h : isStatement s = true) : isKept s = true := by
  unfold isStatement at h
  unfold isKept
  rw [Bool.or_assoc, h, Bool.or_true]

theorem eq_of_isInert (h : isInert s = true) : s = [] ∨ ∃ t, s = '%' :: '%' :: t := by
  unfold isInert at h
  rcases Bool.or_eq_true_iff.1 h with h | h
  · exact .inl (List.isEmpty_iff.1 h)
  · obtain ⟨t, ht⟩ := Option.isSome_iff_exists.1 h
    exact .inr ⟨t, Text.after?_eq_some_iff.1 ht⟩

theorem isInert_of_isStatement (h : isStatement s = true) : isInert s = false := by
  cases hinert : isInert s with
  | false => rfl
  | true =>
      rcases eq_of_isInert hinert with rfl | ⟨t, rfl⟩
      · cases h
      · cases h

/-- The reader skips a statement exactly if it is spelled with the
reader's letters. -/
theorem skipped_statement_iff (h : isStatement s = true) :
    Skipped lineNo s ↔ startsWithWord statementWords s = true := by
  have hwords : ∀ word ∈ statementWords, ∀ c ∈ word, isWordChar c = true := by
    have hall : statementWords.all (·.all isWordChar) = true := by decide
    exact fun word hword => List.all_eq_true.1 (List.all_eq_true.1 hall word hword)
  have hsplit : Drawing.ignoredWords = statementWords ++ ["direction".toList] := rfl
  rw [skipped_iff, startsWithWord_iff hwords, hsplit, List.mem_append, List.mem_singleton]
  refine or_iff_left ?_
  intro hlead
  -- no other word of the reader begins a statement
  have hs : s = "direction".toList ++ s.dropWhile isWordChar := by
    rw [← hlead]
    exact List.takeWhile_append_dropWhile.symm
  rw [hs] at h
  cases h

-- ======================================================== rewritten lines

/-- The leading word of a rewritten line is that of its first token. -/
theorem leadingWord_diagramLine (hids : ∀ label, isIdentifier (ids label) = true)
    (htokens : lineTokens line = t :: ts) :
    leadingWord (trim (diagramLine ids line)) = leadingWord (t.written ids) := by
  rw [trim_diagramLine hids htokens]
  cases ts with
  | nil =>
      show leadingWord (squeeze (t.written ids) ++ []) = _
      rw [List.append_nil, leadingWord_squeeze]
  | cons u ts =>
      show leadingWord (squeeze (t.written ids)
        ++ ' ' :: (squeeze (u.written ids) ++ spaced (rowWords ids ts))) = _
      rw [leadingWord_append_space, leadingWord_squeeze]

theorem leadingWord_node (hids : ∀ label, isIdentifier (ids label) = true) (shape : Shape)
    (label : Text) : leadingWord ((Token.node shape label).written ids) = ids label := by
  have hstop := isWordChar_head_enclose shape.bracket label []
  rw [List.append_nil] at hstop
  exact (isName_of_isIdentifier (hids label)).leadingWord_append hstop

/-- A line with tokens says something: no token begins like a comment. -/
theorem isInert_diagramLine (hids : ∀ label, isIdentifier (ids label) = true)
    (htokens : lineTokens line = t :: ts) : isInert (trim (diagramLine ids line)) = false := by
  cases hinert : isInert (trim (diagramLine ids line)) with
  | false => rfl
  | true =>
      have hword := isWord_row hids htokens
      rw [← trim_diagramLine hids htokens] at hword
      rcases eq_of_isInert hinert with hnil | ⟨u, hcomment⟩
      · exact absurd hnil hword.ne_nil
      have ht : t ∈ tokens (trim line) := (of_lineTokens htokens).2 ▸ List.mem_cons_self
      have hwritten := isWord_written hids ht
      have hhead : '%' ∈ (t.written ids).head? := by
        rw [trim_diagramLine hids htokens] at hcomment
        have hsame := congrArg List.head? hcomment
        rw [List.head?_append, head?_squeeze] at hsame
        cases hfirst : (t.written ids).head? with
        | none => exact absurd (List.head?_eq_none_iff.1 hfirst) hwritten.ne_nil
        | some c => rwa [hfirst] at hsame
      have hname : ∀ {name : Text} (rest : Text), IsName name → '%' ∉ (name ++ rest).head? := by
        intro name rest hname hmem
        obtain ⟨c, hc, -⟩ := hname.head
        rw [List.head?_append, Option.mem_def.1 hc] at hmem
        cases hmem
        exact absurd (hname.word '%' (List.mem_of_head? hc)) (by decide)
      obtain ⟨r, rest, hread, -⟩ := exists_read?_of_mem_tokens ht
      cases t with
      | arrow spelling =>
          obtain ⟨shaft, label, rfl, hne, hchars, -⟩ := (isArrow_of_read? hread).exists_shaft
          cases shaft with
          | nil => exact absurd rfl hne
          | cons c shaft =>
              cases hhead
              exact absurd (hchars '%' List.mem_cons_self) (by decide)
      | reference spelling =>
          cases isReference_of_read? hread with
          | bare h =>
              have hnot := hname [] h
              rw [List.append_nil] at hnot
              exact absurd hhead hnot
          | labelled h b hlabel => exact absurd hhead (hname _ h)
      | node shape label => exact absurd hhead (hname _ (isName_of_isIdentifier (hids label)))

theorem mem_contentLines_of {p : Nat × Text} (hp : p ∈ Text.numberedLines s)
    (hinert : isInert (trim p.2) = false) : (p.1, trim p.2) ∈ contentLines s := by
  unfold contentLines
  rw [List.mem_filter]
  refine ⟨List.mem_map.2 ⟨p, hp, rfl⟩, ?_⟩
  show (!isInert (trim p.2)) = true
  rw [hinert]
  rfl

-- ============================================================ identifiers

/-- No word of the reader holds a digit, and so none is a candidate with a
number. -/
theorem eq_zero_of_candidate_mem {base : Text} {k : Nat}
    (h : candidate base k ∈ Drawing.ignoredWords) : k = 0 := by
  have hdigits : ∀ word ∈ Drawing.ignoredWords, ∀ c ∈ word, c.isDigit = false := by
    have hall : Drawing.ignoredWords.all (·.all fun c => !c.isDigit) = true := by decide
    intro word hword c hc
    simpa using List.all_eq_true.1 (List.all_eq_true.1 hall word hword) c hc
  cases k with
  | zero => rfl
  | succ k =>
      have hne : Text.ofNat (k + 2) ≠ [] := Nat.toDigits_ne_nil
      obtain ⟨c, hc⟩ := List.exists_mem_of_ne_nil _ hne
      have hdigit : c.isDigit = true :=
        Nat.isDigit_of_mem_toDigits (by decide) (by decide) hc
      rw [hdigits _ h c (List.mem_append_right base hc)] at hdigit
      cases hdigit

/-- A label is issued a word of the reader exactly if that is its own
identifier, and it is the label that holds it. -/
theorem ids_mem_ignoredWords_iff {source label : Text} (hlabel : label ∈ sourceLabels source) :
    (sourceAllocator source).ids label ∈ Drawing.ignoredWords
      ↔ Naming.identifier label ∈ Drawing.ignoredWords
        ∧ (sourceAllocator source).legend.get? (Naming.identifier label) = some label := by
  have hexact : (sourceAllocator source).Exact :=
    (Allocator.exact_empty.issueAll (labelRequests (sourceLabels source))).1
  have hheld := Allocator.get?_of_mem_labels hlabel
  constructor
  · intro hmem
    obtain ⟨k, hk, -⟩ := hexact.exists_candidate label
    rw [hk] at hmem
    obtain rfl := eq_zero_of_candidate_mem hmem
    refine ⟨hmem, ?_⟩
    have hbase : (sourceAllocator source).ids label = Naming.identifier label := hk
    rw [← hbase]
    exact hheld
  · rintro ⟨hmem, hget⟩
    obtain ⟨-, hid⟩ := Allocator.exists_label hget
    have hbase : (sourceAllocator source).ids label = Naming.identifier label := hid.symm
    rwa [hbase]

/-- Which lines compiler and reader take differently. A line that is
rewritten from tokens is skipped by the reader exactly if its first token
begins with a word of the reader. For a label that is its identifier, and
so it happens just to the first label whose own identifier is such a word.
A line that is kept as a statement is skipped exactly if its word is
spelled with the reader's letters. -/
theorem skipped_lines_iff {source : Text} (hmode : Mode.ofSource source = .flowchart)
    (padding : Int) :
    ∃ (compiled : Compiled) (ids : Text → Text), compile source false padding = .ok compiled
      ∧ (∀ strict again, compile source strict padding = .ok again → again = compiled)
      ∧ Text.numberedLines compiled.code
        = (Text.numberedLines source).map (fun p => (p.1, diagramLine ids p.2))
      ∧ (∀ p ∈ Text.numberedLines source, ∀ t ts, lineTokens p.2 = t :: ts →
          (p.1, trim (diagramLine ids p.2)) ∈ contentLines compiled.code
            ∧ (Skipped p.1 (trim (diagramLine ids p.2))
              ↔ leadingWord (t.written ids) ∈ Drawing.ignoredWords))
      ∧ (∀ label ∈ sourceLabels source,
          (∀ shape, leadingWord ((Token.node shape label).written ids) = ids label)
            ∧ (ids label ∈ Drawing.ignoredWords
              ↔ Naming.identifier label ∈ Drawing.ignoredWords
                ∧ compiled.legend.get? (Naming.identifier label) = some label))
      ∧ ∀ p ∈ Text.numberedLines source, isStatement (trim p.2) = true →
          diagramLine ids p.2 = p.2 ∧ (p.1, trim p.2) ∈ contentLines compiled.code
            ∧ (Skipped p.1 (trim p.2) ↔ startsWithWord statementWords (trim p.2) = true) := by
  obtain ⟨compiled, hcompile, hcode, hlegend⟩ := exists_compiled_flowchart hmode padding
  have hids := isIdentifier_ids (sourceAllocator source)
  have hlines : Text.numberedLines compiled.code = (Text.numberedLines source).map
      fun p => (p.1, diagramLine (sourceAllocator source).ids p.2) := by
    rw [hcode, numberedLines_diagram hids]
  have hline : ∀ p ∈ Text.numberedLines source,
      (p.1, diagramLine (sourceAllocator source).ids p.2) ∈ Text.numberedLines compiled.code :=
    fun p hp => hlines ▸ List.mem_map.2 ⟨p, hp, rfl⟩
  refine ⟨compiled, (sourceAllocator source).ids, hcompile, fun _ _ h => eq_of_compile h hcompile,
    hlines, ?_, ?_, ?_⟩
  · intro p hp t ts htokens
    refine ⟨mem_contentLines_of (hline p hp) (isInert_diagramLine hids htokens), ?_⟩
    rw [skipped_iff, leadingWord_diagramLine hids htokens]
  · intro label hlabel
    refine ⟨fun shape => leadingWord_node hids shape label, ?_⟩
    rw [hlegend]
    exact ids_mem_ignoredWords_iff hlabel
  · intro p hp hstatement
    have hsame : diagramLine (sourceAllocator source).ids p.2 = p.2 :=
      if_pos (isKept_of_isStatement hstatement)
    have hmem := hline p hp
    rw [hsame] at hmem
    exact ⟨hsame, mem_contentLines_of hmem (isInert_of_isStatement hstatement),
      skipped_statement_iff hstatement⟩

/-- A line of labels is drawn, although one of them begins with a word of
the reader; the statements around it are skipped. -/
theorem subgraph_skipped_around_labels :
    Mode.ofSource "flowchart TD\nsubgraph one\n\"a\" --> \"end of it\"\nend".toList = .flowchart
      ∧ ∃ compiled : Compiled,
          compile "flowchart TD\nsubgraph one\n\"a\" --> \"end of it\"\nend".toList false 2
              = .ok compiled
            ∧ compiled.code = ("flowchart TD\nsubgraph one\n" ++
                "a[\"a\"] --> end_of_it[\"end of it\"]\nend").toList
            ∧ Skipped 2 "subgraph one".toList
            ∧ ¬ Skipped 3 "a[\"a\"] --> end_of_it[\"end of it\"]".toList
            ∧ Skipped 4 "end".toList := by
  have hmode : Mode.ofSource
      "flowchart TD\nsubgraph one\n\"a\" --> \"end of it\"\nend".toList = .flowchart := by
    decide +kernel
  have hsource : Text.numberedLines
      "flowchart TD\nsubgraph one\n\"a\" --> \"end of it\"\nend".toList
        = [(1, "flowchart TD".toList), (2, "subgraph one".toList),
          (3, "\"a\" --> \"end of it\"".toList), (4, "end".toList)] := by decide +kernel
  have hlabels : sourceLabels
      "flowchart TD\nsubgraph one\n\"a\" --> \"end of it\"\nend".toList
        = ["a".toList, "end of it".toList] := by decide +kernel
  obtain ⟨compiled, ids, hcompile, -, hlines, hrewritten, hissued, hstatements⟩ :=
    skipped_lines_iff hmode 2
  obtain ⟨again, hagain, -, hcode, -⟩ := exists_compiled
    "flowchart TD\nsubgraph one\n\"a\" --> \"end of it\"\nend".toList
    ("flowchart TD\nsubgraph one\n" ++ "a[\"a\"] --> end_of_it[\"end of it\"]\nend").toList
    .flowchart [("a".toList, "a".toList), ("end_of_it".toList, "end of it".toList)]
    (by decide +kernel)
  obtain rfl := Except.ok.inj (hcompile.symm.trans hagain)
  have hdiagram : Text.numberedLines compiled.code
      = [(1, "flowchart TD".toList), (2, "subgraph one".toList),
        (3, "a[\"a\"] --> end_of_it[\"end of it\"]".toList), (4, "end".toList)] := by
    rw [hcode]
    decide +kernel
  rw [hdiagram, hsource] at hlines
  simp only [List.map_cons, List.cons.injEq, Prod.mk.injEq, true_and] at hlines
  obtain ⟨-, -, hline, -⟩ := hlines
  rw [hsource] at hrewritten hstatements
  rw [hlabels] at hissued
  refine ⟨hmode, compiled, hcompile, hcode, ?_, ?_, ?_⟩
  · exact (hstatements (2, "subgraph one".toList) (by simp) (by decide +kernel)).2.2.2
      (by decide +kernel)
  · -- the line begins with the label `a`, whose identifier is none of the words
    obtain ⟨hlead, hword⟩ := hissued "a".toList (by simp)
    have hskipped := (hrewritten (3, "\"a\" --> \"end of it\"".toList) (by simp)
      (.node .rectangle "a".toList)
      [.arrow "-->".toList, .node .rectangle "end of it".toList] (by decide +kernel)).2
    rw [hlead, hword, ← hline] at hskipped
    intro h
    have hmem := (hskipped.1 h).1
    revert hmem
    decide +kernel
  · exact (hstatements (4, "end".toList) (by simp) (by decide +kernel)).2.2.2 (by decide +kernel)

/-- A label whose identifier is `end` makes its line one that the reader
skips, and a statement in capital letters is drawn as a node. -/
theorem end_label_skipped :
    ∃ compiled : Compiled,
      Mode.ofSource "flowchart TD\n\"end\" --> \"b\"\nEND".toList = .flowchart
        ∧ compile "flowchart TD\n\"end\" --> \"b\"\nEND".toList false 2 = .ok compiled
        ∧ compiled.code = "flowchart TD\nend[\"end\"] --> b[\"b\"]\nEND".toList
        ∧ lineTokens "\"end\" --> \"b\"".toList
          = [.node .rectangle "end".toList, .arrow "-->".toList, .node .rectangle "b".toList]
        ∧ Skipped 2 "end[\"end\"] --> b[\"b\"]".toList
        ∧ isStatement "END".toList = true ∧ ¬ Skipped 3 "END".toList
        ∧ (FlowDrawing.ofDiagram compiled.code).toOption
          = some { nodes := [{ name := "END".toList, label := "END".toList }], edges := [] } := by
  obtain ⟨compiled, hcompile, -, hcode, -⟩ := exists_compiled
    "flowchart TD\n\"end\" --> \"b\"\nEND".toList
    "flowchart TD\nend[\"end\"] --> b[\"b\"]\nEND".toList .flowchart
    [("end".toList, "end".toList), ("b".toList, "b".toList)] (by decide +kernel)
  refine ⟨compiled, by decide +kernel, hcompile, hcode, by decide +kernel,
    skipped_iff.2 (by decide +kernel), by decide +kernel, ?_, ?_⟩
  · intro h
    have hmem := skipped_iff.1 h
    revert hmem
    decide +kernel
  · rw [hcode]
    decide +kernel

end FreeLabel.Flow
