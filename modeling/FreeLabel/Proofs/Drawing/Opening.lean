/-
The word that a diagram opens with.

# Two decisions

The mode of a source is decided by the whole of it: the word `erDiagram`
may stand anywhere. The kind of a drawing is decided by the first line of
the diagram that says something, and there by the word at its head
(`modeOf_eq_er_iff`). So a source may be compiled in one mode and its
diagram drawn as the other kind, and whether this happens is told by the
word that the diagram opens with (`drawn_mode_iff`).

# The word in the source

The word is read off the source without compiling it (`openingWord`).
Lines that say nothing are passed over, in a flowchart also those without
a token, and in an entity-relationship source the statements of the
direction. The first line that is left gives the word: one that is kept
gives the word at its own head, a declaration gives its name, and a line
that is rewritten begins with an identifier. This is the first one that is
issued, and so it is the name's own (`choose_empty`).
-/
import FreeLabel.Drawing
import FreeLabel.Proofs.Er.Undirected
import FreeLabel.Proofs.Flow.Graph
import FreeLabel.Proofs.Flow.Statements

namespace FreeLabel

open FreeLabel.Flow (leadingWord)
open Naming (isIdentifier)
open Text (trim trimRight indent)

-- =============================================================== drawing

/-- The word at the head of the first of some lines that says something. -/
def wordOf : List Text → Text
  | [] => []
  | line :: rest => if isInert (trim line) then wordOf rest else leadingWord (trim line)

theorem wordOf_lines (diagram : Text) :
    wordOf (Text.lines diagram)
      = match contentLines diagram with
        | [] => []
        | (_, line) :: _ => leadingWord line := by
  unfold contentLines Text.numberedLines
  rw [List.map_map]
  generalize Text.lines diagram = ls, 1 = n
  induction ls generalizing n with
  | nil => rfl
  | cons line rest ih =>
      rw [wordOf, ih (n + 1), List.zipIdx_cons, List.map_cons, List.filter_cons]
      cases hinert : isInert (trim line) with
      | true =>
          simp only [Function.comp_apply, hinert]
          rfl
      | false =>
          simp only [Function.comp_apply, hinert]
          rfl

/-- The word is one of letters, in any letter case. -/
theorem isWordChar_of_toLower {c : Char} (h : c.toLower ∈ erWord) : isWordChar c = true := by
  refine isWordChar_of_isIdentChar ?_
  by_cases hupper : c.isUpper = true
  · exact isIdentChar_of_isAsciiLetter (Bool.or_eq_true_iff.2 (.inl hupper))
  · have hsame : c.toLower = c := dif_neg fun hrange => hupper (decide_eq_true hrange)
    have hletters : ∀ d ∈ erWord, isIdentChar d = true := Text.forall_mem_of_all (by decide)
    exact hletters c (hsame ▸ h)

theorem startsErDiagram_iff (line : Text) :
    Drawing.startsErDiagram line = true ↔ erWord <+: (leadingWord line).map Char.toLower := by
  have hstarts : Drawing.startsErDiagram line = true ↔ erWord <+: line.map Char.toLower := by
    unfold Drawing.startsErDiagram Text.startsWith
    rw [Option.isSome_iff_exists]
    exact ⟨fun ⟨rest, hrest⟩ => ⟨rest, (Text.after?_eq_some_iff.1 hrest).symm⟩,
      fun ⟨rest, hrest⟩ => ⟨rest, Text.after?_eq_some_iff.2 hrest.symm⟩⟩
  rw [hstarts]
  constructor
  · rintro ⟨rest, hrest⟩
    obtain ⟨read, behind, rfl, hread, -⟩ := List.map_eq_append_iff.1 hrest.symm
    have hchars : ∀ c ∈ read, isWordChar c = true := fun c hc =>
      isWordChar_of_toLower (hread ▸ List.mem_map_of_mem hc)
    have hlead : leadingWord (read ++ behind) = read ++ leadingWord behind :=
      List.takeWhile_append_of_pos hchars
    exact ⟨(leadingWord behind).map Char.toLower, by rw [hlead, List.map_append, hread]⟩
  · intro h
    exact h.trans ((List.takeWhile_prefix _).map _)

/-- A diagram is drawn as an entity-relationship diagram if the word that it
opens with begins so. -/
theorem modeOf_eq_er_iff (diagram : Text) :
    Drawing.modeOf diagram = .er
      ↔ erWord <+: (wordOf (Text.lines diagram)).map Char.toLower := by
  rw [wordOf_lines]
  unfold Drawing.modeOf
  cases contentLines diagram with
  | nil => exact ⟨nofun, fun h => absurd h (by decide)⟩
  | cons first rest =>
      show (if Drawing.startsErDiagram first.2 then Mode.er else .flowchart) = .er
        ↔ erWord <+: (leadingWord first.2).map Char.toLower
      rw [← startsErDiagram_iff]
      split <;> simp_all

/-- The lines of a joined text, the first of which is known. -/
theorem wordOf_joinLines {out : Text} (hout : '\n' ∉ out) (outs : List Text) :
    wordOf (Text.lines (Text.joinLines (out :: outs)))
      = if isInert (trim out) then wordOf (Text.lines (Text.joinLines outs))
        else leadingWord (trim out) := by
  cases outs with
  | nil =>
      rw [Text.joinLines, List.intercalate_singleton, Text.lines_eq_singleton hout, wordOf]
      rfl
  | cons next rest =>
      rw [Text.joinLines_cons_cons, Text.lines_append_newline, Text.lines_eq_singleton hout]
      rfl

-- =========================================================== identifiers

/-- The first identifier that is issued is the name's own. -/
theorem choose_empty (name : Text) :
    Naming.Allocator.choose {} name 0 = Naming.identifier name := by
  show Naming.identifier name ++ List.replicate (0 - _) '_' = _
  rw [Nat.zero_sub]
  exact List.append_nil _

/-- A diagram whose first line begins with an identifier opens with it. -/
theorem wordOf_identifier {id blanks rest : Text} (hid : isIdentifier id = true)
    (hblanks : ∀ c ∈ blanks, isBlank c = true) (hfree : '\n' ∉ blanks)
    (hrest : ∀ c ∈ rest.head?, isWordChar c = false) (outs : List Text) :
    wordOf (Text.lines (Text.joinLines ((blanks ++ (id ++ rest)) :: outs))) = id := by
  obtain ⟨hne, hchars⟩ := Naming.isIdentChar_of_isIdentifier hid
  -- the first line goes on behind the identifier as the text does
  obtain ⟨s, hs, htext⟩ : ∃ s : Text, (∀ c ∈ s.head?, isWordChar c = false)
      ∧ Text.joinLines ((blanks ++ (id ++ rest)) :: outs) = (blanks ++ id) ++ s := by
    cases outs with
    | nil => exact ⟨rest, hrest, by simp [Text.joinLines]⟩
    | cons next outs =>
        refine ⟨rest ++ '\n' :: Text.joinLines (next :: outs), ?_, ?_⟩
        · cases rest with
          | nil =>
              rintro c ⟨⟩
              decide
          | cons d rest => exact hrest
        · rw [Text.joinLines_cons_cons]
          simp
  obtain ⟨first, more, hlines⟩ := List.exists_cons_of_ne_nil (List.splitOn_ne_nil '\n' s)
  have hword : '\n' ∉ blanks ++ id := fun hmem =>
    (List.mem_append.1 hmem).elim hfree (Drawing.newline_not_mem_identifier hid)
  rw [htext, Text.lines_append hword hlines, wordOf, List.append_assoc,
    Text.trim_word hblanks hne fun c hc => isBlank_of_isIdentChar (hchars c hc),
    Drawing.isInert_identifier_append hid, if_neg Bool.false_ne_true]
  refine (Flow.isName_of_isIdentifier hid).leadingWord_append fun c hc => hs c ?_
  exact Text.mem_head?_of_lines hlines (Text.mem_head?_of_trimRight hc)

-- ================================================ entities and relations

namespace Er

/-- The word that the diagram for some lines opens with, if no block is open
before them. -/
def openingWord : List Text → Text
  | [] => []
  | line :: rest =>
    match Line.classify false line with
    | .inert | .direction _ => openingWord rest
    | .declaration _ => "erDiagram".toList
    | .blockStart name => Naming.identifier name
    | .relationship =>
      (Relationship.ofLine? line).elim [] fun r => Naming.identifier r.left
    | .blockEnd | .attribute | .other => leadingWord (trim line)

/-- What is inert is passed over. -/
theorem openingWord_append {before : List Text}
    (hbefore : ∀ line ∈ before, isInert (trim line) = true) (rest : List Text) :
    openingWord (before ++ rest) = openingWord rest := by
  induction before with
  | nil => rfl
  | cons line before ih =>
      rw [List.cons_append, openingWord, classify_of_isInert (hbefore line List.mem_cons_self)]
      exact ih fun l hl => hbefore l (List.mem_cons_of_mem _ hl)

theorem classify_eq_inert_iff {inBlock : Bool} {line : Text} :
    Line.classify inBlock line = .inert ↔ isInert (trim line) = true := by
  refine ⟨fun h => ?_, fun h => classify_of_isInert h inBlock⟩
  unfold Line.classify at h
  simp only at h
  split at h
  next hinert => exact hinert
  next =>
    repeat' split at h
    all_goals cases h

/-- A line is a relationship if one is read from it. -/
theorem exists_of_classify {inBlock : Bool} {line : Text}
    (h : Line.classify inBlock line = .relationship) :
    ∃ r, Relationship.ofLine? line = some r := by
  unfold Line.classify at h
  unfold Relationship.ofLine?
  cases hfind : Cardinality.find? (trim line) with
  | none =>
      simp only [hfind, Option.isSome_none, Bool.false_eq_true, if_false] at h
      repeat' split at h
      all_goals cases h
  | some found => exact ⟨_, rfl⟩

theorem classify_false_ne_attribute (line : Text) : Line.classify false line ≠ .attribute := by
  intro h
  unfold Line.classify at h
  simp only at h
  repeat' split at h
  all_goals cases h
  all_goals contradiction

/-- The first identifier is issued to the entity whose block starts. -/
theorem wordOf_blockStart {n : Nat} {line name : Text} (hfree : '\n' ∉ line) {c e : Context}
    (hc : c.Sound) (hfirst : c.allocator = {}) {out : Option Text}
    (h : translateLine n line (.blockStart name) c = .ok out e) (outs : List Text) :
    wordOf (Text.lines (Text.joinLines (out.toList ++ outs))) = Naming.identifier name := by
  obtain ⟨id, c', hid, hpure⟩ := Pass.exists_of_bind_eq_ok h
  rw [Pass.allocate_eq hc, hfirst, choose_empty] at hid
  cases hid
  cases hpure
  rw [Option.toList_some, List.singleton_append, List.append_assoc]
  exact wordOf_identifier (Naming.isIdentifier_identifier name)
    (Text.isBlank_of_mem_indent _) (Text.newline_not_mem_indent hfree) (by rintro _ ⟨⟩; decide) outs

/-- The first identifier is issued to the left side of a relationship. -/
theorem wordOf_relationship {n : Nat} {line : Text} {r : Relationship}
    (hr : Relationship.ofLine? line = some r) (hfree : '\n' ∉ line) {c e : Context}
    (hc : c.Sound) (hfirst : c.allocator = {}) {out : Option Text}
    (h : translateLine n line .relationship c = .ok out e) (outs : List Text) :
    wordOf (Text.lines (Text.joinLines (out.toList ++ outs))) = Naming.identifier r.left := by
  unfold translateLine translateRelationship at h
  simp only [hr, map_eq_pure_bind, bind_assoc] at h
  obtain ⟨left, c', hleft, h⟩ := Pass.exists_of_bind_eq_ok h
  rw [Pass.allocate_eq hc, hfirst, choose_empty] at hleft
  cases hleft
  obtain ⟨right, c'', hright, hpure⟩ := Pass.exists_of_bind_eq_ok h
  cases hpure
  simp only [Option.toList_some, List.singleton_append, List.append_assoc]
  exact wordOf_identifier (Naming.isIdentifier_identifier r.left)
    (Text.isBlank_of_mem_indent _) (Text.newline_not_mem_indent hfree) (by rintro _ ⟨⟩; decide) outs

/-- The diagram for some lines opens with their word, if no identifier has
been issued before. -/
theorem wordOf_translateLines {lines : List (Nat × Text)}
    (hlines : ∀ line ∈ lines, '\n' ∉ line.2) {r : Reading} (hblock : r.inBlock = false)
    {c d : Context} (hc : c.Sound) (hfirst : c.allocator = {}) {run : List Text × Reading}
    (h : translateLines r lines c = .ok run d) :
    wordOf (Text.lines (Text.joinLines run.1)) = openingWord (lines.map Prod.snd) := by
  induction lines generalizing r run with
  | nil =>
      cases h
      rfl
  | cons line lines ih =>
      have hfree := hlines line List.mem_cons_self
      have hrest := fun p hp => hlines p (List.mem_cons_of_mem line hp)
      rw [translateLines, hblock] at h
      obtain ⟨out, e, hout, h⟩ := Pass.exists_of_bind_eq_ok h
      obtain ⟨run', e', hrun, hpure⟩ := Pass.exists_of_bind_eq_ok h
      cases hpure
      -- a line that is kept and says something gives its own word
      have hkept : Line.classify false line.2 ≠ .inert →
          wordOf (Text.lines (Text.joinLines (line.2 :: run'.1))) = leadingWord (trim line.2) := by
        intro hkind
        rw [wordOf_joinLines hfree, if_neg fun h => hkind (classify_eq_inert_iff.2 h)]
      rw [List.map_cons, openingWord]
      split
      next hkind =>
        rw [hkind] at hout hrun
        cases hout
        show wordOf (Text.lines (Text.joinLines (line.2 :: run'.1))) = _
        rw [wordOf_joinLines hfree, if_pos (classify_eq_inert_iff.1 hkind)]
        exact ih hrest hblock hrun
      next d hkind =>
        rw [hkind] at hout hrun
        cases hout
        exact ih hrest (r := r.next (.direction d)) hblock hrun
      next d hkind =>
        rw [hkind] at hout
        cases hout
        exact wordOf_joinLines (by decide) run'.1
      next name hkind =>
        rw [hkind] at hout
        exact wordOf_blockStart hfree hc hfirst hout run'.1
      next hkind =>
        rw [hkind] at hout
        obtain ⟨r', hr'⟩ := exists_of_classify hkind
        rw [hr']
        exact wordOf_relationship hr' hfree hc hfirst hout run'.1
      next hkind =>
        rw [hkind] at hout
        cases hout
        exact hkept (by simp [hkind])
      next hkind => exact absurd hkind (classify_false_ne_attribute _)
      next hkind =>
        rw [hkind] at hout
        cases hout
        exact hkept (by simp [hkind])

end Er

-- ============================================================= flowcharts

namespace Flow

/-- The word that the diagram for some lines opens with. -/
def openingWord : List Text → Text
  | [] => []
  | line :: rest =>
    if isInert (trim line) then openingWord rest
    else if isKept (trim line) then leadingWord (trim line)
    else
      match tokens (trim line) with
      | [] => openingWord rest
      | t :: _ => leadingWord (t.written Naming.identifier)

/-- What is inert is passed over. -/
theorem openingWord_append {before : List Text}
    (hbefore : ∀ line ∈ before, isInert (trim line) = true) (rest : List Text) :
    openingWord (before ++ rest) = openingWord rest := by
  induction before with
  | nil => rfl
  | cons line before ih =>
      rw [List.cons_append, openingWord, if_pos (hbefore line List.mem_cons_self)]
      exact ih fun l hl => hbefore l (List.mem_cons_of_mem _ hl)

/-- Lines of a diagram open with the word of the source's lines, if the first
label has its own identifier. -/
theorem wordOf_diagram {ids : Text → Text} (hids : ∀ label, isIdentifier (ids label) = true)
    {lines : List Text}
    (hfirst : ∀ label ∈ ((lines.flatMap lineTokens).flatMap Token.labels).head?,
      ids label = Naming.identifier label) :
    wordOf (lines.map (diagramLine ids)) = openingWord lines := by
  induction lines with
  | nil => rfl
  | cons line lines ih =>
      rw [List.map_cons, wordOf, openingWord]
      cases hkept : isKept (trim line) with
      | true =>
          have hline : diagramLine ids line = line := if_pos hkept
          have hnone : lineTokens line = [] := if_pos hkept
          rw [List.flatMap_cons, hnone, List.nil_append] at hfirst
          rw [hline, ih hfirst]
          rfl
      | false =>
          have hspeaks : isInert (trim line) = false := by
            rw [Bool.eq_false_iff]
            intro hinert
            rw [isKept_of_isInert hinert] at hkept
            cases hkept
          have hline : lineTokens line = tokens (trim line) := if_neg (by simp [hkept])
          rw [hspeaks]
          cases htokens : tokens (trim line) with
          | nil =>
              have hempty : diagramLine ids line = indent line := by
                unfold diagramLine
                rw [if_neg (by simp [hkept]), htokens]
                exact List.append_nil _
              have hblank : isInert (trim (diagramLine ids line)) = true := by
                rw [hempty, Text.trim_eq_nil_iff.2 (Text.isBlank_of_mem_indent line)]
                rfl
              rw [List.flatMap_cons, hline, htokens, List.nil_append] at hfirst
              rw [if_pos hblank]
              exact ih hfirst
          | cons t ts =>
              have hnonempty := hline.trans htokens
              rw [isInert_diagramLine hids hnonempty, if_neg Bool.false_ne_true,
                leadingWord_diagramLine hids hnonempty]
              show leadingWord (t.written ids) = leadingWord (t.written Naming.identifier)
              cases t with
              | arrow spelling => rfl
              | reference spelling => rfl
              | node shape label =>
                  rw [leadingWord_node hids, leadingWord_node Naming.isIdentifier_identifier]
                  refine hfirst label ?_
                  rw [List.flatMap_cons, hnonempty]
                  rfl

/-- The first label of a source has its own identifier. -/
theorem ids_eq_of_head {source label : Text} (h : label ∈ (sourceLabels source).head?) :
    (sourceAllocator source).ids label = Naming.identifier label := by
  unfold sourceAllocator
  cases hlabels : sourceLabels source with
  | nil =>
      rw [hlabels] at h
      cases h
  | cons first rest =>
      rw [hlabels] at h
      cases h
      have hexact := Naming.Allocator.exact_empty
      obtain ⟨-, hissued, -, hget⟩ := hexact.allocate label 0
      rw [choose_empty] at hget
      have hheld : (Naming.Allocator.issueAll {} (labelRequests (label :: rest))).legend.get?
          (Naming.identifier label) = some label :=
        (hissued.issueAll (labelRequests rest)).2.get? hget
      exact (Naming.Allocator.exists_label hheld).2.symm

end Flow

-- =============================================================== sources

/-- The word that the diagram for a source opens with. -/
def openingWord (source : Text) : Text :=
  match Mode.ofSource source with
  | .er => Er.openingWord (Text.lines source)
  | .flowchart => Flow.openingWord (Text.lines source)

variable {source : Text} {strict : Bool} {padding : Int} {compiled : Compiled}

/-- The word is read off the source. -/
theorem wordOf_compile (h : compile source strict padding = .ok compiled) :
    wordOf (Text.lines compiled.code) = openingWord source := by
  unfold openingWord
  cases hmode : Mode.ofSource source with
  | er =>
      rw [compile_er hmode] at h
      split at h
      next outs last c hrun =>
        cases h
        rw [← Text.map_snd_numberedLines source]
        exact Er.wordOf_translateLines
          (fun line hline =>
            Text.newline_not_mem_of_mem_lines (Text.mem_lines_of_mem_numberedLines hline))
          rfl (Context.sound_start strict padding) rfl hrun
      next => cases h
  | flowchart =>
      obtain ⟨lenient, hlenient, hcode, -⟩ := Flow.exists_compiled_flowchart hmode padding
      obtain rfl := eq_of_compile h hlenient
      have hids := Flow.isIdentifier_ids (Flow.sourceAllocator source)
      rw [hcode, Flow.lines_diagram hids]
      exact Flow.wordOf_diagram hids fun label hlabel => Flow.ids_eq_of_head hlabel

theorem mode_of_compile (h : compile source strict padding = .ok compiled) :
    compiled.mode = Mode.ofSource source := by
  unfold compile at h
  simp only at h
  split at h
  next =>
    cases h
    rfl
  next => cases h

/-- A source that begins with its declaration, or as a flowchart with a header,
is drawn as what it is compiled to. -/
theorem drawn_as_compiled {before after : List Text} {line : Text}
    (hlines : Text.lines source = before ++ line :: after)
    (hbefore : ∀ l ∈ before, isInert (trim l) = true)
    (hfirst : (Er.declaration? (trim line)).isSome = true
      ∨ Mode.ofSource source = .flowchart
        ∧ Flow.startsWithAnyCase Flow.headerWords (trim line) = true)
    (h : compile source strict padding = .ok compiled) :
    Drawing.modeOf compiled.code = compiled.mode := by
  have hdrawn := modeOf_eq_er_iff compiled.code
  rw [wordOf_compile h, openingWord] at hdrawn
  rw [mode_of_compile h]
  rcases hfirst with hdeclared | ⟨hmode, hheader⟩
  · have hmem : line ∈ Text.lines source := hlines ▸ List.mem_append_right _ List.mem_cons_self
    have hmode := Er.mode_of_declaration? hmem hdeclared
    obtain ⟨d, hd⟩ := Option.isSome_iff_exists.1 hdeclared
    rw [hmode, hlines, Er.openingWord_append hbefore, Er.openingWord,
      Er.classify_of_declaration? hd] at hdrawn
    rw [hmode, hdrawn]
    show erWord <+: "erDiagram".toList.map Char.toLower
    exact ⟨[], by decide⟩
  · obtain ⟨hspeaks, hstarts⟩ := Flow.of_header hheader
    rw [hmode, hlines, Flow.openingWord_append hbefore, Flow.openingWord, hspeaks,
      Flow.isKept_of_header hheader, if_neg Bool.false_ne_true, if_pos rfl,
      ← startsErDiagram_iff, hstarts] at hdrawn
    rw [hmode]
    cases hdiagram : Drawing.modeOf compiled.code with
    | er => exact absurd (hdrawn.1 hdiagram) Bool.false_ne_true
    | flowchart => rfl

/-- How a source is drawn. Unless its diagram opens with a longer word that
begins as `erDiagram` does, it is drawn as an entity-relationship diagram
exactly if it opens with that word. So it is drawn as what it is compiled to
exactly if the word at the opening is there if it is anywhere. -/
theorem drawn_mode_iff (h : compile source strict padding = .ok compiled)
    (hword : erWord <+: (openingWord source).map Char.toLower →
      (openingWord source).map Char.toLower = erWord) :
    (Drawing.modeOf compiled.code = .er ↔ (openingWord source).map Char.toLower = erWord)
      ∧ (Drawing.modeOf compiled.code = compiled.mode
        ↔ (Mode.ofSource source = .er ↔ (openingWord source).map Char.toLower = erWord)) := by
  have hdrawn : Drawing.modeOf compiled.code = .er
      ↔ (openingWord source).map Char.toLower = erWord := by
    rw [modeOf_eq_er_iff, wordOf_compile h]
    exact ⟨hword, fun heq => heq ▸ List.prefix_refl _⟩
  refine ⟨hdrawn, ?_⟩
  rw [← hdrawn, mode_of_compile h]
  cases Drawing.modeOf compiled.code with
  | er => cases Mode.ofSource source <;> simp
  | flowchart => cases Mode.ofSource source <;> simp

/-- A comment before the declaration makes no difference. -/
theorem drawn_mode_of_declared :
    ∃ compiled : Compiled,
      compile "%% people\nERDIAGRAM LR\nA ||--|\x7b B : has".toList false 2 = .ok compiled
        ∧ openingWord "%% people\nERDIAGRAM LR\nA ||--|\x7b B : has".toList
          = "erDiagram".toList
        ∧ Drawing.modeOf compiled.code = compiled.mode := by
  have hopening : openingWord "%% people\nERDIAGRAM LR\nA ||--|\x7b B : has".toList
      = "erDiagram".toList := by decide +kernel
  have hlower : (openingWord "%% people\nERDIAGRAM LR\nA ||--|\x7b B : has".toList).map
      Char.toLower = erWord := by
    rw [hopening]
    decide
  obtain ⟨compiled, hcompile, -⟩ := exists_lenient
    "%% people\nERDIAGRAM LR\nA ||--|\x7b B : has".toList 2
  refine ⟨compiled, hcompile, hopening, (drawn_mode_iff hcompile fun _ => hlower).2.2 ?_⟩
  exact iff_of_true (by decide +kernel) hlower

/-- The word in a label is enough for the compiler, and not for drawing. -/
theorem word_in_label_not_drawn :
    ∃ compiled : Compiled,
      compile "flowchart TD\n\"erDiagram\" --> \"b\"".toList false 2 = .ok compiled
        ∧ compiled.mode = .er
        ∧ compiled.code = "flowchart TD\n\"erDiagram\" --> \"b\"".toList
        ∧ Drawing.modeOf compiled.code = .flowchart := by
  obtain ⟨compiled, hcompile, hmode, hcode, -⟩ := exists_compiled
    "flowchart TD\n\"erDiagram\" --> \"b\"".toList
    "flowchart TD\n\"erDiagram\" --> \"b\"".toList .er [] (by decide +kernel)
  refine ⟨compiled, hcompile, hmode, hcode, ?_⟩
  rw [hcode]
  decide +kernel

end FreeLabel
