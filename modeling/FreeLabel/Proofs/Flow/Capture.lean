/-
Identifiers that are issued beside identifiers that a source uses itself.

# Two populations

A source may name a node itself, with or without a label. Such a reference
passes through as it is spelled and is entered nowhere: what is issued
follows from the labels alone (`Pass.AsksFor`). So an identifier that is
issued for a label may be one that the source has given to a node with
another label, and the two nodes become one. `captures_iff` says exactly
when: if the legend has another name for the identifier of such a node. It
also says how little it takes to keep clear of this, since all that a label
can be issued is one of its own candidates.

# What a flowchart compiles to

The argument is about any flowchart, whatever its lines hold. Each line
becomes the row of its tokens under the identifiers that the allocator
chooses at the end of the pass (`exists_diagramLines`), and that allocator
is the one which was asked for the labels in their order. A label that is
looked up need not be told apart from one that is issued: asking again
changes nothing (`Exact.issue_eq_self`).
-/
import FreeLabel.Proofs.Flow.Translation
import FreeLabel.Proofs.Strictness

namespace FreeLabel

open Naming (Allocator)
open Naming.Allocator (Request candidate)

-- ============================================================= requests

/-- What is requested for labels. -/
def labelRequests (labels : List Text) : List Request :=
  labels.map fun label => { name := label, minLength := 0 }

theorem labelRequests_append (labels labels' : List Text) :
    labelRequests (labels ++ labels') = labelRequests labels ++ labelRequests labels' :=
  List.map_append

namespace Pass

/-- A step that goes well asks the allocator for labels, in order, and for
nothing else. -/
def AsksFor (p : Pass α) (labels : List Text) : Prop :=
  ∀ c : Context, c.Noted → ∀ a d, p c = .ok a d →
    d.Noted ∧ d.allocator = c.allocator.issueAll (labelRequests labels)

variable {labels labels' : List Text}

theorem AsksFor.pure (a : α) : (Pure.pure a : Pass α).AsksFor [] := by
  rintro c hc _ _ ⟨⟩
  exact ⟨hc, rfl⟩

theorem AsksFor.bind {p : Pass α} {f : α → Pass β} (hp : p.AsksFor labels)
    (hf : ∀ a, (f a).AsksFor labels') : (p >>= f).AsksFor (labels ++ labels') := by
  intro c hc b e hrun
  obtain ⟨a, d, hpc, hfd⟩ := exists_of_bind_eq_ok hrun
  obtain ⟨hd, hallocator⟩ := hp c hc a d hpc
  obtain ⟨he, hallocator'⟩ := hf a d hd b e hfd
  refine ⟨he, ?_⟩
  rw [hallocator', hallocator, labelRequests_append]
  exact List.foldl_append.symm

theorem graded_asksFor : Graded AsksFor where
  pure := .pure
  bind := .bind

theorem AsksFor.map {p : Pass α} (hp : p.AsksFor labels) (f : α → β) :
    (f <$> p).AsksFor labels :=
  graded_asksFor.map labels hp f

theorem AsksFor.mapM {f : α → Pass β} {labels : α → List Text}
    (hf : ∀ a, (f a).AsksFor (labels a)) (as : List α) :
    (as.mapM f).AsksFor (as.flatMap labels) :=
  graded_asksFor.mapM labels hf as

theorem AsksFor.report (lineNo : Int) (line : Text) (complaint : Complaint) :
    (Pass.report lineNo line complaint).AsksFor [] := by
  intro c hc _ d hrun
  rw [report_eq] at hrun
  split at hrun
  next => cases hrun
  next =>
    cases hrun
    exact ⟨⟨⟨hc.sound.exact, hc.sound.issued⟩, hc.nodes⟩, rfl⟩

end Pass

namespace Flow

open Pass (AsksFor)
open Text (trim indent)

/-- Whether a label is looked up or issued, the allocator is the one that
was asked for it. -/
theorem asksFor_nodeId (label : Text) : (nodeId label).AsksFor [label] := by
  intro c hc id d hrun
  obtain ⟨id', d', hrun', hd, -⟩ := mentions_nodeId label c hc
  cases hrun.symm.trans hrun'
  refine ⟨hd, ?_⟩
  unfold nodeId at hrun
  rw [Pass.get_bind] at hrun
  cases hlookup : c.nodes.lookup label with
  | some id =>
      rw [hlookup] at hrun
      cases hrun
      obtain ⟨rfl, hheld⟩ := hc.nodes label id hlookup
      exact (hc.sound.exact.issue_eq_self hheld).symm
  | none =>
      rw [hlookup] at hrun
      obtain ⟨id, e, hissue, hrest⟩ := Pass.exists_of_bind_eq_ok hrun
      rw [Pass.allocate_eq hc.sound] at hissue
      cases hissue
      cases hrest
      rfl

theorem asksFor_token (t : Token) : t.translate.AsksFor t.labels := by
  cases t with
  | arrow spelling => exact .pure spelling
  | reference spelling => exact .pure spelling
  | node shape label =>
      exact (asksFor_nodeId label).map fun id => id ++ shape.bracket.enclose label

theorem asksFor_translateTokens (ts : List Token) :
    (translateTokens ts).AsksFor (ts.flatMap Token.labels) := by
  have hspelled := AsksFor.mapM (fun t : Token => (asksFor_token t).map fun s => (t.isArrow, s)) ts
  exact hspelled.map fun spelled => squeeze (layOut false spelled)

-- ================================================================ lines

/-- The tokens of a line that is rewritten. -/
def lineTokens (line : Text) : List Token :=
  if isKept (trim line) then [] else tokens (trim line)

/-- A line of a source as a line of the diagram. -/
def diagramLine (ids : Text → Text) (line : Text) : Text :=
  if isKept (trim line) then line
  else indent line ++
    squeeze (layOut false ((tokens (trim line)).map fun t => (t.isArrow, t.written ids)))

/-- What becomes of a numbered line. -/
def translateNumbered (line : Nat × Text) : Pass Text :=
  if isKept (trim line.2) then pure line.2 else translateLine line.1 line.2

/-- A line asks for its labels. -/
theorem asksFor_translateNumbered (line : Nat × Text) :
    (translateNumbered line).AsksFor ((lineTokens line.2).flatMap Token.labels) := by
  unfold translateNumbered lineTokens
  split
  next => exact .pure line.2
  next =>
    have hrow := (asksFor_translateTokens (tokens (trim line.2))).map (indent line.2 ++ ·)
    rw [map_eq_pure_bind] at hrow
    unfold translateLine
    split
    next => exact hrow
    next => exact (AsksFor.report _ _ _).bind fun _ => hrow

variable {c : Context}

/-- A line is translated as its tokens are, once what is dropped has been
reported; and a report changes nothing that identifiers depend on. -/
theorem exists_reported (hc : c.Noted) (hlenient : c.strict = false) (lineNo : Nat)
    (line : Text) :
    ∃ d : Context, d.Noted ∧ d.strict = false
      ∧ translateLine lineNo line c
        = ((indent line ++ ·) <$> translateTokens (tokens (trim line))) d := by
  unfold translateLine
  rw [map_eq_pure_bind]
  cases strays (trim line) with
  | nil => exact ⟨c, hc, hlenient, rfl⟩
  | cons stray dropped =>
      refine ⟨{ c with diagnostics := c.diagnostics ++
        [{ lineNo := lineNo, line := line, complaint := .strayText (stray :: dropped) }] },
        ⟨⟨hc.sound.exact, hc.sound.issued⟩, hc.nodes⟩, hlenient, ?_⟩
      simp only [bind, EStateM.bind, Pass.report_eq, hlenient]
      rfl

/-- The step lemma: in a lenient pass a line becomes what its tokens say of
the identifiers that any later allocator chooses. -/
theorem exists_diagramLine (hc : c.Noted) (hlenient : c.strict = false) (line : Nat × Text) :
    ∃ (out : Text) (d : Context), translateNumbered line c = .ok out d ∧ d.strict = false
      ∧ ∀ last : Allocator, last.Exact → d.legend.Within last.legend →
          out = diagramLine last.ids line.2 := by
  unfold translateNumbered diagramLine
  split
  next => exact ⟨line.2, c, rfl, hlenient, fun _ _ _ => rfl⟩
  next =>
    obtain ⟨b, hb, hb', htranslate⟩ := exists_reported hc hlenient line.1 line.2
    have hrow := (mentions_tokens (tokens (trim line.2))).map (indent line.2 ++ ·)
    have hquiet := (reports_translateTokens (tokens (trim line.2))).map (indent line.2 ++ ·)
    obtain ⟨out, d, hrun, -, -, -, -, hout⟩ := hrow b hb
    obtain ⟨out', d', -, hrun', -, hd', -⟩ := hquiet b hb.sound hb'
    cases hrun.symm.trans hrun'
    exact ⟨out, d, htranslate.trans hrun, hd', hout⟩

/-- The run lemma: so do all lines. -/
theorem exists_diagramLines (hc : c.Noted) (hlenient : c.strict = false)
    (lines : List (Nat × Text)) :
    ∃ (outs : List Text) (d : Context), lines.mapM translateNumbered c = .ok outs d
      ∧ ∀ last : Allocator, last.Exact → d.legend.Within last.legend →
          outs = lines.map fun line => diagramLine last.ids line.2 := by
  induction lines generalizing c with
  | nil => exact ⟨[], c, rfl, fun _ _ _ => rfl⟩
  | cons line lines ih =>
      obtain ⟨out, d, hline, hd', hout⟩ := exists_diagramLine hc hlenient line
      obtain ⟨hd, -⟩ := asksFor_translateNumbered line c hc out d hline
      obtain ⟨outs, e, hlines, houts⟩ := ih hd hd'
      obtain ⟨-, hallocator⟩ := AsksFor.mapM asksFor_translateNumbered lines d hd outs e hlines
      have hgrown : d.legend.Within e.legend := by
        unfold Context.legend
        rw [hallocator]
        exact (hd.sound.exact.issueAll _).2
      refine ⟨out :: outs, e, ?_, ?_⟩
      · rw [List.mapM_cons]
        simp only [bind, EStateM.bind, hline, hlines]
        rfl
      · intro last hlast hwithin
        rw [List.map_cons, ← hout last hlast (hgrown.trans hwithin), ← houts last hlast hwithin]

-- ============================================================== sources

/-- The tokens of all lines that are rewritten. -/
def sourceTokens (source : Text) : List Token := (Text.lines source).flatMap lineTokens

/-- The labels by which a source names nodes, in order. -/
def sourceLabels (source : Text) : List Text := (sourceTokens source).flatMap Token.labels

/-- The allocator that was asked for the labels of a source. -/
def sourceAllocator (source : Text) : Allocator :=
  Allocator.issueAll {} (labelRequests (sourceLabels source))

/-- What a lenient pass makes of any source: its lines, under the
identifiers that are chosen for its labels alone. -/
theorem exists_translated (source : Text) (padding : Int) :
    ∃ d : Context, Flow.translate source { strict := false, padding := padding }
        = .ok (Text.joinLines ((Text.lines source).map (diagramLine (sourceAllocator source).ids)))
          d
      ∧ d.allocator = sourceAllocator source := by
  have hstart := Context.noted_start false padding
  obtain ⟨outs, d, hrun, houts⟩ := exists_diagramLines hstart rfl (Text.numberedLines source)
  obtain ⟨hd, hallocator⟩ := AsksFor.mapM asksFor_translateNumbered _ _ hstart _ _ hrun
  have hlabels : (Text.numberedLines source).flatMap
      (fun line => (lineTokens line.2).flatMap Token.labels) = sourceLabels source := by
    unfold sourceLabels sourceTokens
    rw [List.flatMap_assoc, ← Text.map_snd_numberedLines, List.flatMap_map]
  rw [hlabels] at hallocator
  have hlast : d.allocator = sourceAllocator source := hallocator
  have hlines : (Text.numberedLines source).map (fun line => diagramLine d.allocator.ids line.2)
      = (Text.lines source).map (diagramLine d.allocator.ids) := by
    rw [← Text.map_snd_numberedLines, List.map_map]
    rfl
  refine ⟨d, ?_, hlast⟩
  rw [houts d.allocator hd.sound.exact (.refl _), hlines] at hrun
  unfold translateNumbered at hrun
  unfold Flow.translate
  simp only [bind, EStateM.bind, hrun, ← hlast]
  rfl

/-- What any flowchart compiles to. -/
theorem exists_compiled_flowchart {source : Text} (hmode : Mode.ofSource source = .flowchart)
    (padding : Int) :
    ∃ compiled : Compiled, compile source false padding = .ok compiled
      ∧ compiled.code
        = Text.joinLines ((Text.lines source).map (diagramLine (sourceAllocator source).ids))
      ∧ compiled.legend = (sourceAllocator source).legend := by
  obtain ⟨d, hrun, hlast⟩ := exists_translated source padding
  have htranslate : FreeLabel.translate source .flowchart { strict := false, padding := padding }
      = .ok (Text.joinLines ((Text.lines source).map (diagramLine (sourceAllocator source).ids)),
          none) d := by
    unfold FreeLabel.translate
    simp only [bind, EStateM.bind, hrun]
    rfl
  refine ⟨{ mode := .flowchart
            code := Text.joinLines
              ((Text.lines source).map (diagramLine (sourceAllocator source).ids))
            legend := d.legend, direction := none, diagnostics := d.diagnostics }, ?_, rfl, ?_⟩
  · unfold compile
    rw [hmode]
    simp only [EStateM.run, htranslate]
  · exact congrArg Allocator.legend hlast

end Flow

-- ============================================================ candidates

namespace Naming.Allocator

/-- A label that was asked for is held under its identifier. -/
theorem get?_of_mem_labels {labels : List Text} {label : Text} (h : label ∈ labels) :
    (issueAll {} (labelRequests labels)).legend.get?
      ((issueAll {} (labelRequests labels)).ids label) = some label :=
  exact_empty.get?_issueAll (List.mem_map.2 ⟨label, h, rfl⟩)

/-- Nothing else is held. -/
theorem exists_label {labels : List Text} {id held : Text}
    (h : (issueAll {} (labelRequests labels)).legend.get? id = some held) :
    held ∈ labels ∧ id = (issueAll {} (labelRequests labels)).ids held := by
  rcases exact_empty.exists_request h with hstart | ⟨r, hr, rfl, hid⟩
  · cases hstart
  · obtain ⟨label, hlabel, rfl⟩ := List.mem_map.1 hr
    exact ⟨hlabel, hid⟩

/-- What is chosen for a label is one of its candidates, and the legend
holds every candidate before it for another label. -/
theorem Exact.exists_candidate {a : Allocator} (ha : a.Exact) (label : Text) :
    ∃ k, a.ids label = candidate (identifier label) k
      ∧ ∀ i < k, ∃ rival ≠ label,
          a.legend.get? (candidate (identifier label) i) = some rival := by
  obtain ⟨k, -, heq, hrefused, -⟩ := choose_eq_candidate a label 0
  have hbase : base label 0 = identifier label := by
    unfold base padTo
    rw [Nat.zero_sub, List.replicate_zero, List.append_nil]
  rw [hbase] at heq hrefused
  refine ⟨k, heq, fun i hi => ?_⟩
  have hnot : ¬ a.isFreeFor label (candidate (identifier label) i) = true := by
    rw [hrefused i hi]
    exact Bool.false_ne_true
  rw [ha.isFreeFor_iff] at hnot
  obtain ⟨rival, hheld, hne⟩ : ∃ rival,
      a.legend.get? (candidate (identifier label) i) = some rival ∧ rival ≠ label := by
    simpa using hnot
  exact ⟨rival, hne, hheld⟩

end Naming.Allocator

-- ============================================================== capture

namespace Flow

/-- The identifier and the label of a node that the source names and labels
itself. -/
def Token.definition? : Token → Option (Text × Text)
  | .reference spelling =>
    (Bracket.anyLabel? (spelling.dropWhile isWordChar)).map fun (_, label, _) =>
      (spelling.takeWhile isWordChar, label)
  | _ => none

/-- The nodes that a source names and labels itself. -/
def definitions (source : Text) : List (Text × Text) :=
  (sourceTokens source).filterMap Token.definition?

/-- When identifiers that are issued keep apart from those that a flowchart
uses itself. What is issued follows from the labels alone: each has one
identifier, which the legend holds for it, and that is the first of its
candidates that is not issued for another label. No label has the
identifier of a node that the source labels otherwise, exactly if the
legend has no other name for the identifier of any such node. -/
theorem captures_iff {source : Text} (hmode : Mode.ofSource source = .flowchart)
    (padding : Int) :
    ∃ (compiled : Compiled) (ids : Text → Text), compile source false padding = .ok compiled
      ∧ (∀ strict again, compile source strict padding = .ok again → again = compiled)
      ∧ compiled.code = Text.joinLines ((Text.lines source).map (diagramLine ids))
      ∧ compiled.legend
        = (Allocator.issueAll {} (labelRequests (sourceLabels source))).legend
      ∧ (∀ label ∈ sourceLabels source, compiled.legend.get? (ids label) = some label
          ∧ ∃ k, ids label = candidate (Naming.identifier label) k
            ∧ ∀ i < k, ∃ rival ≠ label,
                compiled.legend.get? (candidate (Naming.identifier label) i) = some rival)
      ∧ ((∀ label ∈ sourceLabels source, ∀ node ∈ definitions source,
            ids label = node.1 → label = node.2)
          ↔ ∀ node ∈ definitions source, ∀ name,
              compiled.legend.get? node.1 = some name → name = node.2) := by
  obtain ⟨compiled, hcompile, hcode, hlegend⟩ := exists_compiled_flowchart hmode padding
  have hexact : (sourceAllocator source).Exact :=
    (Allocator.exact_empty.issueAll (labelRequests (sourceLabels source))).1
  have hheld : ∀ label ∈ sourceLabels source,
      compiled.legend.get? ((sourceAllocator source).ids label) = some label := by
    intro label hlabel
    rw [hlegend]
    exact Allocator.get?_of_mem_labels hlabel
  refine ⟨compiled, (sourceAllocator source).ids, hcompile, fun _ _ h => eq_of_compile h hcompile,
    hcode, hlegend, ?_, ?_, ?_⟩
  · intro label hlabel
    refine ⟨hheld label hlabel, ?_⟩
    rw [hlegend]
    exact hexact.exists_candidate label
  · -- what the legend holds for the node's identifier was issued for a label
    intro hapart node hnode name hname
    rw [hlegend] at hname
    obtain ⟨hlabel, hid⟩ := Allocator.exists_label hname
    exact hapart name hlabel node hnode hid.symm
  · intro hfree label hlabel node hnode heq
    exact hfree node hnode label (heq ▸ hheld label hlabel)

/-- Labels whose words are the same take numbers, and stay clear of a node
that has the next number. -/
theorem numbers_miss_reference :
    Mode.ofSource "flowchart TD\na_b3[\"other\"] --> \"a b\"\n\"a-b\" --> C[\"a b\"]".toList
        = .flowchart
      ∧ ∃ (compiled : Compiled) (ids : Text → Text),
          compile "flowchart TD\na_b3[\"other\"] --> \"a b\"\n\"a-b\" --> C[\"a b\"]".toList
              false 2 = .ok compiled
            ∧ compiled.code = ("flowchart TD\na_b3[\"other\"] --> a_b[\"a b\"]\n" ++
                "a_b2[\"a-b\"] --> C[\"a b\"]").toList
            ∧ compiled.legend.get? (ids "a b".toList) = some "a b".toList
            ∧ compiled.legend.get? (ids "a-b".toList) = some "a-b".toList
            ∧ ∀ label ∈ ["a b".toList, "a-b".toList],
                ∀ node ∈ [("a_b3".toList, "other".toList), ("C".toList, "a b".toList)],
                  ids label = node.1 → label = node.2 := by
  have hmode : Mode.ofSource
      "flowchart TD\na_b3[\"other\"] --> \"a b\"\n\"a-b\" --> C[\"a b\"]".toList = .flowchart := by
    decide +kernel
  have hlabels : sourceLabels
      "flowchart TD\na_b3[\"other\"] --> \"a b\"\n\"a-b\" --> C[\"a b\"]".toList
        = ["a b".toList, "a-b".toList] := by decide +kernel
  have hnodes : definitions
      "flowchart TD\na_b3[\"other\"] --> \"a b\"\n\"a-b\" --> C[\"a b\"]".toList
        = [("a_b3".toList, "other".toList), ("C".toList, "a b".toList)] := by decide +kernel
  obtain ⟨compiled, ids, hcompile, -, -, -, hheld, hapart⟩ := captures_iff hmode 2
  obtain ⟨again, hagain, -, hcode, hentries⟩ := exists_compiled
    "flowchart TD\na_b3[\"other\"] --> \"a b\"\n\"a-b\" --> C[\"a b\"]".toList
    ("flowchart TD\na_b3[\"other\"] --> a_b[\"a b\"]\n" ++
      "a_b2[\"a-b\"] --> C[\"a b\"]").toList
    .flowchart [("a_b".toList, "a b".toList), ("a_b2".toList, "a-b".toList)] (by decide +kernel)
  obtain rfl := Except.ok.inj (hcompile.symm.trans hagain)
  rw [hlabels] at hheld hapart
  rw [hnodes] at hapart
  refine ⟨hmode, compiled, ids, hcompile, hcode, (hheld _ (by simp)).1, (hheld _ (by simp)).1,
    hapart.2 ?_⟩
  -- the legend has no name at all for either node's identifier
  unfold Naming.Legend.get?
  rw [hentries]
  decide

/-- A label is issued the identifier of a node that the source has given
another label, and both are written as one node. -/
theorem label_captures_reference :
    ∃ compiled : Compiled,
      Mode.ofSource "flowchart TD\nA[\"other\"] --> \"A\"".toList = .flowchart
        ∧ definitions "flowchart TD\nA[\"other\"] --> \"A\"".toList
          = [("A".toList, "other".toList)]
        ∧ sourceLabels "flowchart TD\nA[\"other\"] --> \"A\"".toList = ["A".toList]
        ∧ compile "flowchart TD\nA[\"other\"] --> \"A\"".toList false 2 = .ok compiled
        ∧ compiled.code = "flowchart TD\nA[\"other\"] --> A[\"A\"]".toList
        ∧ compiled.legend.get? "A".toList = some "A".toList := by
  obtain ⟨compiled, hcompile, -, hcode, hentries⟩ := exists_compiled
    "flowchart TD\nA[\"other\"] --> \"A\"".toList
    "flowchart TD\nA[\"other\"] --> A[\"A\"]".toList .flowchart
    [("A".toList, "A".toList)] (by decide +kernel)
  refine ⟨compiled, by decide +kernel, by decide +kernel, by decide +kernel, hcompile, hcode, ?_⟩
  unfold Naming.Legend.get?
  rw [hentries]
  rfl

end Flow

end FreeLabel
