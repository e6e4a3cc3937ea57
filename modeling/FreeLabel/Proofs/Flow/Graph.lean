/-
Flowcharts from source to drawing.

# The graph

What is drawn for a sketch is its graph: one node for each label and one
edge for each arrow (`Sketch.drawn_graph`). Two scanners that know nothing
of each other have to take the same line apart in the same way for that,
and identifiers that were issued line by line have to tell labels apart
over the whole source.

# Arrows in labels

The two scanners do not agree on all lines. The compiler takes a label in
quotes as a whole; the reader of diagrams looks for arrows first, also
between quotes. So it turns down a diagram in which a label looks as if an
arrow began in it, and `accepted_iff` says that nothing else is turned
down, and what the reader does not look at.
-/
import Mathlib.Control.Monad.Basic
import FreeLabel.Drawing
import FreeLabel.Proofs.Flow.Diagram

namespace FreeLabel.Flow

open Drawing (FlowDrawing)
open Text (trim)

variable {source : Text}

-- ========================================================== the drawings

theorem drawAs_flowchart (diagram : Text) :
    drawAs .flowchart diagram
      = (FlowDrawing.ofDiagram diagram).map fun d => d.layout.markup.write := by
  unfold drawAs Drawing.markup Drawing.flowMarkup
  cases FlowDrawing.ofDiagram diagram <;> rfl

theorem drawAs_flowchart_eq_ok_iff {diagram drawing : Text} :
    drawAs .flowchart diagram = .ok drawing
      ↔ ∃ d, FlowDrawing.ofDiagram diagram = .ok d ∧ drawing = d.layout.markup.write := by
  rw [drawAs_flowchart]
  cases FlowDrawing.ofDiagram diagram with
  | error why => exact ⟨nofun, nofun⟩
  | ok d => simp [Except.map, eq_comm]

/-- What is drawn for a sketch under the identifiers of its pass. -/
theorem Sketch.ofDiagram_of_pass (hsketch : Sketch source) {c : Context}
    (hheld : ∀ w ∈ walks source, ∀ label ∈ w.labels,
      c.legend.get? (c.allocator.ids label) = some label) (d : FlowDrawing) :
    FlowDrawing.ofDiagram
        (Text.joinLines ((Text.lines source).map (rewrite c.allocator.ids))) = .ok d
      ↔ d = picture c.allocator.ids (drawnWalks c.allocator.ids (walks source))
        ∧ ∀ w ∈ walks source, c.allocator.ids w.first ∈ Drawing.ignoredWords
          ∨ ∀ l ∈ w.labels, Shaftless l := by
  refine hsketch.ofDiagram_eq_ok_iff (isIdentifier_ids c.allocator) ?_ d
  -- one identifier is held for one label
  intro l hl m hm heq
  obtain ⟨v, hv, hl⟩ := List.mem_flatMap.1 hl
  obtain ⟨w, hw, hm⟩ := List.mem_flatMap.1 hm
  have hget := hheld v hv l hl
  rw [heq, hheld w hw m hm] at hget
  exact (Option.some.inj hget).symm

/-- All walks are drawn if the reader ignores no rewritten line. -/
theorem Sketch.drawnWalks_eq_self (hsketch : Sketch source) {ids : Text → Text}
    (hids : ∀ label, Naming.isIdentifier (ids label) = true)
    (hread : ∀ p ∈ (Text.lines source).zip ((Text.lines source).map (rewrite ids)),
      isKept (trim p.1) = false → startsWithWord Drawing.ignoredWords (trim p.2) = false) :
    drawnWalks ids (walks source) = walks source := by
  refine List.filter_eq_self.2 fun w hw => ?_
  obtain ⟨line, hline, hwalk⟩ := List.mem_filterMap.1 hw
  have hpair : (line, rewrite ids line)
      ∈ (Text.lines source).zip ((Text.lines source).map (rewrite ids)) := by
    rw [← List.map_prod_left_eq_zip]
    exact List.mem_map_of_mem hline
  have hnot := hread _ hpair (Walk.isKept_of_ofLine? (Text.trim_trim line) hwalk)
  rw [(hsketch.rewrite_line hids hline).1, written, hwalk] at hnot
  have hfirst : ids w.first ∉ Drawing.ignoredWords := by
    rw [← startsWithWord_row hids w, hnot]
    exact Bool.false_ne_true
  simpa using hfirst

/-- The drawn flowchart is the graph of its source. A sketch compiles
without reports, and its labels get identifiers that the legend holds for
them. If then the diagram is admitted, and none of the rewritten lines is
one that the reader ignores, the drawing shows one node for each label, in
the order of first mention, and one edge for each arrow, in order, from
the node before it to the node behind it. -/
theorem Sketch.drawn_graph (hsketch : Sketch source)
    (hmode : Mode.ofSource source = .flowchart) (strict : Bool) (padding : Int) :
    ∃ (compiled : Compiled) (ids : Text → Text), compile source strict padding = .ok compiled
      ∧ compiled.mode = .flowchart ∧ compiled.diagnostics = []
      ∧ (∀ w ∈ walks source, ∀ label ∈ w.labels,
          compiled.legend.get? (ids label) = some label)
      ∧ ∀ drawing, drawAs .flowchart compiled.code = .ok drawing →
          (∀ p ∈ (Text.lines source).zip (Text.lines compiled.code),
            isKept (trim p.1) = false →
            startsWithWord Drawing.ignoredWords (trim p.2) = false) →
          FlowDrawing.ofDiagram compiled.code = .ok (picture ids (walks source))
            ∧ drawing = (picture ids (walks source)).layout.markup.write := by
  obtain ⟨c, hrun, hdiagnostics, hheld⟩ := hsketch.translate_eq strict padding
  refine ⟨{ mode := .flowchart
            code := Text.joinLines ((Text.lines source).map (rewrite c.allocator.ids))
            legend := c.legend, direction := none, diagnostics := c.diagnostics },
    c.allocator.ids, ?_, rfl, hdiagnostics, hheld, ?_⟩
  · have htranslate : FreeLabel.translate source .flowchart { strict := strict, padding := padding }
        = .ok (Text.joinLines ((Text.lines source).map (rewrite c.allocator.ids)), none) c := by
      unfold FreeLabel.translate
      simp only [bind, EStateM.bind, hrun]
      rfl
    unfold compile
    rw [hmode]
    simp only [EStateM.run, htranslate]
  · intro drawing hdraw hread
    have hids := isIdentifier_ids c.allocator
    simp only [hsketch.lines_diagram hids] at hread
    obtain ⟨d, hd, rfl⟩ := drawAs_flowchart_eq_ok_iff.1 hdraw
    obtain ⟨rfl, -⟩ := (hsketch.ofDiagram_of_pass hheld d).1 hd
    rw [hsketch.drawnWalks_eq_self hids hread] at hd ⊢
    exact ⟨hd, rfl⟩

/-- Two labels, each mentioned twice and in two outlines, are two nodes. -/
theorem drawn_graph_of_two_labels :
    ∃ (source : Text) (compiled : Compiled) (ids : Text → Text) (drawing : Text),
      source = "flowchart TD\n\"ä\" --> \x7bö  ü\x7d\n(\"ö  ü\") -->|\"x  y\"| \x7bä\x7d".toList
        ∧ compile source false 2 = .ok compiled
        ∧ drawAs .flowchart compiled.code = .ok drawing
        ∧ drawing = (picture ids (walks source)).layout.markup.write
        ∧ (picture ids (walks source)).nodes
          = [⟨"ae".toList, "ä".toList⟩, ⟨"oe_ue".toList, "ö ü".toList⟩]
        ∧ (picture ids (walks source)).edges
          = [⟨"ae".toList, "oe_ue".toList, []⟩,
            ⟨"oe_ue".toList, "ae".toList, "x y".toList⟩] := by
  obtain ⟨compiled, hcompile, -, hcode, -⟩ := exists_compiled
    "flowchart TD\n\"ä\" --> \x7bö  ü\x7d\n(\"ö  ü\") -->|\"x  y\"| \x7bä\x7d".toList
    "flowchart TD\nae[\"ä\"] --> oe_ue\x7b\"ö ü\"\x7d\noe_ue(\"ö ü\") -->|\"x y\"| ae\x7b\"ä\"\x7d".toList
    .flowchart [("ae".toList, "ä".toList), ("oe_ue".toList, "ö  ü".toList)]
    (by decide +kernel)
  have hofDiagram : FlowDrawing.ofDiagram compiled.code
      = .ok ⟨[⟨"ae".toList, "ä".toList⟩, ⟨"oe_ue".toList, "ö ü".toList⟩],
          [⟨"ae".toList, "oe_ue".toList, []⟩,
            ⟨"oe_ue".toList, "ae".toList, "x y".toList⟩]⟩ := by
    rw [hcode]
    decide +kernel
  have hdraw := drawAs_flowchart_eq_ok_iff.2 ⟨_, hofDiagram, rfl⟩
  obtain ⟨again, ids, hagain, -, -, -, hdrawn⟩ := @Sketch.drawn_graph
    "flowchart TD\n\"ä\" --> \x7bö  ü\x7d\n(\"ö  ü\") -->|\"x  y\"| \x7bä\x7d".toList
    (by decide +kernel) (by decide +kernel) false 2
  obtain rfl := Except.ok.inj (hcompile.symm.trans hagain)
  obtain ⟨hpicture, hdrawing⟩ := hdrawn _ hdraw (by rw [hcode]; decide +kernel)
  rw [hofDiagram] at hpicture
  refine ⟨_, compiled, ids, _, rfl, hcompile, hdraw, hdrawing, ?_, ?_⟩
  · rw [← Except.ok.inj hpicture]
  · rw [← Except.ok.inj hpicture]

-- ====================================================== arrows in labels

theorem ne_toLower_of_foldCase {c : Char} (hc : foldCase c = 'f' ∨ foldCase c = 'g') :
    ¬ 'e' = c.toLower := by
  intro heq
  unfold foldCase at hc
  rw [← heq] at hc
  repeat' split at hc
  all_goals exact absurd hc (by decide)

/-- The first letter of a header. -/
theorem exists_cons_of_header {line : Text} (h : startsWithAnyCase headerWords line = true) :
    ∃ c t, line = c :: t ∧ (foldCase c = 'f' ∨ foldCase c = 'g') := by
  have hwords : ∀ word ∈ headerWords, ∃ c t, word = c :: t ∧ (c = 'f' ∨ c = 'g') := by
    intro word hword
    simp only [headerWords, List.mem_cons, List.not_mem_nil, or_false] at hword
    rcases hword with rfl | rfl
    · exact ⟨'f', "lowchart".toList, rfl, .inl rfl⟩
    · exact ⟨'g', "raph".toList, rfl, .inr rfl⟩
  obtain ⟨word, hword, hstarts⟩ := List.any_eq_true.1 h
  obtain ⟨rest, hrest⟩ := Option.isSome_iff_exists.1 hstarts
  obtain ⟨hafter, -⟩ := Option.filter_eq_some_iff.1 hrest
  obtain ⟨read, rfl, hfolded⟩ := Text.afterAnyCase?_eq_some_iff.1 hafter
  obtain ⟨c, t, rfl, hc⟩ := hwords word hword
  cases read with
  | nil => cases hfolded
  | cons d read => exact ⟨d, _, rfl, (List.cons.inj hfolded).1 ▸ hc⟩

/-- A header says something, and does not begin an entity-relationship
diagram. -/
theorem of_header {line : Text} (h : startsWithAnyCase headerWords line = true) :
    isInert line = false ∧ Drawing.startsErDiagram line = false := by
  obtain ⟨c, t, rfl, hc⟩ := exists_cons_of_header h
  constructor
  · have hmark : ¬ '%' = c := by
      rintro rfl
      revert hc
      decide
    have hnone : Text.startsWith commentMark (c :: t) = false := by
      show (Text.after? ['%', '%'] (c :: t)).isSome = false
      rw [Text.after?, if_neg hmark]
      rfl
    rw [isInert, hnone]
    rfl
  · have herWord : "erdiagram".toList = 'e' :: "rdiagram".toList := rfl
    unfold Drawing.startsErDiagram Text.startsWith
    rw [herWord, List.map_cons, Text.after?, if_neg (ne_toLower_of_foldCase hc)]
    rfl

/-- A header and walks over labels without quotes are a sketch. -/
theorem sketch_of_lines {header : Text} {rest : List Text}
    (hlines : Text.lines source = header :: rest)
    (hheader : startsWithAnyCase headerWords (trim header) = true)
    (hrest : ∀ line ∈ rest, ∃ w ∈ Walk.ofLine? (trim line), ∀ l ∈ w.labels, '"' ∉ l) :
    Sketch source := by
  obtain ⟨more, hcontent, hmore⟩ : ∃ more, contentLines source = (1, trim header) :: more
      ∧ ∀ p ∈ more, ∃ line ∈ rest, p.2 = trim line := by
    unfold contentLines Text.numberedLines
    rw [hlines, List.zipIdx_cons, List.map_cons, List.map_cons,
      List.filter_cons_of_pos (by simp [(of_header hheader).1])]
    refine ⟨_, rfl, fun p hp => ?_⟩
    obtain ⟨q, hq, rfl⟩ := List.mem_map.1 (List.mem_filter.1 hp).1
    obtain ⟨r, hr, rfl⟩ := List.mem_map.1 hq
    exact ⟨r.1, List.fst_mem_of_mem_zipIdx hr, rfl⟩
  constructor
  case header =>
    rw [hcontent]
    exact ⟨_, rfl, hheader⟩
  case kept =>
    rw [hcontent]
    intro p hp hkept
    obtain ⟨line, hline, heq⟩ := hmore p hp
    obtain ⟨w, hwalk, -⟩ := hrest line hline
    rw [heq, Walk.isKept_of_ofLine? (Text.trim_trim line) hwalk] at hkept
    cases hkept
  case walk =>
    intro line hline hkept
    rw [hlines] at hline
    rcases List.mem_cons.1 hline with rfl | hline
    · rw [isKept_of_header hheader] at hkept
      cases hkept
    · exact hrest line hline

/-- The diagram of a sketch is drawn as a flowchart. -/
theorem Sketch.modeOf_diagram (hsketch : Sketch source) {ids : Text → Text}
    (hids : ∀ label, Naming.isIdentifier (ids label) = true) :
    Drawing.modeOf (Text.joinLines ((Text.lines source).map (rewrite ids))) = .flowchart := by
  obtain ⟨n, header, rest, hcontent, hheader, -⟩ := hsketch.exists_header
  have hwritten : written ids header = header :=
    (written_of_kept (hcontent ▸ List.mem_cons_self) (isKept_of_header hheader)).2
  unfold Drawing.modeOf
  rw [hsketch.contentLines_diagram hids, hcontent]
  simp only [List.map_cons, hwritten, (of_header hheader).2]
  rfl

/-- What is drawn of a header and walks. The compiler always makes a
diagram of them, and it is admitted exactly if in each line no shaft
begins in any label, or the line is one that the reader ignores because of
the identifier that it begins with. -/
theorem accepted_iff {header : Text} {rest : List Text}
    (hlines : Text.lines source = header :: rest)
    (hheader : startsWithAnyCase headerWords (trim header) = true)
    (hrest : ∀ line ∈ rest, ∃ w ∈ Walk.ofLine? (trim line), ∀ l ∈ w.labels, '"' ∉ l)
    (strict : Bool) (padding : Int) :
    ∃ (code : Text) (c : Context) (ids : Text → Text),
      Flow.translate source { strict := strict, padding := padding } = .ok code c
      ∧ c.diagnostics = []
      ∧ (∀ w ∈ walks source, ∀ label ∈ w.labels, c.legend.get? (ids label) = some label)
      ∧ ((∃ drawing, draw code = .ok drawing)
        ↔ ∀ w ∈ walks source, ids w.first ∈ Drawing.ignoredWords
          ∨ ∀ l ∈ w.labels, Shaftless l) := by
  have hsketch := sketch_of_lines hlines hheader hrest
  obtain ⟨c, hrun, hdiagnostics, hheld⟩ := hsketch.translate_eq strict padding
  refine ⟨_, c, c.allocator.ids, hrun, hdiagnostics, hheld, ?_⟩
  have hids := isIdentifier_ids c.allocator
  have hiff := hsketch.ofDiagram_of_pass hheld
  unfold draw
  rw [hsketch.modeOf_diagram hids]
  constructor
  · rintro ⟨drawing, hdraw⟩
    obtain ⟨d, hd, -⟩ := drawAs_flowchart_eq_ok_iff.1 hdraw
    exact ((hiff d).1 hd).2
  · intro hall
    exact ⟨_, drawAs_flowchart_eq_ok_iff.2 ⟨_, (hiff _).2 ⟨rfl, hall⟩, rfl⟩⟩

/-- Labels without shafts are accepted, whatever else stands in them. -/
theorem accepted_without_shafts :
    ∃ code c drawing,
      Flow.translate "flowchart TD\n\"a > b | c\" ==> (\"-\")".toList
          { strict := false, padding := 2 } = .ok code c
        ∧ c.diagnostics = [] ∧ draw code = .ok drawing := by
  obtain ⟨code, c, ids, hrun, hdiagnostics, -, haccepted⟩ := @accepted_iff
    "flowchart TD\n\"a > b | c\" ==> (\"-\")".toList
    "flowchart TD".toList ["\"a > b | c\" ==> (\"-\")".toList]
    (by decide +kernel) (by decide +kernel) (by decide +kernel) false 2
  have hshaftless : ∀ w ∈ walks "flowchart TD\n\"a > b | c\" ==> (\"-\")".toList,
      ∀ l ∈ w.labels, Shaftless l := by decide +kernel
  obtain ⟨drawing, hdraw⟩ := haccepted.2 fun w hw => .inr (hshaftless w hw)
  exact ⟨code, c, drawing, hrun, hdiagnostics, hdraw⟩

/-- A label in which an arrow stands is not accepted, also where it is all
that the line holds: the arrow between its quotes is taken for one. -/
theorem arrow_in_label_rejected :
    ∃ compiled,
      Walk.ofLine? "\"a --> b\"".toList = some (.stop .rectangle "a --> b".toList)
        ∧ compile "flowchart TD\n\"a --> b\"".toList false 2 = .ok compiled
        ∧ compiled.code = "flowchart TD\na_b[\"a --> b\"]".toList
        ∧ draw compiled.code
          = .error (.unexpected 2 "a_b[\"a --> b\"]".toList .node) := by
  obtain ⟨compiled, hcompile, -, hcode, -⟩ := exists_compiled
    "flowchart TD\n\"a --> b\"".toList "flowchart TD\na_b[\"a --> b\"]".toList .flowchart
    [("a_b".toList, "a --> b".toList)] (by decide +kernel)
  refine ⟨compiled, by decide +kernel, hcompile, hcode, ?_⟩
  have hread : FlowDrawing.ofDiagram "flowchart TD\na_b[\"a --> b\"]".toList
      = .error (.unexpected 2 "a_b[\"a --> b\"]".toList .node) := by decide +kernel
  rw [hcode, draw, show Drawing.modeOf "flowchart TD\na_b[\"a --> b\"]".toList = .flowchart by
    decide +kernel, drawAs_flowchart, hread]
  rfl

end FreeLabel.Flow
