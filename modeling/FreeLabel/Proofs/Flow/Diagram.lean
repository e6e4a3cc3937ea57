/-
The diagram of a sketch, line by line, and what it shows.

A diagram has the content lines of its source in the same places, kept or
rewritten (`Sketch.contentLines_diagram`). Kept lines draw nothing, so
what is drawn is the picture of the walks; the reader leaves out those
whose rows it ignores, and admits the diagram exactly if no shaft begins
in a label of the others (`Sketch.ofDiagram_eq_ok_iff`). Both are said of
any identifiers that are identifiers and tell labels apart.
-/
import FreeLabel.Proofs.Flow.Redrawing

namespace FreeLabel.Flow

open Drawing (FlowDrawing)
open Naming (isIdentifier)
open Text (trim indent)

variable {ids : Text → Text} {w : Walk} {source : Text}

-- ============================================================== the lines

/-- A line as it stands in the diagram, trimmed. -/
def written (ids : Text → Text) (line : Text) : Text :=
  match Walk.ofLine? line with
  | some w => w.row ids
  | none => line

theorem Walk.row_ne_nil (hids : ∀ label, isIdentifier (ids label) = true) (w : Walk) :
    w.row ids ≠ [] := by
  obtain ⟨shape, rest, hrow⟩ := w.row_eq ids
  rw [hrow]
  exact List.append_ne_nil_of_left_ne_nil
    (Naming.isIdentChar_of_isIdentifier (hids w.first)).1 _

theorem Walk.trim_row (hids : ∀ label, isIdentifier (ids label) = true) (w : Walk) :
    trim (w.row ids) = w.row ids := by
  induction w with
  | stop shape label => exact trim_node (hids label) _ _
  | go shape label arrow rest ih =>
      have hnode := trim_node (hids label) shape.bracket (squeeze label)
      have hne : ids label ++ shape.bracket.enclose (squeeze label) ≠ [] :=
        List.append_ne_nil_of_left_ne_nil (Naming.isIdentChar_of_isIdentifier (hids label)).1 _
      have hbetween := Text.trim_between hne hnode (rest.row_ne_nil hids) ih
        (' ' :: (squeeze arrow ++ [' ']))
      rw [row]
      simpa using hbetween

theorem Walk.Plain.newline_not_mem_row (hids : ∀ label, isIdentifier (ids label) = true)
    (hw : w.Plain) : '\n' ∉ w.row ids := by
  have hnode : ∀ (shape : Shape) (label : Text), '\n' ∉ label →
      '\n' ∉ ids label ++ shape.bracket.enclose (squeeze label) := by
    intro shape label hlabel hmem
    rcases List.mem_append.1 hmem with hmem | hmem
    · exact Drawing.newline_not_mem_identifier (hids label) hmem
    · have hbrackets : ∀ b : Bracket, '\n' ∉ b.opening ∧ '\n' ∉ b.closing := by
        intro b
        cases b <;> decide
      have hsqueeze : '\n' ∉ squeeze label := fun h => hlabel (mem_of_mem_squeeze h)
      simp [Bracket.enclose, hbrackets shape.bracket, hsqueeze] at hmem
  induction w with
  | stop shape label => exact hnode shape label (hw.labels label List.mem_cons_self).2
  | go shape label arrow rest ih =>
      have harrow : '\n' ∉ squeeze arrow := fun h =>
        (hw.arrows arrow List.mem_cons_self).2 (mem_of_mem_squeeze h)
      have hfirst := hnode shape label (hw.labels label List.mem_cons_self).2
      rw [row, List.mem_append, not_or]
      exact ⟨hfirst, by simp [harrow, ih hw.rest]⟩

/-- What is known of a line of a sketch that is not the header. -/
theorem Sketch.walk_of_line (hsketch : Sketch source) {line : Text}
    (hline : line ∈ Text.lines source) {w : Walk} (hwalk : Walk.ofLine? (trim line) = some w) :
    w.Plain := by
  have hkept := Walk.isKept_of_ofLine? (Text.trim_trim line) hwalk
  obtain ⟨v, hv, hlabels⟩ := hsketch.walk line hline hkept
  rw [hwalk] at hv
  cases hv
  have hnewline : '\n' ∉ trim line :=
    fun hmem => Text.newline_not_mem_of_mem_lines hline (Text.mem_of_mem_trim hmem)
  exact Walk.plain_of_ofLine? hwalk hnewline hlabels

/-- A rewritten line says as much as the line, and holds no line feed. -/
theorem Sketch.rewrite_line (hsketch : Sketch source)
    (hids : ∀ label, isIdentifier (ids label) = true) {line : Text}
    (hline : line ∈ Text.lines source) :
    trim (rewrite ids line) = written ids (trim line)
      ∧ isInert (written ids (trim line)) = isInert (trim line)
      ∧ '\n' ∉ rewrite ids line := by
  unfold rewrite written
  cases hwalk : Walk.ofLine? (trim line) with
  | none => exact ⟨rfl, rfl, Text.newline_not_mem_of_mem_lines hline⟩
  | some w =>
      have hplain := hsketch.walk_of_line hline hwalk
      have hindent := Text.isBlank_of_mem_indent line
      refine ⟨?_, ?_, ?_⟩
      · have htrim := Text.trim_append (b := []) hindent (by simp) (w.trim_row hids)
        rwa [List.append_nil] at htrim
      · obtain ⟨shape, rest, hrow⟩ := w.row_eq ids
        have hkept := Walk.isKept_of_ofLine? (Text.trim_trim line) hwalk
        have hinert : isInert (trim line) = false := by
          rw [Bool.eq_false_iff]
          intro hinert
          rw [isKept_of_isInert hinert] at hkept
          cases hkept
        simp only
        rw [hrow, Drawing.isInert_identifier_append (hids _), hinert]
      · intro hmem
        rcases List.mem_append.1 hmem with hmem | hmem
        · have hstart : indent line <+: line := List.takeWhile_prefix isBlank
          exact Text.newline_not_mem_of_mem_lines hline (hstart.subset hmem)
        · exact hplain.newline_not_mem_row hids hmem

/-- The lines of the diagram are those of the source, rewritten. -/
theorem Sketch.lines_diagram (hsketch : Sketch source)
    (hids : ∀ label, isIdentifier (ids label) = true) :
    Text.lines (Text.joinLines ((Text.lines source).map (rewrite ids)))
      = (Text.lines source).map (rewrite ids) := by
  refine List.splitOn_intercalate _ ?_ (by simp [Text.lines, List.splitOn_ne_nil])
  intro line hmem
  obtain ⟨l, hl, rfl⟩ := List.mem_map.1 hmem
  exact (hsketch.rewrite_line hids hl).2.2

/-- The content lines of the diagram are those of the source, as they are
written. -/
theorem Sketch.contentLines_diagram (hsketch : Sketch source)
    (hids : ∀ label, isIdentifier (ids label) = true) :
    contentLines (Text.joinLines ((Text.lines source).map (rewrite ids)))
      = (contentLines source).map fun p => (p.1, written ids p.2) := by
  have hline := fun p (hp : p ∈ Text.numberedLines source) =>
    hsketch.rewrite_line hids (Text.mem_lines_of_mem_numberedLines hp)
  have hnumbered : Text.numberedLines (Text.joinLines ((Text.lines source).map (rewrite ids)))
      = (Text.numberedLines source).map fun p => (p.1, rewrite ids p.2) := by
    unfold Text.numberedLines
    rw [hsketch.lines_diagram hids, List.zipIdx_map, List.map_map, List.map_map]
    rfl
  unfold contentLines
  rw [hnumbered, List.map_map, List.filter_map, List.filter_map, List.map_map]
  have hfilter : (Text.numberedLines source).filter
        (fun p => !isInert (trim (rewrite ids p.2)))
      = (Text.numberedLines source).filter fun p => !isInert (trim p.2) := by
    refine List.filter_congr fun p hp => ?_
    obtain ⟨htrim, hinert, -⟩ := hline p hp
    rw [htrim, hinert]
  show ((Text.numberedLines source).filter
      (fun p => !isInert (trim (rewrite ids p.2)))).map _ = _
  rw [hfilter]
  refine List.map_congr_left fun p hp => ?_
  obtain ⟨htrim, -, -⟩ := hline p (List.mem_filter.1 hp).1
  exact Prod.ext rfl htrim

theorem mem_contentLines {p : Nat × Text} (hp : p ∈ contentLines source) :
    ∃ line ∈ Text.lines source, p.2 = trim line := by
  obtain ⟨hmem, -⟩ := List.mem_filter.1 hp
  obtain ⟨q, hq, rfl⟩ := List.mem_map.1 hmem
  exact ⟨q.2, Text.mem_lines_of_mem_numberedLines hq, rfl⟩

/-- The walks of a source are on its content lines. -/
theorem walks_eq (source : Text) :
    walks source = (contentLines source).filterMap fun p => Walk.ofLine? p.2 := by
  unfold walks contentLines
  rw [← Text.map_snd_numberedLines, List.filterMap_map, List.filterMap_filter, List.filterMap_map]
  congr 1
  funext p
  show Walk.ofLine? (trim p.2) = if !isInert (trim p.2) then Walk.ofLine? (trim p.2) else none
  split
  next => rfl
  next h =>
    exact ofLine?_eq_none (isKept_of_isInert (by simpa using h))

/-- A kept content line is written as it is. -/
theorem written_of_kept {p : Nat × Text} (hp : p ∈ contentLines source)
    (hkept : isKept p.2 = true) : Walk.ofLine? p.2 = none ∧ written ids p.2 = p.2 := by
  obtain ⟨line, -, heq⟩ := mem_contentLines hp
  have hnone : Walk.ofLine? p.2 = none := by
    rw [heq] at hkept ⊢
    exact ofLine?_eq_none hkept
  exact ⟨hnone, by rw [written, hnone]⟩

theorem isKept_of_header {line : Text} (h : startsWithAnyCase headerWords line = true) :
    isKept line = true := by
  unfold isKept
  rw [h]
  simp

-- ============================================================ the drawing

/-- The walks whose rows are drawn. -/
def drawnWalks (ids : Text → Text) (ws : List Walk) : List Walk :=
  ws.filter fun w => !Drawing.ignoredWords.contains (ids w.first)

theorem drawnWalks_cons (ids : Text → Text) (w : Walk) (ws : List Walk) :
    drawnWalks ids (w :: ws)
      = if ids w.first ∈ Drawing.ignoredWords then drawnWalks ids ws
        else w :: drawnWalks ids ws := by
  unfold drawnWalks
  rw [List.filter_cons]
  by_cases h : ids w.first ∈ Drawing.ignoredWords <;> simp [h]

/-- The run lemma: lines are read one after the other, each of which is
the row of a walk or ignored. -/
theorem foldlM_readLine {known : List Text}
    (hids : ∀ label, isIdentifier (ids label) = true)
    (hinj : ∀ l ∈ known, ∀ m ∈ known, ids l = ids m → l = m) (ps : List (Nat × Text))
    (hkept : ∀ p ∈ ps, Walk.ofLine? p.2 = none →
      startsWithWord Drawing.ignoredWords p.2 = true)
    (hwalk : ∀ p ∈ ps, ∀ w, Walk.ofLine? p.2 = some w → w.Plain ∧ ∀ l ∈ w.labels, l ∈ known)
    (ws : List Walk) (hws : ∀ l ∈ ws.flatMap Walk.labels, l ∈ known) (d : FlowDrawing) :
    (ps.map fun p => (p.1, written ids p.2)).foldlM
        (fun d (lineNo, line) => d.readLine lineNo line) (picture ids ws) = .ok d
      ↔ d = picture ids (ws ++ drawnWalks ids (ps.filterMap fun p => Walk.ofLine? p.2))
        ∧ ∀ w ∈ ps.filterMap (fun p => Walk.ofLine? p.2),
            ids w.first ∈ Drawing.ignoredWords ∨ ∀ l ∈ w.labels, Shaftless l := by
  induction ps generalizing ws with
  | nil =>
      rw [List.map_nil, List.foldlM_nil, List.filterMap_nil, drawnWalks, List.filter_nil,
        List.append_nil]
      constructor
      · rintro ⟨⟩
        exact ⟨rfl, nofun⟩
      · rintro ⟨rfl, -⟩
        rfl
  | cons p ps ih =>
      have hrest := ih (fun q hq => hkept q (List.mem_cons_of_mem p hq))
        fun q hq => hwalk q (List.mem_cons_of_mem p hq)
      rw [List.map_cons, List.foldlM_cons]
      cases hread : Walk.ofLine? p.2 with
      | none =>
          have hskip : (picture ids ws).readLine p.1 (written ids p.2)
              = .ok (picture ids ws) := by
            rw [readLine_eq, written, hread, if_pos (hkept p List.mem_cons_self hread)]
          simp only [List.filterMap_cons, hread, hskip, bind, Except.bind]
          exact hrest ws hws
      | some w =>
          obtain ⟨hplain, hknown⟩ := hwalk p List.mem_cons_self w hread
          have hrow : written ids p.2 = w.row ids := by
            rw [written, hread]
          simp only [List.filterMap_cons, hread, List.forall_mem_cons, drawnWalks_cons, hrow,
            readLine_row hids hinj hws hplain hknown p.1]
          split
          next hignored =>
            simp only [bind, Except.bind, hignored, true_or, true_and]
            exact hrest ws hws
          split
          next hignored hlabels =>
            have hgrown : ∀ l ∈ (ws ++ [w]).flatMap Walk.labels, l ∈ known := by
              intro l hl
              rw [List.flatMap_append, List.flatMap_singleton] at hl
              exact (List.mem_append.1 hl).elim (hws l) (hknown l)
            have hlast := hrest (ws ++ [w]) hgrown
            rw [List.append_assoc, List.singleton_append] at hlast
            have hread : ids w.first ∈ Drawing.ignoredWords ∨ ∀ l ∈ w.labels, Shaftless l :=
              .inr hlabels
            rw [and_iff_right hread]
            exact hlast
          next hignored hlabels =>
            simp only [bind, Except.bind, reduceCtorEq, hignored, hlabels, or_self,
              false_and, and_false]

/-- What the diagram of a sketch shows, and when it is admitted. -/
theorem Sketch.ofDiagram_eq_ok_iff (hsketch : Sketch source)
    (hids : ∀ label, isIdentifier (ids label) = true)
    (hinj : ∀ l ∈ (walks source).flatMap Walk.labels,
      ∀ m ∈ (walks source).flatMap Walk.labels, ids l = ids m → l = m) (d : FlowDrawing) :
    FlowDrawing.ofDiagram (Text.joinLines ((Text.lines source).map (rewrite ids))) = .ok d
      ↔ d = picture ids (drawnWalks ids (walks source))
        ∧ ∀ w ∈ walks source, ids w.first ∈ Drawing.ignoredWords
          ∨ ∀ l ∈ w.labels, Shaftless l := by
  obtain ⟨n, header, rest, hcontent, hheader, hrest⟩ := hsketch.exists_header
  have hsource : ∀ p ∈ rest, ∃ line ∈ Text.lines source, p.2 = trim line :=
    fun p hp => mem_contentLines (hcontent ▸ List.mem_cons_of_mem _ hp)
  obtain ⟨hnone, hwritten⟩ : Walk.ofLine? header = none ∧ written ids header = header :=
    written_of_kept (hcontent ▸ List.mem_cons_self) (isKept_of_header hheader)
  have hwalks : walks source = rest.filterMap fun p => Walk.ofLine? p.2 := by
    rw [walks_eq, hcontent]
    exact List.filterMap_cons_none hnone
  have hfold := foldlM_readLine hids hinj rest ?kept ?walk [] (by simp) d
  case kept =>
    intro p hp hp'
    refine hrest p hp ?_
    obtain ⟨line, hline, heq⟩ := hsource p hp
    cases hkept : isKept p.2 with
    | true => rfl
    | false =>
        obtain ⟨w, hw, -⟩ := hsketch.walk line hline (heq ▸ hkept)
        rw [← heq, hp'] at hw
        cases hw
  case walk =>
    intro p hp w hw
    obtain ⟨line, hline, heq⟩ := hsource p hp
    refine ⟨hsketch.walk_of_line hline (heq ▸ hw), fun l hl => ?_⟩
    refine List.mem_flatMap.2 ⟨w, ?_, hl⟩
    rw [hwalks]
    exact List.mem_filterMap.2 ⟨p, hp, hw⟩
  rw [FlowDrawing.ofDiagram, hsketch.contentLines_diagram hids, hcontent]
  simp only [List.map_cons, hwritten, hheader, if_true]
  rw [hwalks]
  exact hfold

end FreeLabel.Flow
