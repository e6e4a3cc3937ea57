/-
What a drawing shows, without places: the labels of a diagram in the
order of the diagram, and that reading what was drawn finds them again.

# Names

Readers take names with `ident?`, so a name in what a diagram shows
consists of identifier characters. `Named` says so of a whole diagram; a
line read keeps it, and by induction every diagram read has it
(`named_of_ofDiagram`). Names are therefore plain where they stand in
attributes, and a layout is written as a drawing.

# The round trip

`labels_of_draw` puts the halves together: from the diagram to the layout,
from the layout to the text and back, and from there to the drawing with
names in it. Of all this only the labels are left to look at.
-/
import FreeLabel.Drawing
import FreeLabel.Proofs.Drawing.Markup
import FreeLabel.Proofs.Drawing.Names

namespace FreeLabel.Drawing

open Markup (Element Label isPlainValue isPlainValue_of_ident)

-- ================================================ entity-relationship diagrams

namespace ErDrawing

/-- All names in what a diagram shows consist of identifier characters. -/
structure Named (d : ErDrawing) : Prop where
  entities : ∀ e ∈ d.entities, e.name.all isIdentChar = true
  relations : ∀ r ∈ d.relations,
    r.left.all isIdentChar = true ∧ r.right.all isIdentChar = true

theorem named_empty : Named {} := ⟨by simp, by simp⟩

theorem Named.mention {d : ErDrawing} (h : d.Named) {name : Text}
    (hname : name.all isIdentChar = true) : (d.mention name).Named := by
  unfold ErDrawing.mention
  split
  next => exact h
  next =>
    refine ⟨?_, h.relations⟩
    intro e he
    rcases List.mem_append.1 he with he | he
    · exact h.entities e he
    · obtain rfl := List.mem_singleton.1 he
      exact hname

theorem Named.addRow {d : ErDrawing} (h : d.Named) (name : Text) (row : Row) :
    (d.addRow name row).Named := by
  refine ⟨?_, h.relations⟩
  intro e he
  obtain ⟨e', he', rfl⟩ := List.mem_map.1 he
  split
  next => exact h.entities e' he'
  next => exact h.entities e' he'

theorem Named.addRelation {d : ErDrawing} (h : d.Named) {r : Relation}
    (hleft : r.left.all isIdentChar = true) (hright : r.right.all isIdentChar = true) :
    (d.addRelation r).Named := by
  have hboth := (h.mention hleft).mention hright
  refine ⟨hboth.entities, ?_⟩
  intro r' hr'
  rcases List.mem_append.1 hr' with hr' | hr'
  · exact hboth.relations r' hr'
  · obtain rfl := List.mem_singleton.1 hr'
    exact ⟨hleft, hright⟩

theorem of_blockStart? {line name : Text} (h : blockStart? line = some name) :
    name.all isIdentChar = true := by
  simp only [blockStart?, Option.bind_eq_bind, Option.bind_eq_some_iff, Prod.exists,
    Option.some.injEq] at h
  obtain ⟨n, s, hn, -, -, rfl⟩ := h
  exact (of_ident? hn).1

theorem of_entity? {line name : Text} (h : entity? line = some name) :
    name.all isIdentChar = true := by
  simp only [entity?, Option.bind_eq_bind, Option.bind_eq_some_iff, Prod.exists,
    Option.some.injEq] at h
  obtain ⟨n, s, hn, -, -, rfl⟩ := h
  exact (of_ident? hn).1

theorem of_relation? {line : Text} {r : Relation} (h : Relation.ofLine? line = some r) :
    r.left.all isIdentChar = true ∧ r.right.all isIdentChar = true := by
  simp only [Relation.ofLine?, Option.bind_eq_bind, Option.bind_eq_some_iff, Prod.exists,
    Option.some.injEq] at h
  obtain ⟨left, _, hleft, _, _, _, _, _, _, _, right, _, hright, _, _, rfl⟩ := h
  exact ⟨(of_ident? hleft).1, (of_ident? hright).1⟩

/-- A line read keeps names what they are. -/
theorem Named.readLine {d d' : ErDrawing} (h : d.Named) {block block' : Option Text}
    {lineNo : Nat} {line : Text} (hread : d.readLine block lineNo line = .ok (d', block')) :
    d'.Named := by
  unfold ErDrawing.readLine at hread
  cases block with
  | some name =>
      simp only at hread
      split at hread
      next =>
        cases hread
        exact h
      next =>
        split at hread
        next row _ =>
          cases hread
          exact h.addRow name row
        next => cases hread
  | none =>
      simp only at hread
      split at hread
      next hstart =>
        cases hread
        exact h.mention (of_blockStart? hstart)
      next hrelation =>
        cases hread
        exact h.addRelation (of_relation? hrelation).1 (of_relation? hrelation).2
      next hentity =>
        cases hread
        exact h.mention (of_entity? hentity)
      next => cases hread

theorem Named.readLines {d d' : ErDrawing} (h : d.Named) {block : Option Text}
    {lines : List (Nat × Text)} (hread : d.readLines block lines = .ok d') : d'.Named := by
  induction lines generalizing d block with
  | nil =>
      unfold ErDrawing.readLines at hread
      split at hread
      next =>
        cases hread
        exact h
      next => cases hread
  | cons line lines ih =>
      unfold ErDrawing.readLines at hread
      cases hline : d.readLine block line.1 line.2 with
      | error why =>
          rw [hline] at hread
          cases hread
      | ok next =>
          rw [hline] at hread
          exact ih (h.readLine hline) hread

/-- Every diagram that is read is named by identifiers. -/
theorem named_of_ofDiagram {diagram : Text} {d : ErDrawing}
    (h : ErDrawing.ofDiagram diagram = .ok d) : d.Named := by
  unfold ErDrawing.ofDiagram at h
  split at h
  next => cases h
  next =>
    split at h
    next => exact named_empty.readLines h
    next => cases h

end ErDrawing

/-- A cell of a row. -/
def rowLabel (role : String) (t : Text) : Label :=
  { role := ("er attributeBoxOdd " ++ role).toList, text := t }

/-- The labels of a row. -/
def Row.labels (row : Row) : List Label :=
  [rowLabel "attribute-type" row.first, rowLabel "attribute-name" row.second] ++
    (shown row.key).map (rowLabel "attribute-keys") ++
    (shown row.comment).map (rowLabel "attribute-comment")

/-- The labels of an entity. -/
def Entity.labels (e : Entity) : List Label :=
  { role := "er entityLabel".toList, text := e.name } :: e.rows.flatMap Row.labels

/-- The label of a relationship, if it has one. -/
def Relation.labels (r : Relation) : List Label :=
  (shown (some r.label)).map fun t => { role := "er relationshipLabel".toList, text := t }

/-- The labels of a diagram. -/
def ErDrawing.labels (d : ErDrawing) : List Label :=
  d.entities.flatMap Entity.labels ++ d.relations.flatMap Relation.labels

theorem shows_rowCells (y : Nat) (row : Row) :
    (rowCells y row).map Cell.shows = row.labels := by
  unfold rowCells Row.labels
  rw [List.map_append, List.map_append, List.map_map, List.map_map]
  rfl

theorem shows_rowsCells (y : Nat) (rows : List Row) :
    (rowsCells y rows).map Cell.shows = rows.flatMap Row.labels := by
  induction rows generalizing y with
  | nil => rfl
  | cons row rows ih =>
      rw [rowsCells, List.map_append, shows_rowCells, ih, List.flatMap_cons]

theorem shows_entityBoxes (y : Nat) (es : List Entity) :
    ((entityBoxes y es).flatMap EntityBox.cells).map Cell.shows
      = es.flatMap Entity.labels := by
  induction es generalizing y with
  | nil => rfl
  | cons e es ih =>
      rw [entityBoxes, List.flatMap_cons, List.map_append, ih, List.flatMap_cons]
      congr 1
      simp [entityBox, Entity.labels, Cell.shows, shows_rowsCells]

theorem shows_placeRelations (y : Nat) (rs : List Relation) :
    ((placeRelations y rs).flatMap PlacedRelation.label).map Cell.shows
      = rs.flatMap Relation.labels := by
  induction rs generalizing y with
  | nil => rfl
  | cons r rs ih =>
      rw [placeRelations, List.flatMap_cons, List.map_append, ih, List.flatMap_cons]
      congr 1
      simp [PlacedRelation.label, Relation.labels, Cell.shows]

theorem ErDrawing.shows_cells (d : ErDrawing) :
    d.layout.cells.map Cell.shows = d.labels := by
  unfold ErLayout.cells ErDrawing.layout ErDrawing.labels
  rw [List.map_append, shows_entityBoxes, shows_placeRelations]

/-- The labels of what is drawn are those of the diagram. -/
theorem ErDrawing.labels_markup (d : ErDrawing) (role : Text) :
    d.layout.markup.labels role = d.labels := by
  rw [ErLayout.labels_markup, d.shows_cells]

theorem exists_of_mem_entityBoxes {y : Nat} {es : List Entity} {b : EntityBox}
    (h : b ∈ entityBoxes y es) : ∃ e ∈ es, ∃ top, b = entityBox top e := by
  induction es generalizing y with
  | nil => cases h
  | cons e es ih =>
      rcases List.mem_cons.1 h with rfl | h
      · exact ⟨e, List.mem_cons_self, y, rfl⟩
      · obtain ⟨e', he', top, rfl⟩ := ih h
        exact ⟨e', List.mem_cons_of_mem e he', top, rfl⟩

theorem exists_of_mem_placeRelations {y : Nat} {rs : List Relation} {p : PlacedRelation}
    (h : p ∈ placeRelations y rs) : p.relation ∈ rs := by
  induction rs generalizing y with
  | nil => cases h
  | cons r rs ih =>
      rcases List.mem_cons.1 h with rfl | h
      · exact List.mem_cons_self
      · exact List.mem_cons_of_mem r (ih h)

/-- The roles of cells in a row are plain. -/
theorem isPlainValue_role_of_mem_rowsCells {y : Nat} {rows : List Row} {c : Cell}
    (h : c ∈ rowsCells y rows) : isPlainValue c.role.toList = true := by
  induction rows generalizing y with
  | nil => cases h
  | cons row rows ih =>
      rcases List.mem_append.1 h with h | h
      · simp only [rowCells, List.mem_append, List.mem_cons, List.not_mem_nil, or_false,
          List.mem_map] at h
        rcases h with ((rfl | rfl) | ⟨t, -, rfl⟩) | ⟨t, -, rfl⟩
        · show isPlainValue ("er attributeBoxOdd " ++ "attribute-type").toList = true
          decide
        · show isPlainValue ("er attributeBoxOdd " ++ "attribute-name").toList = true
          decide
        · show isPlainValue ("er attributeBoxOdd " ++ "attribute-keys").toList = true
          decide
        · show isPlainValue ("er attributeBoxOdd " ++ "attribute-comment").toList = true
          decide
      · exact ih h

theorem ErDrawing.Named.plain_layout {d : ErDrawing} (h : d.Named) : d.layout.Plain where
  names := by
    intro b hb
    obtain ⟨e, he, top, rfl⟩ := exists_of_mem_entityBoxes hb
    exact isPlainValue_of_ident (h.entities e he)
  roles := by
    intro b hb c hc
    obtain ⟨e, -, top, rfl⟩ := exists_of_mem_entityBoxes hb
    rcases List.mem_cons.1 hc with rfl | hc
    · show isPlainValue "er entityLabel".toList = true
      decide
    · exact isPlainValue_role_of_mem_rowsCells hc
  ends := by
    intro p hp
    obtain ⟨hleft, hright⟩ := h.relations p.relation (exists_of_mem_placeRelations hp)
    exact ⟨isPlainValue_of_ident hleft, isPlainValue_of_ident hright⟩

-- =========================================================== flowcharts

namespace FlowDrawing

/-- All names in what a flowchart shows consist of identifier
characters. -/
structure Named (d : FlowDrawing) : Prop where
  nodes : ∀ n ∈ d.nodes, n.name.all isIdentChar = true
  edges : ∀ e ∈ d.edges, e.source.all isIdentChar = true ∧ e.target.all isIdentChar = true

theorem of_node? {s name : Text} {label : Option Text} (h : node? s = some (name, label)) :
    name.all isIdentChar = true := by
  simp only [node?, Option.bind_eq_bind, Option.bind_eq_some_iff, Prod.exists] at h
  obtain ⟨n, rest, hn, h⟩ := h
  have hname : n = name := by
    cases rest with
    | nil => exact (Prod.mk.inj (Option.some.inj h)).1
    | cons c rest =>
        simp only [Option.bind_eq_some_iff, Prod.exists] at h
        obtain ⟨_, _, _, _, _, _, h⟩ := h
        exact (Prod.mk.inj (Option.some.inj h)).1
  exact hname ▸ (of_ident? hn).1

theorem named_mentionNode {nodes : List Node} {name : Text} {label : Option Text}
    (hname : name.all isIdentChar = true)
    (h : ∀ n ∈ nodes, n.name.all isIdentChar = true) :
    ∀ n ∈ mentionNode nodes name label, n.name.all isIdentChar = true := by
  intro n hn
  unfold mentionNode at hn
  split at hn
  next =>
    split at hn
    next => exact h n hn
    next =>
      obtain ⟨m, hm, rfl⟩ := List.mem_map.1 hn
      split
      next => exact h m hm
      next => exact h m hm
  next =>
    rcases List.mem_append.1 hn with hn | hn
    · exact h n hn
    · obtain rfl := List.mem_singleton.1 hn
      exact hname

theorem named_mentionNodes {nodes : List Node} {mentioned : List (Text × Option Text)}
    (hnames : ∀ m ∈ mentioned, m.1.all isIdentChar = true)
    (h : ∀ n ∈ nodes, n.name.all isIdentChar = true) :
    ∀ n ∈ mentioned.foldl (fun nodes m => mentionNode nodes m.1 m.2) nodes,
      n.name.all isIdentChar = true := by
  induction mentioned generalizing nodes with
  | nil => exact h
  | cons m mentioned ih =>
      exact ih (fun m' hm' => hnames m' (List.mem_cons_of_mem m hm'))
        (named_mentionNode (hnames m List.mem_cons_self) h)

theorem named_edgesFrom {source : Text} {links : List (Flow.Arrow × Text)}
    (hsource : source.all isIdentChar = true)
    (h : ∀ l ∈ links, l.2.all isIdentChar = true) :
    ∀ e ∈ edgesFrom source links,
      e.source.all isIdentChar = true ∧ e.target.all isIdentChar = true := by
  induction links generalizing source with
  | nil => simp [edgesFrom]
  | cons l links ih =>
      intro e he
      have htarget := h l List.mem_cons_self
      rcases List.mem_cons.1 he with rfl | he
      · exact ⟨hsource, htarget⟩
      · exact ih htarget (fun l' hl' => h l' (List.mem_cons_of_mem l hl')) e he

/-- The names of the nodes behind a line's arrows consist of identifier
characters. -/
theorem of_mapM_node? {links : List (Flow.Arrow × Text)}
    {targets : List (Flow.Arrow × Text × Option Text)}
    (h : (links.mapM fun (a, s) => (node? s).map fun n => (a, n)) = some targets) :
    ∀ t ∈ targets, t.2.1.all isIdentChar = true := by
  induction links generalizing targets with
  | nil =>
      obtain rfl := Option.some.inj h
      simp
  | cons l links ih =>
      rw [List.mapM_cons] at h
      simp only [Option.bind_eq_bind, Option.bind_eq_some_iff, Option.map_eq_some_iff] at h
      obtain ⟨_, ⟨⟨name, label⟩, hnode, rfl⟩, rest, hrest, h⟩ := h
      obtain rfl := Option.some.inj h
      intro t ht
      rcases List.mem_cons.1 ht with rfl | ht
      · exact of_node? hnode
      · exact ih hrest t ht

/-- A line read keeps names what they are. -/
theorem Named.readLine {d d' : FlowDrawing} (h : d.Named) {lineNo : Nat} {line : Text}
    (hread : d.readLine lineNo line = .ok d') : d'.Named := by
  unfold FlowDrawing.readLine at hread
  split at hread
  next =>
    cases hread
    exact h
  next =>
    split at hread
    next first links hchain =>
      split at hread
      next n targets hn htargets =>
        cases hread
        have hfirst : n.1.all isIdentChar = true := of_node? hn
        have hrest := of_mapM_node? htargets
        constructor
        case nodes =>
          refine named_mentionNodes ?_ h.nodes
          intro m hm
          rcases List.mem_cons.1 hm with rfl | hm
          · exact hfirst
          · obtain ⟨t, ht, rfl⟩ := List.mem_map.1 hm
            exact hrest t ht
        case edges =>
          intro e he
          rcases List.mem_append.1 he with he | he
          · exact h.edges e he
          · refine named_edgesFrom hfirst ?_ e he
            intro l hl
            obtain ⟨t, ht, rfl⟩ := List.mem_map.1 hl
            exact hrest t ht
      next => cases hread

/-- Every flowchart that is read is named by identifiers. -/
theorem named_of_ofDiagram {diagram : Text} {d : FlowDrawing}
    (h : FlowDrawing.ofDiagram diagram = .ok d) : d.Named := by
  have hfold : ∀ (lines : List (Nat × Text)) (d d' : FlowDrawing), d.Named →
      lines.foldlM (fun d p => d.readLine p.1 p.2) d = .ok d' →
      d'.Named := by
    intro lines
    induction lines with
    | nil =>
        intro d d' hd heq
        cases heq
        exact hd
    | cons line lines ih =>
        obtain ⟨lineNo, line⟩ := line
        intro d d' hd heq
        rw [List.foldlM_cons] at heq
        simp only at heq
        cases hline : d.readLine lineNo line with
        | error why =>
            rw [hline] at heq
            cases heq
        | ok next =>
            rw [hline] at heq
            exact ih next d' (hd.readLine hline) heq
  unfold FlowDrawing.ofDiagram at h
  split at h
  next => cases h
  next =>
    split at h
    next => exact hfold _ _ _ ⟨by simp, by simp⟩ h
    next => cases h

/-- The labels of a flowchart: those of its nodes, and then those of the
edges that have one. -/
def labels (d : FlowDrawing) : List Label :=
  d.nodes.map (fun n => { role := "nodeLabel".toList, text := n.label }) ++
    d.edges.flatMap fun e =>
      (shown (some e.label)).map fun t => { role := "edgeLabel".toList, text := t }

end FlowDrawing

theorem map_node_placeNodes (index y : Nat) (ns : List Node) :
    (placeNodes index y ns).map PlacedNode.node = ns := by
  induction ns generalizing index y with
  | nil => rfl
  | cons n ns ih => rw [placeNodes, List.map_cons, ih]

theorem map_edge_placeEdges (y : Nat) (es : List Edge) :
    (placeEdges y es).map PlacedEdge.edge = es := by
  induction es generalizing y with
  | nil => rfl
  | cons e es ih => rw [placeEdges, List.map_cons, ih]

theorem FlowDrawing.shows_placed (d : FlowDrawing) :
    d.layout.nodes.map PlacedNode.shows ++ d.layout.edges.flatMap PlacedEdge.shows
      = d.labels := by
  have hnodes := map_node_placeNodes 0 topMargin d.nodes
  have hedges := map_edge_placeEdges (topMargin + d.nodes.length * nodeHeight) d.edges
  unfold FlowDrawing.labels FlowDrawing.layout
  congr 1
  · conv => rhs; rw [← hnodes]
    rw [List.map_map]
    rfl
  · conv => rhs; rw [← hedges]
    rw [List.flatMap_map]
    rfl

/-- The labels of what is drawn are those of the flowchart. -/
theorem FlowDrawing.labels_markup (d : FlowDrawing) (role : Text) :
    d.layout.markup.labels role = d.labels := by
  rw [FlowLayout.labels_markup, d.shows_placed]

theorem FlowDrawing.Named.plain_layout {d : FlowDrawing} (h : d.Named) :
    d.layout.Plain where
  nodes := by
    intro p hp
    have hmem : p.node ∈ d.nodes := by
      rw [← map_node_placeNodes 0 topMargin d.nodes]
      exact List.mem_map.2 ⟨p, hp, rfl⟩
    exact isPlainValue_of_ident (h.nodes _ hmem)
  edges := by
    intro p hp
    have hmem : p.edge ∈ d.edges := by
      rw [← map_edge_placeEdges (topMargin + d.nodes.length * nodeHeight) d.edges]
      exact List.mem_map.2 ⟨p, hp, rfl⟩
    obtain ⟨hsource, htarget⟩ := h.edges _ hmem
    exact ⟨isPlainValue_of_ident hsource, isPlainValue_of_ident htarget⟩

-- ========================================================= the round trip

/-- The labels of a diagram of a kind. -/
def labelsAs (diagram : Text) : Mode → Except Rejection (List Label)
  | .er => (ErDrawing.ofDiagram diagram).map ErDrawing.labels
  | .flowchart => (FlowDrawing.ofDiagram diagram).map FlowDrawing.labels

/-- What is written for a diagram is a drawing with the diagram's labels,
each visited once, and no other text. -/
theorem exists_markup_of_draw {diagram drawing : Text} (h : draw diagram = .ok drawing) :
    ∃ e, markup diagram (modeOf diagram) = .ok e ∧ drawing = e.write ∧ e.Drawn ∧ Lettered 0 e
      ∧ ∃ labels, labelsAs diagram (modeOf diagram) = .ok labels
        ∧ ∀ role, e.labels role = labels := by
  obtain ⟨e, hmarkup, rfl⟩ := exists_markup_of_drawAs h
  refine ⟨e, hmarkup, rfl, ?_⟩
  rcases exists_layout hmarkup with ⟨hmode, d, hd, rfl⟩ | ⟨hmode, d, hd, rfl⟩
  · have hplain := (ErDrawing.named_of_ofDiagram hd).plain_layout
    refine ⟨ErLayout.drawn_markup hplain, d.layout.lettered_markup, d.labels, ?_,
      d.labels_markup⟩
    rw [hmode, labelsAs, hd]
    rfl
  · have hplain := (FlowDrawing.named_of_ofDiagram hd).plain_layout
    refine ⟨FlowLayout.drawn_markup hplain, d.layout.lettered_markup, d.labels, ?_,
      d.labels_markup⟩
    rw [hmode, labelsAs, hd]
    rfl

/-- What is drawn can be read if its labels can. -/
theorem exists_readDrawing {diagram drawing : Text} {labels : List Label}
    (hdraw : draw diagram = .ok drawing)
    (hlabels : labelsAs diagram (modeOf diagram) = .ok labels) :
    (∃ element, readDrawing drawing = .ok element) ↔ labels.all isXmlLabel = true := by
  obtain ⟨e, -, rfl, hdrawn, hlettered, labels', hlabels', heq⟩ := exists_markup_of_draw hdraw
  rw [hlabels] at hlabels'
  cases hlabels'
  have hxml : e.inner.isXml = labels.all isXmlLabel := by
    rw [isXml_inner hlettered.labelsOnly [], heq]
  constructor
  · rintro ⟨element, hread⟩
    exact hxml ▸ ((readDrawing_write hdrawn).1 hread).1
  · intro hall
    exact ⟨_, (readDrawing_write hdrawn).2 ⟨hxml.trans hall, rfl⟩⟩

/-- What has labels is drawn. -/
theorem exists_draw {diagram : Text} {labels : List Label}
    (h : labelsAs diagram (modeOf diagram) = .ok labels) :
    ∃ drawing, draw diagram = .ok drawing := by
  unfold draw drawAs
  cases hmode : modeOf diagram with
  | er =>
      rw [hmode, labelsAs] at h
      unfold markup erMarkup
      cases hd : ErDrawing.ofDiagram diagram with
      | error why =>
          rw [hd] at h
          cases h
      | ok d => exact ⟨_, rfl⟩
  | flowchart =>
      rw [hmode, labelsAs] at h
      unfold markup flowMarkup
      cases hd : FlowDrawing.ofDiagram diagram with
      | error why =>
          rw [hd] at h
          cases h
      | ok d => exact ⟨_, rfl⟩

/-- The labels that are read in a drawing are those of the diagram, with
line feeds for line ends; and names are put into each of them once. -/
theorem labels_of_draw {diagram drawing : Text} {element : Element}
    (hdraw : draw diagram = .ok drawing) (hread : readDrawing drawing = .ok element)
    (l : Naming.Legend) (nowrap : Bool) (role : Text) :
    ∃ labels, labelsAs diagram (modeOf diagram) = .ok labels
      ∧ element.labels role = labels.map (Label.map Text.normalizeLineEnds)
      ∧ (restore l nowrap element).labels role
          = (element.labels role).map (Label.map l.substitute) := by
  obtain ⟨e, -, rfl, hdrawn, hlettered, labels, hlabels, heq⟩ := exists_markup_of_draw hdraw
  obtain ⟨-, rfl⟩ := (readDrawing_write hdrawn).1 hread
  refine ⟨labels, hlabels, ?_, ?_⟩
  · rw [Element.labels_mapTexts, heq]
  · have honce' : Restore.OnceIn 0 (e.mapTexts Text.normalizeLineEnds) :=
      ⟨hlettered.once.1, Restore.once_mapTexts hlettered.once.2.1, trivial⟩
    exact Restore.labels_restore honce' nowrap role

end FreeLabel.Drawing
