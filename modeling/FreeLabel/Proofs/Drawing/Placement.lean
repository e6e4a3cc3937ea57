/-
Nothing in a drawing overlaps, and all of it is on the canvas.

# What a drawing shows

The statements are about the elements of a drawing. A drawing of entities
and relationships has a rectangle for each entity, around all its texts,
and the paths run below all rectangles (`ErArranged`). A flowchart has a
rectangle with a label for each node, and the labels of edges are below
them (`FlowArranged`). `OnCanvas` says of both that no shape reaches
further down than the drawing declares.

# Why

The parts of a drawing have the extents that the layout has placed
(`boxed_markup`, `coursed_markup`, `noded_markup`), and these are spaced.
-/
import FreeLabel.Drawing
import FreeLabel.Proofs.Drawing.Extents
import Mathlib.Data.List.Forall2

namespace FreeLabel.Drawing

open Markup (Element)

-- ============================================================== drawings

/-- Whether every shape in a drawing lies between the top and the height
that the drawing declares. -/
def OnCanvas (root : Element) : Prop :=
  ∃ height, number? root "height" = some height ∧
    ∀ base ∈ shapeNames, ∀ e ∈ root.elements.filter (isKind base),
      ∃ x, extent? e = some x ∧ x.bottom ≤ height

/-- The group of an entity: one rectangle, which all texts are inside of. -/
structure Boxed (e : Element) (frame : Extent) : Prop where
  rects : (e.elements.filter (isKind "rect")).map extent? = [some frame]
  texts : ∀ t ∈ e.elements.filter (isKind "text"), ∃ y,
    extent? t = some (Extent.line y) ∧ frame.top < y ∧ y < frame.bottom

/-- The group of a relationship: one path, with texts a little above. -/
structure Coursed (e : Element) (y : Nat) : Prop where
  paths : (e.elements.filter (isKind "path")).map extent? = [some (Extent.line y)]
  texts : ∀ t ∈ e.elements.filter (isKind "text"), ∃ z,
    extent? t = some (Extent.line z) ∧ z + 4 = y

/-- The group of a node: one rectangle and one label, equally high. -/
structure Noded (e : Element) (x : Extent) : Prop where
  rects : (e.elements.filter (isKind "rect")).map extent? = [some x]
  labelBoxes : (e.elements.filter (isKind "foreignObject")).map extent? = [some x]

/-- A drawing of entities and relationships without overlap. `frames` are
the extents of the entities, `heights` those of the paths. -/
structure ErArranged (d : ErDrawing) (root : Element) (frames : List Extent)
    (heights : List Nat) : Prop where
  frames_length : frames.length = d.entities.length
  heights_length : heights.length = d.relations.length
  rects : (root.elements.filter (isKind "rect")).map extent? = frames.map some
  paths : (root.elements.filter (isKind "path")).map extent?
    = heights.map fun y => some (Extent.line y)
  boxes : List.Forall₂ Boxed (root.elements.filter (hasRole "er entityBox")) frames
  courses : List.Forall₂ Coursed (root.elements.filter (hasRole "er relationship")) heights
  apart : frames.Pairwise Extent.Above
  below : ∀ frame ∈ frames, ∀ y ∈ heights, frame.bottom < y
  rising : heights.Pairwise (· < ·)

/-- A drawing of nodes and edges without overlap. `frames` are the extents
of the nodes, `labels` those of the edges that say anything. -/
structure FlowArranged (d : FlowDrawing) (root : Element) (frames labels : List Extent) :
    Prop where
  frames_length : frames.length = d.nodes.length
  labels_length : labels.length = (d.edges.filter Edge.isLabelled).length
  rects : (root.elements.filter (isKind "rect")).map extent? = frames.map some
  labelBoxes : (root.elements.filter (isKind "foreignObject")).map extent?
    = (frames ++ labels).map some
  nodes : List.Forall₂ Noded (root.elements.filter (hasRole "node")) frames
  apart : (frames ++ labels).Pairwise Extent.Until

/-- What a drawing of a kind shows stands in it without overlap. -/
def Arranged (diagram : Text) (root : Element) : Mode → Prop
  | .er => ∃ d frames heights, ErDrawing.ofDiagram diagram = .ok d ∧
    ErArranged d root frames heights
  | .flowchart => ∃ d frames labels, FlowDrawing.ofDiagram diagram = .ok d ∧
    FlowArranged d root frames labels

theorem number?_canvas (height : Nat) (es : List Element) :
    number? (canvas height es) "height" = some height := number?_of_lookup rfl

theorem EntityBox.extent?_rect (b : EntityBox) : extent? b.rect = some b.extent :=
  extent?_rectangle ..

theorem PlacedNode.extent?_rect (p : PlacedNode) : extent? p.rect = some p.extent :=
  extent?_rectangle ..

theorem PlacedNode.extent?_labelBox (p : PlacedNode) : extent? p.labelBox = some p.extent :=
  Drawing.extent?_labelBox ..

theorem PlacedEdge.extent?_labelBox (p : PlacedEdge) : extent? p.labelBox = some p.extent :=
  Drawing.extent?_labelBox ..

theorem PlacedRelation.y_of_mem_label {p : PlacedRelation} {c : Cell} (h : c ∈ p.label) :
    c.y = p.y - 4 := by
  obtain ⟨body, -, rfl⟩ := List.mem_map.1 h
  rfl

theorem EntityBox.boxed_markup {b : EntityBox}
    (h : ∀ c ∈ b.cells, b.extent.top < c.y ∧ c.y < b.extent.bottom) :
    Boxed b.markup b.extent := by
  constructor
  case rects => simp [b.extent?_rect]
  case texts =>
    intro t ht
    simp at ht
    obtain ⟨c, hc, rfl⟩ := ht
    exact ⟨c.y, c.extent?_markup, h c hc⟩

theorem PlacedRelation.coursed_markup {p : PlacedRelation} (h : 4 ≤ p.y) :
    Coursed p.markup p.y := by
  constructor
  case paths => simp [p.extent?_path]
  case texts =>
    intro t ht
    simp at ht
    obtain ⟨c, hc, rfl⟩ := ht
    have hy := p.y_of_mem_label hc
    exact ⟨c.y, c.extent?_markup, by omega⟩

theorem PlacedNode.noded_markup (p : PlacedNode) : Noded p.markup p.extent where
  rects := by simp [p.extent?_rect]
  labelBoxes := by simp [p.extent?_labelBox]

/-- What is placed apart is arranged. -/
theorem ErDrawing.arranged_layout (d : ErDrawing) :
    ErArranged d d.layout.markup (d.layout.boxes.map EntityBox.extent)
      (d.layout.relations.map PlacedRelation.y) := by
  have hspaced := d.spaced_layout
  constructor
  case frames_length =>
    rw [d.boxes_layout, List.length_map, List.length_map, length_stack]
  case heights_length =>
    rw [d.relations_layout, List.length_map, List.length_map, length_stack]
  case rects =>
    rw [ErLayout.rects, List.map_map, List.map_map]
    exact List.map_congr_left fun b _ => b.extent?_rect
  case paths =>
    rw [ErLayout.paths, List.map_map, List.map_map]
    exact List.map_congr_left fun p _ => p.extent?_path
  case boxes =>
    rw [ErLayout.entityGroups, List.forall₂_map_left_iff, List.forall₂_map_right_iff,
      List.forall₂_same]
    exact fun b hb => EntityBox.boxed_markup (hspaced.cells b hb)
  case courses =>
    rw [ErLayout.relationGroups, List.forall₂_map_left_iff, List.forall₂_map_right_iff,
      List.forall₂_same]
    exact fun p hp => PlacedRelation.coursed_markup (hspaced.margin p hp)
  case apart => exact List.pairwise_map.2 hspaced.boxes
  case below =>
    intro frame hframe y hy
    obtain ⟨b, hb, rfl⟩ := List.mem_map.1 hframe
    obtain ⟨p, hp, rfl⟩ := List.mem_map.1 hy
    exact hspaced.below b hb p hp
  case rising => exact List.pairwise_map.2 hspaced.relations

theorem ErDrawing.onCanvas_layout (d : ErDrawing) : OnCanvas d.layout.markup := by
  have hspaced := d.spaced_layout
  refine ⟨d.layout.height, number?_canvas .., ?_⟩
  intro base hbase e he
  simp only [shapeNames, List.mem_cons, List.not_mem_nil, or_false] at hbase
  rcases hbase with rfl | rfl | rfl | rfl
  · rw [ErLayout.rects] at he
    obtain ⟨b, hb, rfl⟩ := List.mem_map.1 he
    exact ⟨_, b.extent?_rect, hspaced.boxesEnd b hb⟩
  · rw [ErLayout.labelBoxes] at he
    cases he
  · rw [ErLayout.texts] at he
    obtain ⟨c, hc, rfl⟩ := List.mem_map.1 he
    refine ⟨_, c.extent?_markup, ?_⟩
    rcases List.mem_append.1 hc with hc | hc
    · obtain ⟨b, hb, hc⟩ := List.mem_flatMap.1 hc
      exact Nat.le_trans (Nat.le_of_lt (hspaced.cells b hb c hc).2) (hspaced.boxesEnd b hb)
    · obtain ⟨p, hp, hc⟩ := List.mem_flatMap.1 hc
      rw [Extent.line, p.y_of_mem_label hc]
      exact Nat.le_trans (Nat.sub_le _ _) (hspaced.relationsEnd p hp)
  · rw [ErLayout.paths] at he
    obtain ⟨p, hp, rfl⟩ := List.mem_map.1 he
    exact ⟨_, p.extent?_path, hspaced.relationsEnd p hp⟩

theorem FlowDrawing.map_edge_edges (d : FlowDrawing) :
    d.layout.edges.map PlacedEdge.edge = d.edges := by
  rw [d.edges_layout, List.map_map]
  exact map_snd_stack

theorem FlowDrawing.arranged_layout (d : FlowDrawing) :
    FlowArranged d d.layout.markup (d.layout.nodes.map PlacedNode.extent)
      (d.layout.labelled.map PlacedEdge.extent) := by
  have hspaced := d.spaced_layout
  constructor
  case frames_length =>
    rw [d.extents_nodes, List.length_map, length_stack]
  case labels_length =>
    rw [← d.map_edge_edges, List.filter_map, List.length_map, List.length_map]
    rfl
  case rects =>
    rw [FlowLayout.rects, List.map_map, List.map_map]
    exact List.map_congr_left fun p _ => p.extent?_rect
  case labelBoxes =>
    rw [FlowLayout.labelBoxes, List.map_append, List.map_append, List.map_map, List.map_map,
      List.map_map, List.map_map]
    congr 1
    · exact List.map_congr_left fun p _ => p.extent?_labelBox
    · exact List.map_congr_left fun p _ => p.extent?_labelBox
  case nodes =>
    rw [FlowLayout.nodeGroups, List.forall₂_map_left_iff, List.forall₂_map_right_iff,
      List.forall₂_same]
    exact fun p _ => p.noded_markup
  case apart =>
    exact hspaced.extents.sublist (List.Sublist.append_left (List.filter_sublist.map _) _)

theorem FlowDrawing.onCanvas_layout (d : FlowDrawing) : OnCanvas d.layout.markup := by
  have hfits := d.spaced_layout.fits
  refine ⟨d.layout.height, number?_canvas .., ?_⟩
  intro base hbase e he
  simp only [shapeNames, List.mem_cons, List.not_mem_nil, or_false] at hbase
  rcases hbase with rfl | rfl | rfl | rfl
  · rw [FlowLayout.rects] at he
    obtain ⟨p, hp, rfl⟩ := List.mem_map.1 he
    exact ⟨_, p.extent?_rect, hfits _ (List.mem_append_left _ (List.mem_map_of_mem hp))⟩
  · rw [FlowLayout.labelBoxes] at he
    rcases List.mem_append.1 he with he | he
    · obtain ⟨p, hp, rfl⟩ := List.mem_map.1 he
      exact ⟨_, p.extent?_labelBox, hfits _ (List.mem_append_left _ (List.mem_map_of_mem hp))⟩
    · obtain ⟨p, hp, rfl⟩ := List.mem_map.1 he
      exact ⟨_, p.extent?_labelBox,
        hfits _ (List.mem_append_right _ (List.mem_map_of_mem (List.mem_of_mem_filter hp)))⟩
  · rw [FlowLayout.texts] at he
    cases he
  · rw [FlowLayout.paths] at he
    cases he

/-- What is drawn stands on the canvas, and nothing overlaps. -/
theorem arranged_of_drawAs {mode : Mode} {diagram drawing : Text}
    (h : drawAs mode diagram = .ok drawing) :
    ∃ root, drawing = root.write ∧ OnCanvas root ∧ Arranged diagram root mode := by
  obtain ⟨root, hmarkup, rfl⟩ := exists_markup_of_drawAs h
  rcases exists_layout hmarkup with ⟨rfl, d, hread, rfl⟩ | ⟨rfl, d, hread, rfl⟩
  · exact ⟨_, rfl, d.onCanvas_layout, d, _, _, hread, d.arranged_layout⟩
  · exact ⟨_, rfl, d.onCanvas_layout, d, _, _, hread, d.arranged_layout⟩

theorem exists_ok {ε α : Type} {x : Except ε α} (h : x.toBool = true) : ∃ a, x = .ok a := by
  cases x with
  | error e => cases h
  | ok a => exact ⟨a, rfl⟩

/-- Two entities with a relationship, and two nodes with an edge. -/
theorem arranged_of_two :
    (∃ drawing, drawAs .er "erDiagram\nA \x7b\nint id\n\x7d\nA ||--o\x7b B : has".toList
        = .ok drawing ∧ ∃ root, drawing = root.write ∧ OnCanvas root ∧
      Arranged "erDiagram\nA \x7b\nint id\n\x7d\nA ||--o\x7b B : has".toList root .er) ∧
    ∃ drawing, drawAs .flowchart "flowchart LR\nA[\"One\"] -->|yes| B".toList
        = .ok drawing ∧ ∃ root, drawing = root.write ∧ OnCanvas root ∧
      Arranged "flowchart LR\nA[\"One\"] -->|yes| B".toList root .flowchart := by
  constructor
  case left =>
    obtain ⟨drawing, hdrawing⟩ := exists_ok (x := drawAs .er
      "erDiagram\nA \x7b\nint id\n\x7d\nA ||--o\x7b B : has".toList) (by decide +kernel)
    exact ⟨drawing, hdrawing, arranged_of_drawAs hdrawing⟩
  case right =>
    obtain ⟨drawing, hdrawing⟩ := exists_ok (x := drawAs .flowchart
      "flowchart LR\nA[\"One\"] -->|yes| B".toList) (by decide +kernel)
    exact ⟨drawing, hdrawing, arranged_of_drawAs hdrawing⟩

end FreeLabel.Drawing
