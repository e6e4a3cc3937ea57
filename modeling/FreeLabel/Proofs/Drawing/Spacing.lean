/-
What a layout places does not overlap, and it ends where the canvas does.

# Stacks

Both kinds of layout put things of known heights one below the other
(`stack`): each ends before the next begins, and all of them end at the
sum of their heights (`stack_pairwise`, `stack_within`). The layouts are
such stacks, of entities and relationships or of nodes and edges
(`boxes_layout` and so on).

# Layouts

`Spaced` says what follows for all that is placed. The lines of an entity
are a stack in a stack, one line shorter than the entity is high, so its
last baseline stays inside its box. A flowchart declares more height than
it needs, because its edges take up one line each and not two.
-/
import FreeLabel.Drawing.FlowLayout
import Mathlib.Algebra.GroupWithZero.Nat
import Mathlib.Data.List.Basic

namespace FreeLabel.Drawing

-- =============================================================== extents

/-- From where to where something reaches, downwards. -/
structure Extent where
  /-- Where it begins. -/
  top : Nat
  /-- Where it ends. -/
  bottom : Nat
deriving DecidableEq, Repr

/-- The extent of what stands on a line. -/
def Extent.line (y : Nat) : Extent := { top := y, bottom := y }

/-- The extent of something of a height. -/
def Extent.ofHeight (y height : Nat) : Extent := { top := y, bottom := y + height }

/-- One extent ends before another begins. -/
def Extent.Above (a b : Extent) : Prop := a.bottom < b.top

/-- One extent ends where another begins, or before. -/
def Extent.Until (a b : Extent) : Prop := a.bottom ≤ b.top

-- =============================================================== stacked

section Stacked

variable {α : Type} (height : α → Nat)

/-- Things of some heights, each with where it begins if they stand one
below the other from `y` on. -/
def stack (y : Nat) : List α → List (Nat × α)
  | [] => []
  | a :: as => (y, a) :: stack (y + height a) as

variable {height} {y : Nat} {as : List α} {p : Nat × α}

theorem map_snd_stack : (stack height y as).map Prod.snd = as := by
  induction as generalizing y with
  | nil => rfl
  | cons a as ih => rw [stack, List.map_cons, ih]

theorem length_stack : (stack height y as).length = as.length := by
  rw [← List.length_map (f := Prod.snd), map_snd_stack]

theorem stack_within (h : p ∈ stack height y as) :
    y ≤ p.1 ∧ p.1 + height p.2 ≤ y + (as.map height).sum := by
  induction as generalizing y with
  | nil => cases h
  | cons a as ih =>
      rw [List.map_cons, List.sum_cons]
      rcases List.mem_cons.1 h with rfl | h
      · dsimp only
        omega
      · have := ih h
        omega

/-- Each ends before the next begins. -/
theorem stack_pairwise : (stack height y as).Pairwise fun p q => p.1 + height p.2 ≤ q.1 := by
  induction as generalizing y with
  | nil => exact .nil
  | cons a as ih => exact .cons (fun q hq => (stack_within hq).1) ih

end Stacked

/-- The heights of equal things add up to a multiple. -/
theorem sum_map_const {α : Type} (n : Nat) (as : List α) :
    (as.map fun _ => n).sum = as.length * n := by
  rw [List.map_const', List.sum_replicate_nat]

theorem entitiesHeight_eq_sum (es : List Entity) :
    entitiesHeight es = (es.map entityHeight).sum := by
  induction es with
  | nil => rfl
  | cons e es ih => rw [entitiesHeight, ih, List.map_cons, List.sum_cons]

theorem entityBoxes_eq_stack (y : Nat) (es : List Entity) :
    entityBoxes y es = (stack entityHeight y es).map fun p => entityBox p.1 p.2 := by
  induction es generalizing y with
  | nil => rfl
  | cons e es ih => rw [entityBoxes, ih, stack, List.map_cons]

theorem placeRelations_eq_stack (y : Nat) (rs : List Relation) :
    placeRelations y rs
      = (stack (fun _ => lineHeight) y rs).map fun p => { relation := p.2, y := p.1 } := by
  induction rs generalizing y with
  | nil => rfl
  | cons r rs ih => rw [placeRelations, ih, stack, List.map_cons]

theorem placeEdges_eq_stack (y : Nat) (es : List Edge) :
    placeEdges y es
      = (stack (fun _ => lineHeight) y es).map fun p => { edge := p.2, y := p.1 } := by
  induction es generalizing y with
  | nil => rfl
  | cons e es ih => rw [placeEdges, ih, stack, List.map_cons]

/-- Nodes are also counted. -/
theorem map_placeNodes (index y : Nat) (ns : List Node) :
    (placeNodes index y ns).map (fun p => (p.y, p.node))
      = stack (fun _ => nodeHeight) y ns := by
  induction ns generalizing index y with
  | nil => rfl
  | cons n ns ih => rw [placeNodes, List.map_cons, ih, stack]

-- ============================================= entity-relationship layouts

/-- The extent of an entity. -/
def EntityBox.extent (b : EntityBox) : Extent := Extent.ofHeight b.top b.height

/-- A layout in which everything has a place of its own. -/
structure ErLayout.Spaced (l : ErLayout) : Prop where
  boxes : l.boxes.Pairwise fun b b' => b.extent.Above b'.extent
  cells : ∀ b ∈ l.boxes, ∀ c ∈ b.cells, b.extent.top < c.y ∧ c.y < b.extent.bottom
  below : ∀ b ∈ l.boxes, ∀ p ∈ l.relations, b.extent.bottom < p.y
  relations : l.relations.Pairwise fun p p' => p.y < p'.y
  margin : ∀ p ∈ l.relations, 4 ≤ p.y
  boxesEnd : ∀ b ∈ l.boxes, b.extent.bottom ≤ l.height
  relationsEnd : ∀ p ∈ l.relations, p.y ≤ l.height

theorem y_of_mem_rowCells {y : Nat} {row : Row} {c : Cell} (h : c ∈ rowCells y row) :
    c.y = y + 16 := by
  simp only [rowCells, List.cons_append, List.nil_append, List.mem_cons, List.mem_append,
    List.mem_map] at h
  rcases h with rfl | rfl | ⟨_, -, rfl⟩ | ⟨_, -, rfl⟩ <;> rfl

theorem within_of_mem_rowsCells {y : Nat} {rows : List Row} {c : Cell}
    (h : c ∈ rowsCells y rows) : y < c.y ∧ c.y < y + rows.length * lineHeight := by
  induction rows generalizing y with
  | nil => cases h
  | cons row rows ih =>
      rw [List.length_cons, Nat.succ_mul]
      rcases List.mem_append.1 h with h | h
      · have hy := y_of_mem_rowCells h
        rw [lineHeight]
        omega
      · have := ih h
        rw [lineHeight] at *
        omega

/-- The line below an entity stays empty. -/
theorem extent_entityBox (y : Nat) (e : Entity) :
    (entityBox y e).extent.top = y ∧
      (entityBox y e).extent.bottom + lineHeight = y + entityHeight e := by
  constructor
  case left => rfl
  case right =>
    simp only [EntityBox.extent, entityBox, Extent.ofHeight, entityHeight, lineHeight]
    omega

theorem within_of_mem_cells {y : Nat} {e : Entity} {c : Cell} (h : c ∈ (entityBox y e).cells) :
    (entityBox y e).extent.top < c.y ∧ c.y < (entityBox y e).extent.bottom := by
  simp only [EntityBox.extent, entityBox, Extent.ofHeight, lineHeight] at h ⊢
  rcases List.mem_cons.1 h with rfl | h
  · dsimp only
    omega
  · have := within_of_mem_rowsCells h
    rw [lineHeight] at this
    omega

theorem ErDrawing.boxes_layout (d : ErDrawing) :
    d.layout.boxes
      = (stack entityHeight topMargin d.entities).map fun p => entityBox p.1 p.2 :=
  entityBoxes_eq_stack ..

theorem ErDrawing.relations_layout (d : ErDrawing) :
    d.layout.relations
      = (stack (fun _ => lineHeight) (topMargin + entitiesHeight d.entities) d.relations).map
          fun p => { relation := p.2, y := p.1 } :=
  placeRelations_eq_stack ..

theorem ErDrawing.spaced_layout (d : ErDrawing) : d.layout.Spaced := by
  have hbox : ∀ b ∈ d.layout.boxes, ∃ y e, b = entityBox y e ∧
      b.extent.bottom + lineHeight ≤ topMargin + entitiesHeight d.entities := by
    intro b hb
    rw [d.boxes_layout] at hb
    obtain ⟨p, hp, rfl⟩ := List.mem_map.1 hb
    have hwithin := (stack_within hp).2
    rw [← entitiesHeight_eq_sum] at hwithin
    exact ⟨p.1, p.2, rfl, (extent_entityBox p.1 p.2).2 ▸ hwithin⟩
  have hrelation : ∀ p ∈ d.layout.relations, topMargin + entitiesHeight d.entities ≤ p.y ∧
      p.y + lineHeight ≤ topMargin + entitiesHeight d.entities
        + d.relations.length * lineHeight := by
    intro p hp
    rw [d.relations_layout] at hp
    obtain ⟨q, hq, rfl⟩ := List.mem_map.1 hp
    have hwithin := stack_within hq
    rw [sum_map_const] at hwithin
    exact hwithin
  have hheight : d.layout.height
      = 40 + entitiesHeight d.entities + d.relations.length * lineHeight := rfl
  simp only [topMargin, lineHeight] at hbox hrelation hheight
  constructor
  case boxes =>
    rw [d.boxes_layout, List.pairwise_map]
    refine stack_pairwise.imp fun {p q} hle => ?_
    have hp := (extent_entityBox p.1 p.2).2
    rw [lineHeight] at hp
    rw [Extent.Above, (extent_entityBox q.1 q.2).1]
    omega
  case cells =>
    intro b hb c hc
    obtain ⟨y, e, rfl, -⟩ := hbox b hb
    exact within_of_mem_cells hc
  case below =>
    intro b hb p hp
    obtain ⟨-, -, -, hbottom⟩ := hbox b hb
    have := hrelation p hp
    omega
  case relations =>
    rw [d.relations_layout, List.pairwise_map]
    refine stack_pairwise.imp fun {p q} hle => ?_
    rw [lineHeight] at hle
    dsimp only
    omega
  case margin =>
    intro p hp
    have := hrelation p hp
    omega
  case boxesEnd =>
    intro b hb
    obtain ⟨-, -, -, hbottom⟩ := hbox b hb
    omega
  case relationsEnd =>
    intro p hp
    have := hrelation p hp
    omega

-- ======================================================= flowchart layouts

/-- The extent of a node, and of its label. -/
def PlacedNode.extent (p : PlacedNode) : Extent := Extent.ofHeight p.y lineHeight

/-- The extent of an edge's label. -/
def PlacedEdge.extent (p : PlacedEdge) : Extent := Extent.ofHeight p.y lineHeight

/-- A layout in which everything has a place of its own. -/
structure FlowLayout.Spaced (l : FlowLayout) : Prop where
  extents : (l.nodes.map PlacedNode.extent ++ l.edges.map PlacedEdge.extent).Pairwise
    Extent.Until
  fits : ∀ x ∈ l.nodes.map PlacedNode.extent ++ l.edges.map PlacedEdge.extent,
    x.bottom ≤ l.height

theorem FlowDrawing.extents_nodes (d : FlowDrawing) :
    d.layout.nodes.map PlacedNode.extent
      = (stack (fun _ => nodeHeight) topMargin d.nodes).map
          fun p => Extent.ofHeight p.1 lineHeight := by
  rw [← map_placeNodes 0, List.map_map]
  rfl

theorem FlowDrawing.edges_layout (d : FlowDrawing) :
    d.layout.edges
      = (stack (fun _ => lineHeight) (topMargin + d.nodes.length * nodeHeight) d.edges).map
          fun p => { edge := p.2, y := p.1 } :=
  placeEdges_eq_stack ..

theorem FlowDrawing.extents_edges (d : FlowDrawing) :
    d.layout.edges.map PlacedEdge.extent
      = (stack (fun _ => lineHeight) (topMargin + d.nodes.length * nodeHeight) d.edges).map
          fun p => Extent.ofHeight p.1 lineHeight := by
  rw [d.edges_layout, List.map_map]
  rfl

theorem FlowDrawing.spaced_layout (d : FlowDrawing) : d.layout.Spaced := by
  have hnode : ∀ x ∈ d.layout.nodes.map PlacedNode.extent,
      x.bottom ≤ topMargin + d.nodes.length * nodeHeight := by
    intro x hx
    rw [d.extents_nodes] at hx
    obtain ⟨p, hp, rfl⟩ := List.mem_map.1 hx
    have hwithin := (stack_within hp).2
    rw [sum_map_const] at hwithin
    rw [Extent.ofHeight]
    rw [nodeHeight] at *
    dsimp only
    omega
  have hedge : ∀ x ∈ d.layout.edges.map PlacedEdge.extent,
      topMargin + d.nodes.length * nodeHeight ≤ x.top ∧
        x.bottom ≤ topMargin + d.nodes.length * nodeHeight + d.edges.length * lineHeight := by
    intro x hx
    rw [d.extents_edges] at hx
    obtain ⟨p, hp, rfl⟩ := List.mem_map.1 hx
    have hwithin := stack_within hp
    rw [sum_map_const] at hwithin
    exact hwithin
  have hheight : d.layout.height
      = 40 + (d.nodes.length + d.edges.length) * 2 * lineHeight := rfl
  simp only [topMargin, nodeHeight, lineHeight] at hnode hedge hheight
  constructor
  case extents =>
    refine List.pairwise_append.2 ⟨?_, ?_, ?_⟩
    · rw [d.extents_nodes, List.pairwise_map]
      refine stack_pairwise.imp fun {p q} hle => ?_
      simp only [Extent.Until, Extent.ofHeight, nodeHeight] at hle ⊢
      omega
    · rw [d.extents_edges, List.pairwise_map]
      have hstack := @stack_pairwise _ fun _ : Edge => lineHeight
      exact hstack
    · intro x hx x' hx'
      exact Nat.le_trans (hnode x hx) (hedge x' hx').1
  case fits =>
    intro x hx
    rcases List.mem_append.1 hx with hx | hx
    · have := hnode x hx
      omega
    · have := hedge x hx
      omega

end FreeLabel.Drawing
