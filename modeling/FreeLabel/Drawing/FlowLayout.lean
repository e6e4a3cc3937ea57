/-
Where a flowchart drawing puts things: the nodes one below the other, and
the labels of the edges below them. Labels are hypertext, in boxes wide
enough for their characters.
-/
import FreeLabel.Drawing.ErLayout
import FreeLabel.Drawing.Flow

namespace FreeLabel.Drawing

open Markup (Element Content svgName xhtmlName plainName)

-- ============================================================= placements

/-- The width of a character. -/
def charWidth : Nat := 8

/-- A node with its height in the drawing and its place among the nodes,
from zero. -/
structure PlacedNode where
  /-- The node. -/
  node : Node
  /-- Its place among the nodes. -/
  index : Nat
  /-- How far down it is. -/
  y : Nat
deriving DecidableEq, Repr

/-- An edge with the height of its label. -/
structure PlacedEdge where
  /-- The edge. -/
  edge : Edge
  /-- How far down its label is. -/
  y : Nat
deriving DecidableEq, Repr

/-- A flowchart drawing with everything in its place. -/
structure FlowLayout where
  /-- The height of the canvas. -/
  height : Nat
  /-- The nodes, from the top down. -/
  nodes : List PlacedNode
  /-- The edges, from the top down. -/
  edges : List PlacedEdge
deriving DecidableEq, Repr

-- ================================================================= layout

/-- How much height a node takes up. -/
def nodeHeight : Nat := 2 * lineHeight

/-- Nodes from a place and height on. -/
def placeNodes (index y : Nat) : List Node → List PlacedNode
  | [] => []
  | n :: ns =>
    { node := n, index := index, y := y } :: placeNodes (index + 1) (y + nodeHeight) ns

/-- Edges from height `y` on. -/
def placeEdges (y : Nat) : List Edge → List PlacedEdge
  | [] => []
  | e :: es => { edge := e, y := y } :: placeEdges (y + lineHeight) es

/-- Everything in its place. The canvas has room for as many edges as
nodes' heights would hold. -/
def FlowDrawing.layout (d : FlowDrawing) : FlowLayout where
  height := 40 + (d.nodes.length + d.edges.length) * 2 * lineHeight
  nodes := placeNodes 0 topMargin d.nodes
  edges := placeEdges (topMargin + d.nodes.length * nodeHeight) d.edges

-- ================================================================= markup

/-- The width of a label's box. -/
def labelWidth (label : Text) : Nat := max 40 (label.length * charWidth)

/-- The width of a node's box. -/
def nodeWidth (label : Text) : Nat := max 60 (label.length * charWidth + 20)

/-- A label in a box of its own. -/
def labelBox (x y : Nat) (label : Text) (role : String) : Element :=
  let line : Element := { tag := xhtmlName "p", inner := .text label }
  let span : Element :=
    { tag := xhtmlName "span", attrs := [attrWord "class" role]
      inner := Content.ofElements [line] }
  let block : Element := { tag := xhtmlName "div", inner := Content.ofElements [span] }
  svg "foreignObject"
    [attrNat "x" x, attrNat "y" y, attrNat "width" (labelWidth label),
      attrNat "height" lineHeight]
    [block]

/-- A node in a drawing. -/
def PlacedNode.markup (p : PlacedNode) : Element :=
  namedGroup ("flowchart-".toList ++ p.node.name ++ ['-'] ++ Text.ofNat p.index) "node"
    [rectangle 10 p.y (nodeWidth p.node.label) lineHeight,
      labelBox 20 p.y p.node.label "nodeLabel"]

/-- An edge in a drawing. -/
def PlacedEdge.markup (p : PlacedEdge) : Element :=
  namedGroup ("L-".toList ++ p.edge.source ++ ['-'] ++ p.edge.target) "edgeLabel"
    ((shown (some p.edge.label)).map fun label => labelBox 200 p.y label "edgeLabel")

/-- A flowchart drawing as markup. -/
def FlowLayout.markup (l : FlowLayout) : Element :=
  canvas l.height
    [group "root"
      [group "nodes" (l.nodes.map PlacedNode.markup),
        group "edgeLabels" (l.edges.map PlacedEdge.markup)]]

end FreeLabel.Drawing
