/-
Where an entity-relationship drawing puts things. Entities stand one
below the other, each in a box with its name and a line for every row;
the relationships follow, a path and a label each. One running height
places them all, and `height` says beforehand how far it will run.
-/
import FreeLabel.Drawing.Er
import FreeLabel.Markup.Content

namespace FreeLabel.Drawing

open Markup (Element Content svgName plainName)

/-- The height of a line of text. -/
def lineHeight : Nat := 24

/-- The height at which a drawing begins. -/
def topMargin : Nat := 20

-- ============================================================= placements

/-- A text at a place. -/
structure Cell where
  /-- How far right it begins. -/
  x : Nat
  /-- How far down its baseline is. -/
  y : Nat
  /-- The text. -/
  body : Text
  /-- What the text is, in the words of style sheets. -/
  role : String
deriving DecidableEq, Repr

/-- A box around an entity. -/
structure EntityBox where
  /-- The identifier of the entity. -/
  name : Text
  /-- How far down the box begins. -/
  top : Nat
  /-- The height of the box. -/
  height : Nat
  /-- What stands in the box. -/
  cells : List Cell
deriving DecidableEq, Repr

/-- A relationship with the height of its path. -/
structure PlacedRelation where
  /-- The relationship. -/
  relation : Relation
  /-- How far down the path is. -/
  y : Nat
deriving DecidableEq, Repr

/-- An entity-relationship drawing with everything in its place. -/
structure ErLayout where
  /-- The height of the canvas. -/
  height : Nat
  /-- The boxes, from the top down. -/
  boxes : List EntityBox
  /-- The relationships, from the top down. -/
  relations : List PlacedRelation
deriving DecidableEq, Repr

-- ================================================================= layout

/-- A text that is there and not empty. -/
def shown (t : Option Text) : List Text := t.toList.filter fun t => !t.isEmpty

/-- The cells of a row whose line begins at height `y`. -/
def rowCells (y : Nat) (row : Row) : List Cell :=
  let cell (x : Nat) (body : Text) (role : String) : Cell :=
    { x := x, y := y + 16, body := body, role := "er attributeBoxOdd " ++ role }
  [cell 20 row.first "attribute-type", cell 160 row.second "attribute-name"] ++
    (shown row.key).map (cell 260 · "attribute-keys") ++
    (shown row.comment).map (cell 300 · "attribute-comment")

/-- The cells of rows whose first line begins at height `y`. -/
def rowsCells (y : Nat) : List Row → List Cell
  | [] => []
  | row :: rows => rowCells y row ++ rowsCells (y + lineHeight) rows

/-- The box of an entity that begins at height `y`. -/
def entityBox (y : Nat) (e : Entity) : EntityBox where
  name := e.name
  top := y
  height := (e.rows.length + 1) * lineHeight
  cells :=
    { x := 20, y := y + 16, body := e.name, role := "er entityLabel" } ::
      rowsCells (y + lineHeight) e.rows

/-- How much height an entity takes up. -/
def entityHeight (e : Entity) : Nat := (e.rows.length + 2) * lineHeight

/-- The boxes of entities from height `y` on. -/
def entityBoxes (y : Nat) : List Entity → List EntityBox
  | [] => []
  | e :: es => entityBox y e :: entityBoxes (y + entityHeight e) es

/-- How much height entities take up. -/
def entitiesHeight : List Entity → Nat
  | [] => 0
  | e :: es => entityHeight e + entitiesHeight es

/-- Relationships from height `y` on. -/
def placeRelations (y : Nat) : List Relation → List PlacedRelation
  | [] => []
  | r :: rs => { relation := r, y := y } :: placeRelations (y + lineHeight) rs

/-- Everything in its place. -/
def ErDrawing.layout (d : ErDrawing) : ErLayout where
  height := 40 + entitiesHeight d.entities + d.relations.length * lineHeight
  boxes := entityBoxes topMargin d.entities
  relations := placeRelations (topMargin + entitiesHeight d.entities) d.relations

-- ================================================================= markup

/-- An attribute in no namespace. -/
def attr (name : String) (value : Text) : Markup.Name × Text := (plainName name, value)

/-- An attribute whose value is a number. -/
def attrNat (name : String) (value : Nat) : Markup.Name × Text :=
  attr name (Text.ofNat value)

/-- An attribute whose value is a word. -/
def attrWord (name value : String) : Markup.Name × Text := attr name value.toList

/-- An element of a drawing. -/
def svg (base : String) (attrs : Markup.Attributes) (children : List Element) : Element :=
  { tag := svgName base, attrs := attrs, inner := Content.ofElements children }

/-- The canvas of a drawing. -/
def canvas (height : Nat) (children : List Element) : Element :=
  svg "svg"
    [attrWord "version" "1.1", attrNat "width" 600, attrNat "height" height] children

/-- A group of elements. -/
def group (role : String) (children : List Element) : Element :=
  svg "g" [attrWord "class" role] children

/-- A group of elements with a name. -/
def namedGroup (id : Text) (role : String) (children : List Element) : Element :=
  svg "g" [attr "id" id, attrWord "class" role] children

/-- A text in a drawing. -/
def Cell.markup (c : Cell) : Element :=
  { tag := svgName "text"
    attrs := [attrNat "x" c.x, attrNat "y" c.y, attrWord "class" c.role]
    inner := .text c.body }

/-- A box in a drawing. -/
def rectangle (x y width height : Nat) : Element :=
  svg "rect"
    [attrNat "x" x, attrNat "y" y, attrNat "width" width, attrNat "height" height] []

/-- An entity in a drawing. -/
def EntityBox.markup (b : EntityBox) : Element :=
  namedGroup ("entity-".toList ++ b.name) "er entityBox"
    (rectangle 10 b.top 400 b.height :: b.cells.map Cell.markup)

/-- The label of a relationship, if there is one. -/
def PlacedRelation.label (p : PlacedRelation) : List Cell :=
  (shown (some p.relation.label)).map fun body =>
    { x := 420, y := p.y - 4, body := body, role := "er relationshipLabel" }

/-- The course of a relationship's path. -/
def PlacedRelation.course (p : PlacedRelation) : Text :=
  "M 410 ".toList ++ Text.ofNat p.y ++ " L 500 ".toList ++ Text.ofNat p.y

/-- A relationship in a drawing. -/
def PlacedRelation.markup (p : PlacedRelation) : Element :=
  namedGroup ("rel-".toList ++ p.relation.left ++ ['-'] ++ p.relation.right)
    "er relationship"
    (svg "path"
        [attr "d" p.course, attr "data-cardinality" p.relation.op.spelling] [] ::
      p.label.map Cell.markup)

/-- An entity-relationship drawing as markup. -/
def ErLayout.markup (l : ErLayout) : Element :=
  canvas l.height
    [group "er" (l.boxes.map EntityBox.markup ++ l.relations.map PlacedRelation.markup)]

end FreeLabel.Drawing
