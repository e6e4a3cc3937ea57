/-
How far down the shapes of a drawing reach, as its markup says.

# Shapes

`Element.elements` lists the elements of a drawing. Four kinds of them
take up height: rectangles, boxes of labels, texts and paths
(`shapeNames`). `extent?` reads the height off the attributes and gives
nothing where a number is missing, so that a shape has an extent is
something to prove.

# Kinds

What an element is can be seen from its name (`isKind`), and which group
it is from the role that it has (`hasRole`). The parts that layouts are
written as have their kinds and roles by construction.
-/
import FreeLabel.Decimal.Reading
import FreeLabel.Proofs.Drawing.Markup
import FreeLabel.Proofs.Drawing.Spacing

namespace FreeLabel

-- ============================================================== elements

namespace Markup

/-- The elements in content, in document order. -/
def Content.elements : Content → List Element
  | .text _ => []
  | .element _ tag attrs inner after =>
    { tag := tag, attrs := attrs, inner := inner } :: (inner.elements ++ after.elements)

/-- An element and those in it, in document order. -/
def Element.elements (e : Element) : List Element := e :: e.inner.elements

theorem Content.elements_ofElements (es : List Element) :
    (Content.ofElements es).elements = es.flatMap Element.elements := by
  induction es with
  | nil => rfl
  | cons e es ih =>
      rw [List.flatMap_cons, ← ih]
      rfl

end Markup

namespace Drawing

open Decimal (natOfDigits)
open Markup (Attributes Content Element Name plainName svgName)

-- ================================================================= kinds

/-- Whether an element of a drawing has a name. -/
def isKind (base : String) (e : Element) : Bool := e.tag = svgName base

/-- Whether an element is a group with a role. -/
def hasRole (role : String) (e : Element) : Bool :=
  isKind "g" e && e.attrs.lookup (plainName "class") = some role.toList

theorem svgName_inj {a b : String} : svgName a = svgName b ↔ a = b := by
  unfold svgName
  rw [Name.mk.injEq, String.toList_inj]
  exact and_iff_right rfl

section names

variable {base role : String}

@[simp] theorem isKind_svg (base' : String) (attrs : Attributes) (es : List Element) :
    isKind base (svg base' attrs es) = decide (base' = base) := by
  rw [isKind, decide_eq_decide]
  exact svgName_inj

@[simp] theorem isKind_canvas (height : Nat) (es : List Element) :
    isKind base (canvas height es) = decide ("svg" = base) := isKind_svg ..

@[simp] theorem isKind_group (role : String) (es : List Element) :
    isKind base (group role es) = decide ("g" = base) := isKind_svg ..

@[simp] theorem isKind_namedGroup (id : Text) (role : String) (es : List Element) :
    isKind base (namedGroup id role es) = decide ("g" = base) := isKind_svg ..

@[simp] theorem isKind_rectangle (x y width height : Nat) :
    isKind base (rectangle x y width height) = decide ("rect" = base) := isKind_svg ..

@[simp] theorem isKind_labelBox (x y : Nat) (label : Text) (role : String) :
    isKind base (labelBox x y label role) = decide ("foreignObject" = base) := isKind_svg ..

@[simp] theorem Cell.isKind_markup (c : Cell) :
    isKind base c.markup = decide ("text" = base) := by
  rw [isKind, decide_eq_decide]
  exact svgName_inj

theorem hasRole_of_lookup {e : Element} {role' : String} (hg : isKind "g" e = true)
    (hlookup : e.attrs.lookup (plainName "class") = some role'.toList) :
    hasRole role e = decide (role' = role) := by
  rw [hasRole, hg, hlookup, Bool.true_and, decide_eq_decide, Option.some_inj]
  exact String.toList_inj

@[simp] theorem hasRole_group (role' : String) (es : List Element) :
    hasRole role (group role' es) = decide (role' = role) :=
  hasRole_of_lookup (isKind_group ..) rfl

@[simp] theorem hasRole_namedGroup (id : Text) (role' : String) (es : List Element) :
    hasRole role (namedGroup id role' es) = decide (role' = role) :=
  hasRole_of_lookup (isKind_namedGroup ..) rfl

theorem hasRole_eq_false {e : Element} (h : isKind "g" e = false) : hasRole role e = false := by
  rw [hasRole, h, Bool.false_and]

end names

theorem elements_svg (base : String) (attrs : Attributes) (es : List Element) :
    (svg base attrs es).elements = svg base attrs es :: es.flatMap Element.elements := by
  rw [Element.elements, svg, Content.elements_ofElements]

/-- What is picked from an element that is not picked itself comes from its
parts. -/
theorem filter_elements_svg {p : Element → Bool} {base : String} {attrs : Attributes}
    {es : List Element} (h : p (svg base attrs es) = false) :
    (svg base attrs es).elements.filter p = es.flatMap fun e => e.elements.filter p := by
  rw [elements_svg, List.filter_cons_of_neg (by simp [h]), List.filter_flatMap]

-- =============================================================== extents

/-- The number that a text spells in digits. -/
def readNat? (t : Text) : Option Nat :=
  if t ≠ [] && t.all Char.isDigit then some (natOfDigits t) else none

/-- The number that an attribute holds. -/
def number? (e : Element) (name : String) : Option Nat :=
  (e.attrs.lookup (plainName name)).bind readNat?

/-- The extent of a line from one point to another. -/
def courseExtent? (t : Text) : Option Extent :=
  match t.splitOn ' ' with
  | [['M'], _, y, ['L'], _, z] => do
    let y ← readNat? y
    let z ← readNat? z
    return { top := min y z, bottom := max y z }
  | _ => none

/-- The names of what takes up height in a drawing. -/
def shapeNames : List String := ["rect", "foreignObject", "text", "path"]

/-- The extent of a shape. -/
def extent? (e : Element) : Option Extent :=
  if isKind "rect" e || isKind "foreignObject" e then do
    let top ← number? e "y"
    let height ← number? e "height"
    return Extent.ofHeight top height
  else if isKind "text" e then (number? e "y").map Extent.line
  else if isKind "path" e then (e.attrs.lookup (plainName "d")).bind courseExtent?
  else none

theorem isDigit_of_mem_ofNat {n : Nat} {c : Char} (hc : c ∈ Text.ofNat n) :
    c.isDigit = true :=
  Nat.isDigit_of_mem_toDigits (by decide) (by decide) hc

/-- A number is read as it is written. -/
theorem readNat?_ofNat (n : Nat) : readNat? (Text.ofNat n) = some n := by
  have hne : Text.ofNat n ≠ [] := Nat.toDigits_ne_nil
  have hdigits : (Text.ofNat n).all Char.isDigit = true :=
    List.all_eq_true.2 fun c hc => isDigit_of_mem_ofNat hc
  have hvalue : natOfDigits (Text.ofNat n) = n := Nat.ofDigitChars_ten_toDigits
  rw [readNat?, hdigits, hvalue]
  simp [hne]

theorem number?_of_lookup {e : Element} {name : String} {n : Nat}
    (h : e.attrs.lookup (plainName name) = some (Text.ofNat n)) : number? e name = some n := by
  rw [number?, h, Option.bind_some, readNat?_ofNat]

theorem extent?_rectangle (x y width height : Nat) :
    extent? (rectangle x y width height) = some (Extent.ofHeight y height) := by
  have hy : number? (rectangle x y width height) "y" = some y := number?_of_lookup rfl
  have hheight : number? (rectangle x y width height) "height" = some height :=
    number?_of_lookup rfl
  simp [extent?, hy, hheight]

theorem extent?_labelBox (x y : Nat) (label : Text) (role : String) :
    extent? (labelBox x y label role) = some (Extent.ofHeight y lineHeight) := by
  have hy : number? (labelBox x y label role) "y" = some y := number?_of_lookup rfl
  have hheight : number? (labelBox x y label role) "height" = some lineHeight :=
    number?_of_lookup rfl
  simp [extent?, hy, hheight]

theorem Cell.extent?_markup (c : Cell) : extent? c.markup = some (Extent.line c.y) := by
  have hy : number? c.markup "y" = some c.y := number?_of_lookup rfl
  simp [extent?, hy]

/-- The path of a relationship in a drawing. -/
abbrev PlacedRelation.path (p : PlacedRelation) : Element :=
  svg "path" [attr "d" p.course, attr "data-cardinality" p.relation.op.spelling] []

theorem PlacedRelation.splitOn_course (p : PlacedRelation) :
    p.course.splitOn ' '
      = [['M'], ['4', '1', '0'], Text.ofNat p.y, ['L'], ['5', '0', '0'], Text.ofNat p.y] := by
  have hdigits : ' ' ∉ Text.ofNat p.y := by
    intro hmem
    exact absurd (isDigit_of_mem_ofNat hmem) (by decide)
  unfold PlacedRelation.course
  generalize Text.ofNat p.y = y at hdigits
  have hcourse : "M 410 ".toList ++ y ++ " L 500 ".toList ++ y
      = [' '].intercalate [['M'], ['4', '1', '0'], y, ['L'], ['5', '0', '0'], y] := by
    simp [List.intercalate, List.intersperse]
  rw [hcourse]
  refine List.splitOn_intercalate _ ?_ (by simp)
  simp [hdigits]

theorem PlacedRelation.extent?_path (p : PlacedRelation) :
    extent? p.path = some (Extent.line p.y) := by
  have hd : p.path.attrs.lookup (plainName "d") = some p.course := rfl
  simp [extent?, hd, courseExtent?, p.splitOn_course, readNat?_ofNat, Extent.line]

-- ================================================================= parts

theorem Cell.flatMap_elements (cs : List Cell) :
    (cs.map Cell.markup).flatMap Element.elements = cs.map Cell.markup := by
  rw [List.flatMap_map, List.map_eq_flatMap]
  rfl

/-- The rectangle of an entity in a drawing. -/
abbrev EntityBox.rect (b : EntityBox) : Element := rectangle 10 b.top 400 b.height

/-- The rectangle of a node in a drawing. -/
abbrev PlacedNode.rect (p : PlacedNode) : Element :=
  rectangle 10 p.y (nodeWidth p.node.label) lineHeight

/-- The box of a node's label. -/
abbrev PlacedNode.labelBox (p : PlacedNode) : Element :=
  Drawing.labelBox 20 p.y p.node.label "nodeLabel"

/-- The box of an edge's label. -/
abbrev PlacedEdge.labelBox (p : PlacedEdge) : Element :=
  Drawing.labelBox 200 p.y p.edge.label "edgeLabel"

/-- Whether an edge says anything. -/
def Edge.isLabelled (e : Edge) : Bool := !e.label.isEmpty

@[simp] theorem EntityBox.elements_markup (b : EntityBox) :
    b.markup.elements = b.markup :: b.rect :: b.cells.map Cell.markup := by
  unfold EntityBox.markup namedGroup
  rw [elements_svg, List.flatMap_cons, Cell.flatMap_elements]
  rfl

@[simp] theorem PlacedRelation.elements_markup (p : PlacedRelation) :
    p.markup.elements = p.markup :: p.path :: p.label.map Cell.markup := by
  unfold PlacedRelation.markup namedGroup
  rw [elements_svg, List.flatMap_cons, Cell.flatMap_elements]
  rfl

@[simp] theorem PlacedNode.elements_markup (p : PlacedNode) :
    p.markup.elements = p.markup :: p.rect :: p.labelBox.elements := by
  unfold PlacedNode.markup namedGroup
  rw [elements_svg, List.flatMap_cons, List.flatMap_singleton]
  rfl

@[simp] theorem PlacedEdge.elements_markup (p : PlacedEdge) :
    p.markup.elements
      = p.markup :: if p.edge.isLabelled then p.labelBox.elements else [] := by
  unfold PlacedEdge.markup namedGroup
  rw [elements_svg, List.flatMap_map]
  cases hlabel : p.edge.label.isEmpty with
  | false => simp [shown, Edge.isLabelled, PlacedEdge.labelBox, hlabel]
  | true => simp [shown, Edge.isLabelled, hlabel]

section names

variable {base role : String}

@[simp] theorem EntityBox.isKind_markup (b : EntityBox) :
    isKind base b.markup = decide ("g" = base) := isKind_namedGroup ..

@[simp] theorem EntityBox.hasRole_markup (b : EntityBox) :
    hasRole role b.markup = decide ("er entityBox" = role) := hasRole_namedGroup ..

@[simp] theorem PlacedRelation.isKind_markup (p : PlacedRelation) :
    isKind base p.markup = decide ("g" = base) := isKind_namedGroup ..

@[simp] theorem PlacedRelation.hasRole_markup (p : PlacedRelation) :
    hasRole role p.markup = decide ("er relationship" = role) := hasRole_namedGroup ..

@[simp] theorem PlacedNode.isKind_markup (p : PlacedNode) :
    isKind base p.markup = decide ("g" = base) := isKind_namedGroup ..

@[simp] theorem PlacedNode.hasRole_markup (p : PlacedNode) :
    hasRole role p.markup = decide ("node" = role) := hasRole_namedGroup ..

@[simp] theorem PlacedEdge.isKind_markup (p : PlacedEdge) :
    isKind base p.markup = decide ("g" = base) := isKind_namedGroup ..

@[simp] theorem PlacedEdge.hasRole_markup (p : PlacedEdge) :
    hasRole role p.markup = decide ("edgeLabel" = role) := hasRole_namedGroup ..

@[simp] theorem hasRole_rectangle (x y width height : Nat) :
    hasRole role (rectangle x y width height) = false := hasRole_eq_false (by simp)

@[simp] theorem PlacedRelation.hasRole_path (p : PlacedRelation) :
    hasRole role p.path = false := hasRole_eq_false (by simp)

@[simp] theorem Cell.filter_kind (cs : List Cell) :
    (cs.map Cell.markup).filter (isKind base)
      = if "text" = base then cs.map Cell.markup else [] := by
  by_cases hbase : "text" = base
  · simp [List.filter_map, Function.comp_def, hbase]
  · simp [List.filter_map, Function.comp_def, hbase]

@[simp] theorem Cell.filter_role (cs : List Cell) :
    (cs.map Cell.markup).filter (hasRole role) = [] :=
  List.filter_eq_nil_iff.2 fun e he => by
    obtain ⟨c, -, rfl⟩ := List.mem_map.1 he
    simp [hasRole_eq_false]

/-- What is in the box of a label is hypertext. -/
theorem space_of_mem_labelBox {x y : Nat} {label : Text} {e : Element}
    (he : e ∈ (labelBox x y label role).inner.elements) :
    e.tag.space = some Markup.xhtmlSpace := by
  rcases he with _ | ⟨_, _ | ⟨_, _ | ⟨_, he⟩⟩⟩
  · rfl
  · rfl
  · rfl
  · cases he

theorem isKind_of_xhtml {e : Element} (h : e.tag.space = some Markup.xhtmlSpace) :
    isKind base e = false := by
  rw [isKind, decide_eq_false_iff_not]
  intro htag
  rw [htag] at h
  exact absurd (Option.some_inj.1 h) (by decide)

@[simp] theorem filter_kind_labelBox (x y : Nat) (label : Text) (role : String) :
    (labelBox x y label role).elements.filter (isKind base)
      = if "foreignObject" = base then [labelBox x y label role] else [] := by
  have hinside : (labelBox x y label role).inner.elements.filter (isKind base) = [] :=
    List.filter_eq_nil_iff.2 fun e he => by simp [isKind_of_xhtml (space_of_mem_labelBox he)]
  rw [Element.elements, List.filter_cons, hinside]
  simp

@[simp] theorem filter_role_labelBox (x y : Nat) (label : Text) (role' : String) :
    (labelBox x y label role').elements.filter (hasRole role) = [] := by
  refine List.filter_eq_nil_iff.2 fun e he => ?_
  have hg : isKind "g" e = false := by
    rcases List.mem_cons.1 he with rfl | he
    · simp
    · exact isKind_of_xhtml (space_of_mem_labelBox he)
  simp [hasRole_eq_false hg]

end names

namespace ErLayout

variable (l : ErLayout)

/-- What is neither the canvas nor the group around everything is in the
group of an entity or a relationship. -/
theorem filter_elements {p : Element → Bool} (hcanvas : ∀ es, p (canvas l.height es) = false)
    (hgroup : ∀ es, p (group "er" es) = false) :
    l.markup.elements.filter p
      = l.boxes.flatMap (fun b => b.markup.elements.filter p)
        ++ l.relations.flatMap fun r => r.markup.elements.filter p := by
  unfold canvas at hcanvas
  unfold group at hgroup
  unfold ErLayout.markup canvas group
  rw [filter_elements_svg (hcanvas _), List.flatMap_singleton, filter_elements_svg (hgroup _),
    List.flatMap_append, List.flatMap_map, List.flatMap_map]

theorem rects : l.markup.elements.filter (isKind "rect") = l.boxes.map EntityBox.rect := by
  rw [l.filter_elements (by simp) (by simp), List.map_eq_flatMap]
  simp

theorem texts : l.markup.elements.filter (isKind "text") = l.cells.map Cell.markup := by
  rw [l.filter_elements (by simp) (by simp)]
  simp [ErLayout.cells, List.map_flatMap]

theorem paths :
    l.markup.elements.filter (isKind "path") = l.relations.map PlacedRelation.path := by
  rw [l.filter_elements (by simp) (by simp), List.map_eq_flatMap]
  simp

theorem labelBoxes : l.markup.elements.filter (isKind "foreignObject") = [] := by
  rw [l.filter_elements (by simp) (by simp)]
  simp

theorem entityGroups :
    l.markup.elements.filter (hasRole "er entityBox") = l.boxes.map EntityBox.markup := by
  rw [l.filter_elements (by simp [hasRole_eq_false]) (by simp), List.map_eq_flatMap]
  simp

theorem relationGroups :
    l.markup.elements.filter (hasRole "er relationship")
      = l.relations.map PlacedRelation.markup := by
  rw [l.filter_elements (by simp [hasRole_eq_false]) (by simp), List.map_eq_flatMap]
  simp

end ErLayout

theorem flatMap_ite {α β : Type} (p : α → Bool) (f : α → β) (as : List α) :
    (as.flatMap fun a => if p a then [f a] else []) = (as.filter p).map f := by
  induction as with
  | nil => rfl
  | cons a as ih =>
      rw [List.flatMap_cons, ih, List.filter_cons]
      split
      · rfl
      · rfl

namespace FlowLayout

variable (l : FlowLayout)

/-- The edges that say anything. -/
def labelled : List PlacedEdge := l.edges.filter (·.edge.isLabelled)

/-- What is neither the canvas nor a group around others is in the group of
a node or an edge. -/
theorem filter_elements {p : Element → Bool} (hcanvas : ∀ es, p (canvas l.height es) = false)
    (hgroup : ∀ role ∈ ["root", "nodes", "edgeLabels"], ∀ es, p (group role es) = false) :
    l.markup.elements.filter p
      = l.nodes.flatMap (fun n => n.markup.elements.filter p)
        ++ l.edges.flatMap fun e => e.markup.elements.filter p := by
  unfold canvas at hcanvas
  unfold group at hgroup
  unfold FlowLayout.markup canvas group
  rw [filter_elements_svg (hcanvas _), List.flatMap_singleton,
    filter_elements_svg (hgroup "root" (by simp) _), List.flatMap_cons, List.flatMap_singleton,
    filter_elements_svg (hgroup "nodes" (by simp) _),
    filter_elements_svg (hgroup "edgeLabels" (by simp) _), List.flatMap_map, List.flatMap_map]

theorem rects : l.markup.elements.filter (isKind "rect") = l.nodes.map PlacedNode.rect := by
  rw [l.filter_elements (by simp) (by simp), List.map_eq_flatMap]
  simp [apply_ite]

theorem labelBoxes :
    l.markup.elements.filter (isKind "foreignObject")
      = l.nodes.map PlacedNode.labelBox ++ l.labelled.map PlacedEdge.labelBox := by
  rw [l.filter_elements (by simp) (by simp), List.map_eq_flatMap, labelled, ← flatMap_ite]
  simp [apply_ite]

theorem texts : l.markup.elements.filter (isKind "text") = [] := by
  rw [l.filter_elements (by simp) (by simp)]
  simp [apply_ite]

theorem paths : l.markup.elements.filter (isKind "path") = [] := by
  rw [l.filter_elements (by simp) (by simp)]
  simp [apply_ite]

theorem nodeGroups :
    l.markup.elements.filter (hasRole "node") = l.nodes.map PlacedNode.markup := by
  rw [l.filter_elements (by simp [hasRole_eq_false]) (by simp), List.map_eq_flatMap]
  simp [apply_ite]

end FlowLayout

end Drawing

end FreeLabel
