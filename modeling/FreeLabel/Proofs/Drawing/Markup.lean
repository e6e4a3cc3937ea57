/-
What a layout is written as: a drawing whose labels are visited once and
hold all its text.

# Attributes

Every attribute in a drawing has one of a few names, and its value is a
number, a role or a text with an identifier in it. `plainAttributes`
therefore takes the names of a tag's attributes, which it checks by
computing, and asks only of the values that they be plain.

# Elements

Elements are put together of elements, so `Part` and `Lettered` go through
`svg` and `group` once (`part_svg`, `lettered_svg`), and what is left to
say of a layout is which of its texts have to be plain: the names in it,
and the roles of its cells. Its labels are its cells, in their order.
-/
import FreeLabel.Drawing.FlowLayout
import FreeLabel.Proofs.Markup.Drawings
import FreeLabel.Proofs.Restore.Labels
import FreeLabel.Proofs.Text.Chars

namespace FreeLabel

-- ========================================================= plain values

namespace Markup

theorem isPlainChar_of_isIdentChar {c : Char} (h : isIdentChar c = true) :
    isPlainChar c = true := by
  have hne := fun d => ne_of_kind (d := d) h
  have hescape : escapeValueChar c = [c] := by
    unfold escapeValueChar escapeTextChar
    split
    · exact absurd rfl (hne '"' (by decide))
    · exact absurd rfl (hne '\r' (by decide))
    · exact absurd rfl (hne '\n' (by decide))
    · exact absurd rfl (hne '\t' (by decide))
    · split
      · exact absurd rfl (hne '&' (by decide))
      · exact absurd rfl (hne '<' (by decide))
      · exact absurd rfl (hne '>' (by decide))
      · rfl
  have hxml : isXmlChar c = true := by
    have hrange := toNat_of_isIdentChar h
    have h₀ : 0x20 ≤ c.toNat := by omega
    unfold isXmlChar
    have h₁ : c.toNat ≠ 0xFFFE := by omega
    have h₂ : c.toNat ≠ 0xFFFF := by omega
    simp [h₀, h₁, h₂]
  rw [isPlainChar, hxml, hescape, beq_self_eq_true, Bool.true_and]

theorem isPlainValue_append {s t : Text} (hs : isPlainValue s = true)
    (ht : isPlainValue t = true) : isPlainValue (s ++ t) = true := by
  unfold isPlainValue at hs ht ⊢
  rw [List.all_append, hs, ht]
  rfl

theorem isPlainValue_of_ident {s : Text} (h : s.all isIdentChar = true) :
    isPlainValue s = true :=
  List.all_eq_true.2 fun c hc => isPlainChar_of_isIdentChar (List.all_eq_true.1 h c hc)

theorem isPlainValue_ofNat (n : Nat) : isPlainValue (Text.ofNat n) = true := by
  apply isPlainValue_of_ident
  rw [List.all_eq_true]
  intro c hc
  have hdigit : c.isDigit = true := Nat.isDigit_of_mem_toDigits (by decide) (by decide) hc
  rw [isIdentChar, Char.isAlphanum, hdigit, Bool.or_true, Bool.true_or]

/-- Whether attributes may have these names: words that declare nothing,
each once. -/
def plainNames (names : List String) : Bool :=
  (names.all fun n => isWord n.toList && n.toList != declarationWord)
    && decide (names.map String.toList).Nodup

private theorem base_of_mem_zipWith {names : List String} {values : List Text}
    {a : Name × Text}
    (h : a ∈ List.zipWith (fun n v => (plainName n, v)) names values) :
    a.1.base ∈ names.map String.toList := by
  induction names generalizing values with
  | nil => simp at h
  | cons n names ih =>
      cases values with
      | nil => simp at h
      | cons v values =>
          rw [List.zipWith_cons_cons] at h
          rcases List.mem_cons.1 h with rfl | h
          · exact List.mem_cons_self
          · exact List.mem_cons_of_mem _ (ih h)

/-- Attributes under such names are plain if their values are. -/
theorem plainAttributes (names : List String) (values : List Text)
    (hnames : plainNames names = true) (hvalues : ∀ v ∈ values, isPlainValue v = true) :
    PlainAttributes.Of (List.zipWith (fun n v => (plainName n, v)) names values) := by
  rw [plainNames, Bool.and_eq_true, decide_eq_true_eq] at hnames
  obtain ⟨hwords, hnodup⟩ := hnames
  induction names generalizing values with
  | nil => exact ⟨by simp, by simp⟩
  | cons n names ih =>
      cases values with
      | nil => exact ⟨by simp, by simp⟩
      | cons v values =>
          rw [List.all_cons, Bool.and_eq_true] at hwords
          rw [List.map_cons, List.nodup_cons] at hnodup
          obtain ⟨hplain, hrest⟩ := ih values
            (fun u hu => hvalues u (List.mem_cons_of_mem v hu)) hwords.2 hnodup.2
          rw [List.zipWith_cons_cons]
          constructor
          case plain =>
            intro a ha
            rcases List.mem_cons.1 ha with rfl | ha
            · rw [isPlainAttribute, hvalues v List.mem_cons_self, Bool.and_true]
              exact hwords.1
            · exact hplain a ha
          case nodup =>
            rw [List.map_cons, List.nodup_cons]
            refine ⟨?_, hrest⟩
            intro hmem
            obtain ⟨a, ha, hbase⟩ := List.mem_map.1 hmem
            have hname := base_of_mem_zipWith ha
            rw [hbase] at hname
            exact hnodup.1 hname

-- =============================================================== parts

/-- An element inside a drawing. -/
structure Element.Part (e : Element) : Prop where
  drawn : e.tag.isDrawn = true
  attrs : PlainAttributes.Of e.attrs
  inner : e.inner.Drawn

theorem Content.drawn_ofElements {es : List Element} (h : ∀ e ∈ es, e.Part) :
    (Content.ofElements es).Drawn := by
  induction es with
  | nil => trivial
  | cons e es ih =>
      have he := h e List.mem_cons_self
      exact ⟨he.drawn, he.attrs, he.inner, ih fun d hd => h d (List.mem_cons_of_mem e hd)⟩

/-- Whether all text in content is that of its labels. -/
def Content.LabelsOnly : Content → Prop
  | .text t => t = []
  | .element before tag _ inner after =>
    before = [] ∧ (inner.LabelsOnly ∨ isLabel tag = true ∧ ∃ t, inner = .text t)
      ∧ after.LabelsOnly

/-- Whether all text in an element is that of labels. -/
def Element.LabelsOnly (e : Element) : Prop := (Content.cons e (.text [])).LabelsOnly

theorem Content.labelsOnly_ofElements {es : List Element} (h : ∀ e ∈ es, e.LabelsOnly) :
    (Content.ofElements es).LabelsOnly := by
  induction es with
  | nil => rfl
  | cons e es ih =>
      obtain ⟨-, hinner, -⟩ := h e List.mem_cons_self
      exact ⟨rfl, hinner, ih fun d hd => h d (List.mem_cons_of_mem e hd)⟩

theorem Content.labelsOnly_mapTexts {g : Text → Text} (hg : g [] = []) {c : Content}
    (h : c.LabelsOnly) : (c.mapTexts g).LabelsOnly := by
  induction c with
  | text t =>
      obtain rfl : t = [] := h
      exact hg
  | element before tag attrs inner after ihInner ihAfter =>
      obtain ⟨rfl, hinner, hafter⟩ := h
      exact ⟨hg, hinner.imp ihInner fun ⟨htag, t, ht⟩ => ⟨htag, g t, by rw [ht]; rfl⟩,
        ihAfter hafter⟩

theorem Element.labelsOnly_mapTexts {g : Text → Text} (hg : g [] = []) {e : Element}
    (h : e.LabelsOnly) : (e.mapTexts g).LabelsOnly := by
  obtain ⟨-, hinner, -⟩ := Content.labelsOnly_mapTexts hg h
  exact ⟨rfl, hinner, rfl⟩

end Markup

namespace Drawing

open Markup (Attributes Content Element Label PlainAttributes isLabel isPlainValue
  isPlainValue_append isPlainValue_ofNat plainAttributes roleOf)
open Restore (Once OnceIn once_ofElements)

-- ========================================================= labels only

/-- Whether a document may hold what a label says. -/
def isXmlLabel (l : Label) : Bool := Markup.isXmlText l.text

/-- Content whose text is that of its labels can be read if these can. -/
theorem isXml_of_labelsOnly {c : Content} (h : c.LabelsOnly) (role : Text) :
    c.isXml = (c.labels role).all isXmlLabel := by
  induction c generalizing role with
  | text t =>
      obtain rfl : t = [] := h
      rfl
  | element before tag attrs inner after ihInner ihAfter =>
      obtain ⟨rfl, hinner, hafter⟩ := h
      rw [Content.isXml, Content.labels, List.all_append, List.all_append, ihAfter hafter role]
      rcases hinner with hinner | ⟨htag, t, rfl⟩
      · have hempty : ∀ t ∈ inner.whole, t = [] := by
          intro t ht
          cases inner with
          | text s =>
              obtain rfl : s = [] := hinner
              exact List.mem_singleton.1 ht
          | element => cases ht
        rw [ihInner hinner (roleOf attrs role)]
        congr 2
        refine (List.all_eq_true.2 fun l hl => ?_).symm
        split at hl
        next =>
          obtain ⟨t, ht, rfl⟩ := List.mem_map.1 hl
          rw [hempty t ht]
          rfl
        next => cases hl
      · rw [if_pos htag]
        simp [Content.whole, Content.labels, Content.isXml, isXmlLabel, Markup.isXmlText]

theorem isXml_inner {e : Element} (h : e.LabelsOnly) (role : Text) :
    e.inner.isXml = (e.labels role).all isXmlLabel := by
  unfold Element.labels
  rw [← isXml_of_labelsOnly h role]
  simp [Content.cons, Content.isXml, Markup.isXmlText]

-- =========================================================== containers

/-- An element inside `depth` foreign objects whose labels are visited once
and hold all its text. -/
structure Lettered (depth : Nat) (e : Element) : Prop where
  once : OnceIn depth e
  labelsOnly : e.LabelsOnly

section containers

variable {base : String} {attrs : Attributes} {es : List Element}

theorem part_svg (hbase : Markup.isWord base.toList = true)
    (hattrs : PlainAttributes.Of attrs) (hes : ∀ e ∈ es, e.Part) :
    (svg base attrs es).Part := by
  refine ⟨?_, hattrs, Content.drawn_ofElements hes⟩
  rw [Markup.Name.isDrawn]
  simp only [svg, Markup.svgName, decide_true, Bool.true_or, Bool.true_and]
  exact hbase

theorem lettered_svg {depth : Nat} (hbase : isLabel (Markup.svgName base) = false)
    (hes : ∀ e ∈ es, Lettered (Restore.depthInside depth (Markup.svgName base)) e) :
    Lettered depth (svg base attrs es) where
  once := by
    refine ⟨?_, once_ofElements fun e he => (hes e he).once, trivial⟩
    intro hlabel
    rw [show (svg base attrs es).tag = Markup.svgName base from rfl, hbase] at hlabel
    cases hlabel
  labelsOnly := ⟨rfl, .inl (Content.labelsOnly_ofElements fun e he => (hes e he).labelsOnly), rfl⟩

theorem labels_svg (hbase : isLabel (Markup.svgName base) = false) (role : Text) :
    (svg base attrs es).labels role = es.flatMap (Element.labels (roleOf attrs role)) := by
  have htag : isLabel (svg base attrs es).tag = false := hbase
  unfold Element.labels Content.cons
  rw [Content.labels, htag, if_neg (by simp), List.nil_append]
  rw [Content.labels, List.append_nil]
  exact Content.labels_ofElements _ es

end containers

theorem part_group {role : String} (hrole : isPlainValue role.toList = true)
    {es : List Element} (hes : ∀ e ∈ es, e.Part) : (group role es).Part :=
  part_svg (by decide) (plainAttributes ["class"] [role.toList] (by decide) (by simpa using hrole))
    hes

theorem part_namedGroup {id : Text} {role : String} (hid : isPlainValue id = true)
    (hrole : isPlainValue role.toList = true) {es : List Element}
    (hes : ∀ e ∈ es, e.Part) : (namedGroup id role es).Part :=
  part_svg (by decide)
    (plainAttributes ["id", "class"] [id, role.toList] (by decide) (by simp [hid, hrole])) hes

theorem lettered_group (role : String) {es : List Element} (hes : ∀ e ∈ es, Lettered 0 e) :
    Lettered 0 (group role es) := lettered_svg (by decide) hes

theorem lettered_namedGroup (id : Text) (role : String) {es : List Element}
    (hes : ∀ e ∈ es, Lettered 0 e) : Lettered 0 (namedGroup id role es) :=
  lettered_svg (by decide) hes

theorem part_rectangle (x y width height : Nat) : (rectangle x y width height).Part := by
  refine part_svg (by decide) (plainAttributes ["x", "y", "width", "height"]
    [Text.ofNat x, Text.ofNat y, Text.ofNat width, Text.ofNat height] (by decide) ?_) (by simp)
  simp [isPlainValue_ofNat]

theorem lettered_rectangle (x y width height : Nat) :
    Lettered 0 (rectangle x y width height) := lettered_svg (by decide) (by simp)

theorem labels_rectangle (x y width height : Nat) (role : Text) :
    (rectangle x y width height).labels role = [] := labels_svg (by decide) role

/-- A canvas is a drawing. -/
theorem drawn_canvas (height : Nat) {es : List Element} (hes : ∀ e ∈ es, e.Part) :
    (canvas height es).Drawn where
  space := rfl
  word := show Markup.isWord "svg".toList = true by decide
  attrs := by
    refine plainAttributes ["version", "width", "height"]
      ["1.1".toList, Text.ofNat 600, Text.ofNat height] (by decide) ?_
    simp only [List.mem_cons, List.not_mem_nil, or_false, forall_eq_or_imp, forall_eq,
      isPlainValue_ofNat, and_true]
    decide
  inner := Content.drawn_ofElements hes

-- =============================================================== cells

/-- What a cell says. -/
def Cell.shows (c : Cell) : Label := { role := c.role.toList, text := c.body }

theorem Cell.part_markup {c : Cell} (h : isPlainValue c.role.toList = true) :
    c.markup.Part where
  drawn := show (Markup.svgName "text").isDrawn = true by decide
  attrs := by
    refine plainAttributes ["x", "y", "class"]
      [Text.ofNat c.x, Text.ofNat c.y, c.role.toList] (by decide) ?_
    simp [isPlainValue_ofNat, h]
  inner := trivial

theorem Cell.lettered_markup (c : Cell) : Lettered 0 c.markup where
  once := ⟨fun _ => rfl, trivial, trivial⟩
  labelsOnly := by
    have htag : isLabel (Markup.svgName "text") = true := by decide
    exact ⟨rfl, .inr ⟨htag, c.body, rfl⟩, rfl⟩

theorem Cell.labels_markup (c : Cell) (role : Text) :
    c.markup.labels role = [c.shows] := by
  have htag : isLabel c.markup.tag = true := show isLabel (Markup.svgName "text") = true by
    decide
  have hrole : roleOf c.markup.attrs role = c.role.toList := rfl
  unfold Element.labels Content.cons
  rw [Content.labels, htag, if_pos rfl, hrole]
  rfl

-- ============================================= entity-relationship layouts

/-- What has to be plain in a layout: the names, and the roles of cells. -/
structure ErLayout.Plain (l : ErLayout) : Prop where
  names : ∀ b ∈ l.boxes, isPlainValue b.name = true
  roles : ∀ b ∈ l.boxes, ∀ c ∈ b.cells, isPlainValue c.role.toList = true
  ends : ∀ p ∈ l.relations,
    isPlainValue p.relation.left = true ∧ isPlainValue p.relation.right = true

/-- The cells of a layout, in the order in which they are drawn. -/
def ErLayout.cells (l : ErLayout) : List Cell :=
  l.boxes.flatMap EntityBox.cells ++ l.relations.flatMap PlacedRelation.label

theorem EntityBox.part_markup {b : EntityBox} (hname : isPlainValue b.name = true)
    (hroles : ∀ c ∈ b.cells, isPlainValue c.role.toList = true) : b.markup.Part := by
  refine part_namedGroup (isPlainValue_append (by decide) hname) (by decide) ?_
  intro e he
  rcases List.mem_cons.1 he with rfl | he
  · exact part_rectangle ..
  · obtain ⟨c, hc, rfl⟩ := List.mem_map.1 he
    exact Cell.part_markup (hroles c hc)

theorem EntityBox.lettered_markup (b : EntityBox) : Lettered 0 b.markup := by
  apply lettered_namedGroup
  intro e he
  rcases List.mem_cons.1 he with rfl | he
  · exact lettered_rectangle ..
  · obtain ⟨c, -, rfl⟩ := List.mem_map.1 he
    exact c.lettered_markup

theorem EntityBox.labels_markup (b : EntityBox) (role : Text) :
    b.markup.labels role = b.cells.map Cell.shows := by
  unfold EntityBox.markup namedGroup
  rw [labels_svg (by decide), List.flatMap_cons, labels_rectangle, List.nil_append,
    List.flatMap_map]
  simp only [Cell.labels_markup]
  exact List.map_eq_flatMap.symm

theorem isPlainValue_spelling (op : Er.Cardinality) : isPlainValue op.spelling = true := by
  obtain ⟨⟨leftMany, leftOptional⟩, dotted, ⟨rightMany, rightOptional⟩⟩ := op
  cases leftMany <;> cases leftOptional <;> cases dotted <;> cases rightMany <;>
    cases rightOptional <;> decide

theorem PlacedRelation.role_of_mem_label {p : PlacedRelation} {c : Cell}
    (hc : c ∈ p.label) : c.role = "er relationshipLabel" := by
  obtain ⟨body, -, rfl⟩ := List.mem_map.1 hc
  rfl

theorem PlacedRelation.part_markup {p : PlacedRelation}
    (hleft : isPlainValue p.relation.left = true)
    (hright : isPlainValue p.relation.right = true) : p.markup.Part := by
  have hname : isPlainValue
      ("rel-".toList ++ p.relation.left ++ ['-'] ++ p.relation.right) = true :=
    isPlainValue_append (isPlainValue_append (isPlainValue_append (by decide) hleft)
      (by decide)) hright
  have hcourse : isPlainValue p.course = true :=
    isPlainValue_append (isPlainValue_append (isPlainValue_append (by decide)
      (isPlainValue_ofNat _)) (by decide)) (isPlainValue_ofNat _)
  refine part_namedGroup hname (by decide) ?_
  intro e he
  rcases List.mem_cons.1 he with rfl | he
  · refine part_svg (by decide) (plainAttributes ["d", "data-cardinality"]
      [p.course, p.relation.op.spelling] (by decide) ?_) (by simp)
    simp [hcourse, isPlainValue_spelling]
  · obtain ⟨c, hc, rfl⟩ := List.mem_map.1 he
    apply Cell.part_markup
    rw [PlacedRelation.role_of_mem_label hc]
    decide

theorem PlacedRelation.lettered_markup (p : PlacedRelation) : Lettered 0 p.markup := by
  apply lettered_namedGroup
  intro e he
  rcases List.mem_cons.1 he with rfl | he
  · exact lettered_svg (by decide) (by simp)
  · obtain ⟨c, -, rfl⟩ := List.mem_map.1 he
    exact c.lettered_markup

theorem PlacedRelation.labels_markup (p : PlacedRelation) (role : Text) :
    p.markup.labels role = p.label.map Cell.shows := by
  unfold PlacedRelation.markup namedGroup
  rw [labels_svg (by decide), List.flatMap_cons, labels_svg (by decide), List.flatMap_nil,
    List.nil_append, List.flatMap_map]
  simp only [Cell.labels_markup]
  exact List.map_eq_flatMap.symm

namespace ErLayout

/-- A plain layout is written as a drawing. -/
theorem drawn_markup {l : ErLayout} (h : l.Plain) : l.markup.Drawn := by
  apply drawn_canvas
  intro e he
  obtain rfl := List.mem_singleton.1 he
  refine part_group (by decide) ?_
  intro e he
  rcases List.mem_append.1 he with he | he
  · obtain ⟨b, hb, rfl⟩ := List.mem_map.1 he
    exact EntityBox.part_markup (h.names b hb) (h.roles b hb)
  · obtain ⟨p, hp, rfl⟩ := List.mem_map.1 he
    exact PlacedRelation.part_markup (h.ends p hp).1 (h.ends p hp).2

theorem lettered_markup (l : ErLayout) : Lettered 0 l.markup := by
  apply lettered_svg (by decide)
  intro e he
  obtain rfl := List.mem_singleton.1 he
  apply lettered_group
  intro e he
  rcases List.mem_append.1 he with he | he
  · obtain ⟨b, -, rfl⟩ := List.mem_map.1 he
    exact b.lettered_markup
  · obtain ⟨p, -, rfl⟩ := List.mem_map.1 he
    exact p.lettered_markup

/-- The labels of a layout are what its cells say. -/
theorem labels_markup (l : ErLayout) (role : Text) :
    l.markup.labels role = l.cells.map Cell.shows := by
  unfold ErLayout.markup canvas group ErLayout.cells
  rw [labels_svg (by decide), List.flatMap_singleton, labels_svg (by decide),
    List.flatMap_append, List.flatMap_map, List.flatMap_map, List.map_append,
    List.map_flatMap, List.map_flatMap]
  simp only [EntityBox.labels_markup, PlacedRelation.labels_markup]

end ErLayout

-- =================================================== flowchart layouts

/-- What has to be plain in a layout: the names of nodes. -/
structure FlowLayout.Plain (l : FlowLayout) : Prop where
  nodes : ∀ p ∈ l.nodes, isPlainValue p.node.name = true
  edges : ∀ p ∈ l.edges,
    isPlainValue p.edge.source = true ∧ isPlainValue p.edge.target = true

/-- What a node says. -/
def PlacedNode.shows (p : PlacedNode) : Label :=
  { role := "nodeLabel".toList, text := p.node.label }

/-- What an edge says, if it says anything. -/
def PlacedEdge.shows (p : PlacedEdge) : List Label :=
  (shown (some p.edge.label)).map fun t => { role := "edgeLabel".toList, text := t }

theorem part_labelBox (x y : Nat) (label : Text) {role : String}
    (hrole : isPlainValue role.toList = true) : (labelBox x y label role).Part := by
  refine part_svg (by decide) (plainAttributes ["x", "y", "width", "height"]
    [Text.ofNat x, Text.ofNat y, Text.ofNat (labelWidth label), Text.ofNat lineHeight]
    (by decide) (by simp [isPlainValue_ofNat])) ?_
  intro e he
  obtain rfl := List.mem_singleton.1 he
  have hnone : PlainAttributes.Of [] := ⟨by simp, by simp⟩
  have hclass := plainAttributes ["class"] [role.toList] (by decide) (by simpa using hrole)
  have hdiv : (Markup.xhtmlName "div").isDrawn = true := by decide
  have hspan : (Markup.xhtmlName "span").isDrawn = true := by decide
  have hp : (Markup.xhtmlName "p").isDrawn = true := by decide
  exact ⟨hdiv, hnone, hspan, hclass, ⟨hp, hnone, trivial, trivial⟩, trivial⟩

theorem lettered_labelBox (x y : Nat) (label : Text) (role : String) :
    Lettered 0 (labelBox x y label role) := by
  apply lettered_svg (by decide)
  intro e he
  obtain rfl := List.mem_singleton.1 he
  have hdiv : ¬ isLabel (Markup.xhtmlName "div") = true := by decide
  have hspan : ¬ isLabel (Markup.xhtmlName "span") = true := by decide
  have hp : isLabel (Markup.xhtmlName "p") = true := by decide
  constructor
  case once =>
    refine ⟨fun h => absurd h hdiv, ⟨fun h => absurd h hspan, ?_, trivial⟩, trivial⟩
    exact ⟨fun _ => rfl, trivial, trivial⟩
  case labelsOnly =>
    exact ⟨rfl, .inl ⟨rfl, .inl ⟨rfl, .inr ⟨hp, label, rfl⟩, rfl⟩, rfl⟩, rfl⟩

theorem labels_labelBox (x y : Nat) (label : Text) (role : String) (around : Text) :
    (labelBox x y label role).labels around = [{ role := role.toList, text := label }] := by
  unfold labelBox
  rw [labels_svg (by decide), List.flatMap_singleton]
  rfl

theorem PlacedNode.labels_markup (p : PlacedNode) (role : Text) :
    p.markup.labels role = [p.shows] := by
  unfold PlacedNode.markup namedGroup
  rw [labels_svg (by decide), List.flatMap_cons, labels_rectangle, List.nil_append,
    List.flatMap_singleton, labels_labelBox]
  rfl

theorem PlacedEdge.labels_markup (p : PlacedEdge) (role : Text) :
    p.markup.labels role = p.shows := by
  unfold PlacedEdge.markup namedGroup PlacedEdge.shows
  rw [labels_svg (by decide), List.flatMap_map]
  simp only [labels_labelBox]
  exact List.map_eq_flatMap.symm

namespace FlowLayout

/-- A plain layout is written as a drawing. -/
theorem drawn_markup {l : FlowLayout} (h : l.Plain) : l.markup.Drawn := by
  apply drawn_canvas
  intro e he
  obtain rfl := List.mem_singleton.1 he
  refine part_group (by decide) ?_
  intro e he
  simp only [List.mem_cons, List.not_mem_nil, or_false] at he
  rcases he with rfl | rfl
  · refine part_group (by decide) ?_
    intro e he
    obtain ⟨p, hp, rfl⟩ := List.mem_map.1 he
    have hname : isPlainValue
        ("flowchart-".toList ++ p.node.name ++ ['-'] ++ Text.ofNat p.index) = true :=
      isPlainValue_append (isPlainValue_append (isPlainValue_append (by decide)
        (h.nodes p hp)) (by decide)) (isPlainValue_ofNat _)
    refine part_namedGroup hname (by decide) ?_
    intro e he
    simp only [List.mem_cons, List.not_mem_nil, or_false] at he
    rcases he with rfl | rfl
    · exact part_rectangle ..
    · exact part_labelBox _ _ _ (by decide)
  · refine part_group (by decide) ?_
    intro e he
    obtain ⟨p, hp, rfl⟩ := List.mem_map.1 he
    have hname : isPlainValue
        ("L-".toList ++ p.edge.source ++ ['-'] ++ p.edge.target) = true :=
      isPlainValue_append (isPlainValue_append (isPlainValue_append (by decide)
        (h.edges p hp).1) (by decide)) (h.edges p hp).2
    refine part_namedGroup hname (by decide) ?_
    intro e he
    obtain ⟨t, -, rfl⟩ := List.mem_map.1 he
    exact part_labelBox _ _ _ (by decide)

theorem lettered_markup (l : FlowLayout) : Lettered 0 l.markup := by
  apply lettered_svg (by decide)
  intro e he
  obtain rfl := List.mem_singleton.1 he
  apply lettered_group
  intro e he
  simp only [List.mem_cons, List.not_mem_nil, or_false] at he
  rcases he with rfl | rfl
  · apply lettered_group
    intro e he
    obtain ⟨p, -, rfl⟩ := List.mem_map.1 he
    apply lettered_namedGroup
    intro e he
    simp only [List.mem_cons, List.not_mem_nil, or_false] at he
    rcases he with rfl | rfl
    · exact lettered_rectangle ..
    · exact lettered_labelBox ..
  · apply lettered_group
    intro e he
    obtain ⟨p, -, rfl⟩ := List.mem_map.1 he
    apply lettered_namedGroup
    intro e he
    obtain ⟨t, -, rfl⟩ := List.mem_map.1 he
    exact lettered_labelBox ..

/-- The labels of a layout are what its nodes say, and then its edges. -/
theorem labels_markup (l : FlowLayout) (role : Text) :
    l.markup.labels role = l.nodes.map PlacedNode.shows ++ l.edges.flatMap PlacedEdge.shows := by
  unfold FlowLayout.markup canvas group
  rw [labels_svg (by decide), List.flatMap_singleton, labels_svg (by decide),
    List.flatMap_cons, List.flatMap_singleton, labels_svg (by decide),
    labels_svg (by decide), List.flatMap_map, List.flatMap_map]
  simp only [PlacedNode.labels_markup, PlacedEdge.labels_markup]
  congr 1
  exact List.map_eq_flatMap.symm

end FlowLayout

end Drawing

end FreeLabel
