/-
Which texts of a drawing restoration leaves as they are.

# Two kinds of text

Some texts in a drawing are identifiers that the pass put there, and these
are to be replaced: the names of entities and of their attributes. All
others are the source's own: the labels of a flowchart, and of an
entity-relationship diagram the types, keys, remarks and labels of
relationships. Restoration does not tell the two apart. It scans every
text for every identifier of the pass.

# The condition

So a text of the source's own survives exactly if the scan makes nothing
else of it: `Scanned l t t`. `flowLabels_survive_iff` and
`dataCells_survive_iff` state this of all such texts in a drawing at once
and of each by itself; and they say what stands in the place of a text
that does not survive. It is enough that each identifier in a text stands
for itself (`Scanned.of_self`). Diagrams in which the condition fails are
given behind each of the two.
-/
import FreeLabel.Proofs.Drawing.Shown
import FreeLabel.Proofs.Pass

namespace FreeLabel

open Markup (Element Label)
open Naming (Legend)
open Restore (Scanned)
open Text (normalizeLineEnds)

-- ================================================================ texts

/-- Whether a label's role is one of some roles. -/
def hasRole (roles : List String) (l : Label) : Bool :=
  (roles.map String.toList).contains l.role

/-- The texts of an element's labels in some roles, in document order. -/
def Markup.Element.texts (roles : List String) (e : Element) : List Text :=
  ((e.labels []).filter (hasRole roles)).map Label.text

/-- The roles of the labels in a flowchart. -/
def flowRoles : List String := ["nodeLabel", "edgeLabel"]

/-- The texts of the labels in a flowchart: those of its nodes, and then
those of the edges that have one. -/
def Drawing.FlowDrawing.texts (d : FlowDrawing) : List Text :=
  d.nodes.map Node.label ++ d.edges.flatMap fun e => shown (some e.label)

/-- The roles of the cells in an entity-relationship drawing that show no
names: types stand in the column behind that of the names. -/
def dataRoles : List String :=
  ["er attributeBoxOdd attribute-name", "er attributeBoxOdd attribute-keys",
    "er attributeBoxOdd attribute-comment", "er relationshipLabel"]

/-- The texts in an entity-relationship diagram that are no names: the
type, key and remark of each row, and then the labels of relationships. -/
def Drawing.ErDrawing.data (d : ErDrawing) : List Text :=
  (d.entities.flatMap fun e => e.rows.flatMap fun row =>
      row.second :: (shown row.key ++ shown row.comment)) ++
    d.relations.flatMap fun r => shown (some r.label)

/-- Of a text in which each identifier stands for itself, the scan makes
the text. -/
theorem Restore.Scanned.of_self {l : Legend} (hne : [] ∉ l.ids) {t : Text}
    (h : ∀ id ∈ l.ids, id <:+: t → l.get? id = some id) : Scanned l t t :=
  (Legend.substitute_eq_iff hne).1 (Legend.substitute_eq_self hne h)

/-- Texts in which no identifier occurs stay as they are. -/
theorem Restore.Scanned.of_unmentioned {l : Legend} (hne : [] ∉ l.ids) {ts : List Text}
    (h : ∀ t ∈ ts, ∀ id ∈ l.ids, ¬ id <:+: t) : ∀ t ∈ ts, Scanned l t t :=
  fun t ht => .of_self hne fun id hid hoccurs => absurd hoccurs (h t ht id hid)

-- ===================================================== labels by role

/-- Changing the texts of labels changes no role. -/
theorem filter_map_label (roles : List String) (g : Text → Text) (ls : List Label) :
    (((ls.map (Label.map g)).filter (hasRole roles)).map Label.text)
      = ((ls.filter (hasRole roles)).map Label.text).map g := by
  rw [List.filter_map, List.map_map, List.map_map]
  rfl

/-- Texts with a role, if it is among some roles. -/
def ofRole (roles : List String) (role : String) (ts : List Text) : List Text :=
  if (roles.map String.toList).contains role.toList then ts else []

/-- Labels of one role are kept together or dropped together. -/
theorem texts_ofRole (roles : List String) (role : String) (ts : List Text) :
    (((ts.map fun t => ({ role := role.toList, text := t } : Label)).filter
        (hasRole roles)).map Label.text) = ofRole roles role ts := by
  have hrole : ∀ t ∈ ts, (hasRole roles ∘ fun t => ({ role := role.toList, text := t } : Label)) t
      = (roles.map String.toList).contains role.toList := fun _ _ => rfl
  rw [List.filter_map, ofRole]
  by_cases h : (roles.map String.toList).contains role.toList = true
  · rw [if_pos h, List.filter_eq_self.2 fun t ht => (hrole t ht).trans h, List.map_map]
    exact List.map_id ts
  · rw [if_neg h, List.filter_eq_nil_iff.2 fun t ht => hrole t ht ▸ h]
    rfl

/-- The texts of a flowchart's labels in some roles. -/
theorem texts_flow (roles : List String) (d : Drawing.FlowDrawing) :
    ((d.labels.filter (hasRole roles)).map Label.text)
      = ofRole roles "nodeLabel" (d.nodes.map Drawing.Node.label)
        ++ d.edges.flatMap fun e => ofRole roles "edgeLabel" (Drawing.shown (some e.label)) := by
  have hnodes : d.nodes.map (fun n => ({ role := "nodeLabel".toList, text := n.label } : Label))
      = (d.nodes.map Drawing.Node.label).map fun t =>
          ({ role := "nodeLabel".toList, text := t } : Label) := by
    rw [List.map_map]
    rfl
  unfold Drawing.FlowDrawing.labels
  rw [List.filter_append, List.map_append, hnodes, texts_ofRole, List.filter_flatMap,
    List.map_flatMap]
  simp only [texts_ofRole]

theorem texts_flowRoles (d : Drawing.FlowDrawing) :
    ((d.labels.filter (hasRole flowRoles)).map Label.text) = d.texts := by
  have hnode : (flowRoles.map String.toList).contains "nodeLabel".toList = true := by decide
  have hedge : (flowRoles.map String.toList).contains "edgeLabel".toList = true := by decide
  rw [texts_flow]
  simp only [ofRole, hnode, hedge, if_true]
  rfl

/-- The texts of a row's labels in some roles. -/
theorem texts_row (roles : List String) (row : Drawing.Row) :
    ((row.labels.filter (hasRole roles)).map Label.text)
      = ofRole roles "er attributeBoxOdd attribute-type" [row.first]
        ++ ofRole roles "er attributeBoxOdd attribute-name" [row.second]
        ++ ofRole roles "er attributeBoxOdd attribute-keys" (Drawing.shown row.key)
        ++ ofRole roles "er attributeBoxOdd attribute-comment" (Drawing.shown row.comment) := by
  have hcells : row.labels
      = [row.first].map (Drawing.rowLabel "attribute-type")
        ++ [row.second].map (Drawing.rowLabel "attribute-name")
        ++ (Drawing.shown row.key).map (Drawing.rowLabel "attribute-keys")
        ++ (Drawing.shown row.comment).map (Drawing.rowLabel "attribute-comment") := rfl
  have hcell : ∀ (role : String) (ts : List Text),
      (((ts.map (Drawing.rowLabel role)).filter (hasRole roles)).map Label.text)
        = ofRole roles ("er attributeBoxOdd " ++ role) ts :=
    fun role ts => texts_ofRole roles _ ts
  rw [hcells]
  simp only [List.filter_append, List.map_append, hcell]
  rfl

/-- The texts of an entity-relationship diagram's labels in some roles. -/
theorem texts_er (roles : List String) (d : Drawing.ErDrawing) :
    ((d.labels.filter (hasRole roles)).map Label.text)
      = (d.entities.flatMap fun e =>
          ofRole roles "er entityLabel" [e.name] ++ e.rows.flatMap fun row =>
            (row.labels.filter (hasRole roles)).map Label.text)
        ++ d.relations.flatMap fun r =>
            ofRole roles "er relationshipLabel" (Drawing.shown (some r.label)) := by
  have hentity : ∀ e : Drawing.Entity,
      ((e.labels.filter (hasRole roles)).map Label.text)
        = ofRole roles "er entityLabel" [e.name] ++ e.rows.flatMap fun row =>
            (row.labels.filter (hasRole roles)).map Label.text := by
    intro e
    rw [← texts_ofRole, Drawing.Entity.labels, ← List.singleton_append, List.filter_append,
      List.map_append, List.filter_flatMap, List.map_flatMap]
    rfl
  unfold Drawing.ErDrawing.labels Drawing.Relation.labels
  rw [List.filter_append, List.filter_flatMap, List.filter_flatMap, List.map_append,
    List.map_flatMap, List.map_flatMap]
  simp only [hentity, texts_ofRole]

theorem texts_dataRoles (d : Drawing.ErDrawing) :
    ((d.labels.filter (hasRole dataRoles)).map Label.text) = d.data := by
  rw [texts_er]
  simp only [texts_row]
  rfl

-- ============================================================= diagrams

/-- What is drawn for a diagram whose labels a document may hold. -/
theorem exists_drawn (diagram : Text) (labels : List Label)
    (hlabels : (Drawing.labelsAs diagram (Drawing.modeOf diagram)).toOption = some labels)
    (hxml : labels.all Drawing.isXmlLabel = true) :
    ∃ drawing element, draw diagram = .ok drawing ∧ readDrawing drawing = .ok element
      ∧ element.labels [] = labels.map (Label.map normalizeLineEnds) := by
  have hok : Drawing.labelsAs diagram (Drawing.modeOf diagram) = .ok labels := by
    revert hlabels
    cases Drawing.labelsAs diagram (Drawing.modeOf diagram) <;> simp [Except.toOption]
  obtain ⟨drawing, hdraw⟩ := Drawing.exists_draw hok
  obtain ⟨element, hread⟩ := (Drawing.exists_readDrawing hdraw hok).2 hxml
  obtain ⟨labels', hlabels', heq, -⟩ := Drawing.labels_of_draw hdraw hread .empty false []
  rw [hok] at hlabels'
  cases hlabels'
  exact ⟨drawing, element, hdraw, hread, heq⟩

variable {source : Text} {strict : Bool} {padding : Int} {compiled : Compiled}
  {drawing : Text} {element : Element}

theorem nil_not_mem_ids (hcompile : compile source strict padding = .ok compiled) :
    [] ∉ compiled.legend.ids := by
  intro hmem
  have := isIdentifier_of_compile hcompile hmem
  cases this

/-- What is drawn for a source, if its diagram, its legend and the labels of
its drawing are known. -/
theorem exists_drawn_source (source code : Text) (mode : Mode) (entries : List (Text × Text))
    (labels : List Label) (roles : List String)
    (hcompile : ((compile source false 2).toOption.map fun c => (c.mode, c.code, c.legend.entries))
      = some (mode, code, entries))
    (hlabels : (Drawing.labelsAs code (Drawing.modeOf code)).toOption = some labels)
    (hxml : labels.all Drawing.isXmlLabel = true) :
    ∃ compiled drawing element, compile source false 2 = .ok compiled ∧ compiled.mode = mode
      ∧ compiled.legend.entries = entries
      ∧ draw compiled.code = .ok drawing ∧ readDrawing drawing = .ok element
      ∧ element.texts roles
        = ((labels.map (Label.map normalizeLineEnds)).filter (hasRole roles)).map Label.text := by
  obtain ⟨compiled, hcompiled, hmode, rfl, hentries⟩ :=
    exists_compiled source code mode entries hcompile
  obtain ⟨drawing, element, hdraw, hread, heq⟩ := exists_drawn _ labels hlabels hxml
  refine ⟨compiled, drawing, element, hcompiled, hmode, hentries, hdraw, hread, ?_⟩
  rw [Markup.Element.texts, heq]

/-- Names are put into each text once. -/
theorem texts_restore {diagram : Text} (hdraw : draw diagram = .ok drawing)
    (hread : readDrawing drawing = .ok element) (l : Legend) (nowrap : Bool)
    (roles : List String) :
    (restore l nowrap element).texts roles = (element.texts roles).map l.substitute := by
  obtain ⟨_, -, -, hrestore⟩ := Drawing.labels_of_draw hdraw hread l nowrap []
  unfold Markup.Element.texts
  rw [hrestore, List.filter_map, List.map_map, List.map_map]
  rfl

/-- Texts survive exactly if the scan makes nothing else of them. -/
theorem texts_survive_iff (hcompile : compile source strict padding = .ok compiled)
    (hdraw : draw compiled.code = .ok drawing) (hread : readDrawing drawing = .ok element)
    (nowrap : Bool) (roles : List String) :
    ((restore compiled.legend nowrap element).texts roles = element.texts roles
        ↔ ∀ t ∈ element.texts roles, Scanned compiled.legend t t)
      ∧ ∀ (i : Nat) (t : Text), (element.texts roles)[i]? = some t →
          ∃ t', ((restore compiled.legend nowrap element).texts roles)[i]? = some t'
            ∧ Scanned compiled.legend t t'
            ∧ (t' = t ↔ Scanned compiled.legend t t) := by
  have hne := nil_not_mem_ids hcompile
  rw [texts_restore hdraw hread compiled.legend nowrap roles]
  constructor
  · rw [← List.map_id (element.texts roles), List.map_map, List.map_inj_left]
    simp only [List.map_id]
    exact forall₂_congr fun t _ => Legend.substitute_eq_iff hne
  · intro i t ht
    refine ⟨compiled.legend.substitute t, by rw [List.getElem?_map, ht]; rfl,
      (Legend.substitute_eq_iff hne).1 rfl, Legend.substitute_eq_iff hne⟩

-- =========================================================== flowcharts

/-- The labels that are read in a drawing of a flowchart are those of the
flowchart, and restoration leaves all of them as they are if and only if
the scan makes nothing else of any; by itself, each reads what the scan
makes of it. This holds whatever the source is, and of labels that the
source spells out as well as of those that are a node's bare name. -/
theorem flowLabels_survive_iff (hcompile : compile source strict padding = .ok compiled)
    (hdraw : draw compiled.code = .ok drawing) (hread : readDrawing drawing = .ok element)
    (nowrap : Bool) :
    (Drawing.modeOf compiled.code = .flowchart →
        ∃ d, Drawing.FlowDrawing.ofDiagram compiled.code = .ok d
          ∧ element.texts flowRoles = d.texts.map normalizeLineEnds)
      ∧ ((restore compiled.legend nowrap element).texts flowRoles = element.texts flowRoles
        ↔ ∀ t ∈ element.texts flowRoles, Scanned compiled.legend t t)
      ∧ ∀ (i : Nat) (t : Text), (element.texts flowRoles)[i]? = some t →
          ∃ t', ((restore compiled.legend nowrap element).texts flowRoles)[i]? = some t'
            ∧ Scanned compiled.legend t t'
            ∧ (t' = t ↔ Scanned compiled.legend t t) := by
  refine ⟨?_, texts_survive_iff hcompile hdraw hread nowrap flowRoles⟩
  intro hmode
  obtain ⟨labels, hlabels, heq, -⟩ :=
    Drawing.labels_of_draw hdraw hread compiled.legend nowrap []
  rw [hmode, Drawing.labelsAs] at hlabels
  cases hd : Drawing.FlowDrawing.ofDiagram compiled.code with
  | error why =>
      rw [hd] at hlabels
      cases hlabels
  | ok d =>
      rw [hd] at hlabels
      cases hlabels
      refine ⟨d, rfl, ?_⟩
      rw [Markup.Element.texts, heq, filter_map_label, texts_flowRoles]

/-- Labels survive in which no identifier occurs. -/
theorem flowLabels_survive_unmentioned :
    ∃ compiled drawing element,
      compile "flowchart TD\n\"Größe\" --> \"Maß\"".toList false 2 = .ok compiled
        ∧ draw compiled.code = .ok drawing ∧ readDrawing drawing = .ok element
        ∧ element.texts flowRoles = ["Größe".toList, "Maß".toList]
        ∧ (restore compiled.legend false element).texts flowRoles
            = element.texts flowRoles := by
  obtain ⟨compiled, drawing, element, hcompile, -, hentries, hdraw, hread, htexts⟩ :=
    exists_drawn_source "flowchart TD\n\"Größe\" --> \"Maß\"".toList
      "flowchart TD\nGroesse[\"Größe\"] --> Mass[\"Maß\"]".toList .flowchart
      [("Groesse".toList, "Größe".toList), ("Mass".toList, "Maß".toList)]
      [{ role := "nodeLabel".toList, text := "Größe".toList },
        { role := "nodeLabel".toList, text := "Maß".toList }] flowRoles
      (by decide +kernel) (by decide +kernel) (by decide +kernel)
  have hshown : element.texts flowRoles = ["Größe".toList, "Maß".toList] := by
    rw [htexts]
    decide +kernel
  obtain ⟨-, hiff, -⟩ := flowLabels_survive_iff hcompile hdraw hread false
  refine ⟨compiled, drawing, element, hcompile, hdraw, hread, hshown, hiff.2 ?_⟩
  refine Scanned.of_unmentioned (nil_not_mem_ids hcompile) ?_
  rw [hshown, Legend.ids, hentries]
  decide +kernel

/-- A label that is the identifier of another does not survive: the source
says `ae`, the restored drawing `ä`. -/
theorem flowLabel_rewritten :
    ∃ compiled drawing element,
      compile "flowchart TD\n\"ä\" --> \"ae\"".toList false 2 = .ok compiled
        ∧ compiled.mode = .flowchart
        ∧ draw compiled.code = .ok drawing ∧ readDrawing drawing = .ok element
        ∧ element.texts flowRoles = ["ä".toList, "ae".toList]
        ∧ (restore compiled.legend false element).texts flowRoles
            = ["ä".toList, "ä".toList] := by
  obtain ⟨compiled, drawing, element, hcompile, hmode, hentries, hdraw, hread, htexts⟩ :=
    exists_drawn_source "flowchart TD\n\"ä\" --> \"ae\"".toList
      "flowchart TD\nae[\"ä\"] --> ae2[\"ae\"]".toList .flowchart
      [("ae".toList, "ä".toList), ("ae2".toList, "ae".toList)]
      [{ role := "nodeLabel".toList, text := "ä".toList },
        { role := "nodeLabel".toList, text := "ae".toList }] flowRoles
      (by decide +kernel) (by decide +kernel) (by decide +kernel)
  have hshown : element.texts flowRoles = ["ä".toList, "ae".toList] := by
    rw [htexts]
    decide +kernel
  have hheld : compiled.legend.get? "ae".toList = some "ä".toList := by
    rw [Legend.get?, hentries]
    decide +kernel
  have hne := nil_not_mem_ids hcompile
  have hchanged := Legend.substitute_id hne hheld
  have hkept : compiled.legend.substitute "ä".toList = "ä".toList := by
    have hnone : ∀ id ∈ ["ae".toList, "ae2".toList], ¬ id <:+: "ä".toList := by
      decide +kernel
    refine Legend.substitute_eq_self hne fun id hid hoccurs => ?_
    rw [Legend.ids, hentries] at hid
    exact absurd hoccurs (hnone id hid)
  refine ⟨compiled, drawing, element, hcompile, hmode, hdraw, hread, hshown, ?_⟩
  rw [texts_restore hdraw hread, hshown, List.map_cons, List.map_cons, hkept, hchanged]
  rfl

-- ====================================== entity-relationship diagrams

/-- The cells of types, keys, remarks and relationship labels that are read
in a drawing are those of the diagram, and restoration leaves all of them
as they are if and only if the scan makes nothing else of any; by itself,
each reads what the scan makes of it. -/
theorem dataCells_survive_iff (hcompile : compile source strict padding = .ok compiled)
    (hdraw : draw compiled.code = .ok drawing) (hread : readDrawing drawing = .ok element)
    (nowrap : Bool) :
    (Drawing.modeOf compiled.code = .er →
        ∃ d, Drawing.ErDrawing.ofDiagram compiled.code = .ok d
          ∧ element.texts dataRoles = d.data.map normalizeLineEnds)
      ∧ ((restore compiled.legend nowrap element).texts dataRoles = element.texts dataRoles
        ↔ ∀ t ∈ element.texts dataRoles, Scanned compiled.legend t t)
      ∧ ∀ (i : Nat) (t : Text), (element.texts dataRoles)[i]? = some t →
          ∃ t', ((restore compiled.legend nowrap element).texts dataRoles)[i]? = some t'
            ∧ Scanned compiled.legend t t'
            ∧ (t' = t ↔ Scanned compiled.legend t t) := by
  refine ⟨?_, texts_survive_iff hcompile hdraw hread nowrap dataRoles⟩
  intro hmode
  obtain ⟨labels, hlabels, heq, -⟩ :=
    Drawing.labels_of_draw hdraw hread compiled.legend nowrap []
  rw [hmode, Drawing.labelsAs] at hlabels
  cases hd : Drawing.ErDrawing.ofDiagram compiled.code with
  | error why =>
      rw [hd] at hlabels
      cases hlabels
  | ok d =>
      rw [hd] at hlabels
      cases hlabels
      refine ⟨d, rfl, ?_⟩
      rw [Markup.Element.texts, heq, filter_map_label, texts_dataRoles]

/-- Cells survive in which no identifier occurs. -/
theorem dataCells_survive_unmentioned :
    ∃ compiled drawing element,
      compile "erDiagram\nGröße \x7b\nMaß, int, PK, \"in cm\"\n\x7d".toList false 2 = .ok compiled
        ∧ draw compiled.code = .ok drawing ∧ readDrawing drawing = .ok element
        ∧ element.texts dataRoles = ["int".toList, "PK".toList, "in cm".toList]
        ∧ (restore compiled.legend true element).texts dataRoles
            = element.texts dataRoles := by
  obtain ⟨compiled, drawing, element, hcompile, -, hentries, hdraw, hread, htexts⟩ :=
    exists_drawn_source "erDiagram\nGröße \x7b\nMaß, int, PK, \"in cm\"\n\x7d".toList
      "erDiagram\nGroesse \x7b\nMass_ int PK \"in cm\"\n\x7d".toList .er
      [("Groesse".toList, "Größe".toList), ("Mass_".toList, "Maß".toList)]
      [{ role := "er entityLabel".toList, text := "Groesse".toList },
        Drawing.rowLabel "attribute-type" "Mass_".toList,
        Drawing.rowLabel "attribute-name" "int".toList,
        Drawing.rowLabel "attribute-keys" "PK".toList,
        Drawing.rowLabel "attribute-comment" "in cm".toList] dataRoles
      (by decide +kernel) (by decide +kernel) (by decide +kernel)
  have hshown : element.texts dataRoles = ["int".toList, "PK".toList, "in cm".toList] := by
    rw [htexts]
    decide +kernel
  obtain ⟨-, hiff, -⟩ := dataCells_survive_iff hcompile hdraw hread true
  refine ⟨compiled, drawing, element, hcompile, hdraw, hread, hshown, hiff.2 ?_⟩
  refine Scanned.of_unmentioned (nil_not_mem_ids hcompile) ?_
  rw [hshown, Legend.ids, hentries]
  decide +kernel

/-- A type that is the identifier of an entity does not survive: the source
says `int`, the restored drawing `int!`. -/
theorem dataCell_rewritten :
    ∃ compiled drawing element,
      compile "erDiagram\nint! \x7b\nx, int\n\x7d".toList false 2 = .ok compiled
        ∧ compiled.mode = .er
        ∧ draw compiled.code = .ok drawing ∧ readDrawing drawing = .ok element
        ∧ element.texts dataRoles = ["int".toList]
        ∧ (restore compiled.legend false element).texts dataRoles = ["int!".toList] := by
  obtain ⟨compiled, drawing, element, hcompile, hmode, hentries, hdraw, hread, htexts⟩ :=
    exists_drawn_source "erDiagram\nint! \x7b\nx, int\n\x7d".toList
      "erDiagram\nint \x7b\nx__ int\n\x7d".toList .er
      [("int".toList, "int!".toList), ("x__".toList, "x".toList)]
      [{ role := "er entityLabel".toList, text := "int".toList },
        Drawing.rowLabel "attribute-type" "x__".toList,
        Drawing.rowLabel "attribute-name" "int".toList] dataRoles
      (by decide +kernel) (by decide +kernel) (by decide +kernel)
  have hshown : element.texts dataRoles = ["int".toList] := by
    rw [htexts]
    decide +kernel
  have hheld : compiled.legend.get? "int".toList = some "int!".toList := by
    rw [Legend.get?, hentries]
    decide +kernel
  refine ⟨compiled, drawing, element, hcompile, hmode, hdraw, hread, hshown, ?_⟩
  rw [texts_restore hdraw hread, hshown, List.map_cons,
    Legend.substitute_id (nil_not_mem_ids hcompile) hheld]
  rfl

end FreeLabel
