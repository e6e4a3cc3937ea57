/-
A document, compiled, drawn and restored, is what it means.

Four things are put together here. A document compiles to the diagram of
its entries under the identifiers of the pass (`Document.compile_source`).
Identifiers are plain, and so are the other texts of a document; so the
diagram of the entries shows their picture (`Entry.ofDiagram_diagram`). The
legend puts the name back for each identifier, and so no two of them stand
for one name; so the picture of the entries is that of the document with
other names (`Entry.rename_picture`). And a drawing of texts that a
document may hold is read as it was written, and names are put into each
of them once (`labels_of_draw`).
-/
import FreeLabel.Proofs.Er.Redrawing
import FreeLabel.Proofs.Er.Renaming
import FreeLabel.Proofs.Er.Translation
import FreeLabel.Proofs.Restore.Survival
import FreeLabel.Proofs.Text.Utf8

namespace FreeLabel

open Drawing (ErDrawing Entity Relation Row)
open Markup (Element Label)
open Naming (isIdentifier)
open Text (normalizeLineEnds)

-- ============================================================ characters

namespace Er

theorem isLineChar_of_isIdentChar {c : Char} (h : isIdentChar c = true) :
    isLineChar c = true := by
  have hrange := toNat_of_isIdentChar h
  have hfeed : c ≠ '\n' := ne_of_kind h (by decide)
  have hreturn : c ≠ '\r' := ne_of_kind h (by decide)
  have hxml : Markup.isXmlChar c = true := by
    unfold Markup.isXmlChar
    simp
    omega
  simp [isLineChar, hxml, hfeed, hreturn]

theorem isXmlText_of_isLineChar {t : Text} (h : ∀ c ∈ t, isLineChar c = true) :
    Markup.isXmlText t = true := by
  rw [Markup.isXmlText, List.all_eq_true]
  intro c hc
  have hline := h c hc
  simp only [isLineChar, Bool.and_eq_true] at hline
  exact hline.1.1

theorem return_not_mem {t : Text} (h : ∀ c ∈ t, isLineChar c = true) : '\r' ∉ t :=
  fun hmem => absurd (h '\r' hmem) (by decide)

-- ========================================================= plain entries

variable {ids : NameMap}

theorem Field.plain_row (f : Field) (hids : ∀ name, isIdentifier (ids.ofAttribute name) = true) :
    PlainRow (f.row ids) where
  first := hids f.name.text
  second := f.type.nonempty
  unblank := by
    intro c hc
    have hkind := (f.type.chars c hc).2
    simp only [isTypeChar, Bool.and_eq_true, Bool.not_eq_true'] at hkind
    exact hkind.1.1
  key := by
    intro k hk
    obtain ⟨key, -, rfl⟩ := Option.map_eq_some_iff.1 hk
    exact key.known
  comment := by
    intro t ht
    obtain ⟨remark, -, rfl⟩ := Option.map_eq_some_iff.1 ht
    exact remark.not_mem (by decide)
  legal := by
    intro t ht
    rcases List.mem_cons.1 ht with rfl | ht
    · exact fun c hc => (f.type.chars c hc).1
    · obtain ⟨remark, -, rfl⟩ := Option.map_eq_some_iff.1 (Option.mem_toList.1 ht)
      exact fun c hc => (remark.chars c hc).1

theorem Item.plain_entry (i : Item) (hentity : ∀ name, isIdentifier (ids.ofEntity name) = true)
    (hattribute : ∀ name, isIdentifier (ids.ofAttribute name) = true) :
    (i.entry ids).Plain := by
  cases i with
  | block name fields =>
      refine ⟨hentity name.text, ?_⟩
      intro row hrow
      obtain ⟨f, -, rfl⟩ := List.mem_map.1 hrow
      exact f.plain_row hattribute
  | relation left op right label =>
      have hlabel : Text.trim (remarkText label) = remarkText label
          ∧ '"' ∉ remarkText label ∧ ∀ c ∈ remarkText label, isLineChar c = true := by
        cases label with
        | none => exact ⟨rfl, List.not_mem_nil, by simp [remarkText]⟩
        | some t => exact ⟨t.trimmed, t.not_mem (by decide), fun c hc => (t.chars c hc).1⟩
      exact ⟨hentity left.text, hentity right.text, hlabel.1, hlabel.2.1, hlabel.2.2⟩

/-- Identifiers make the entries of a document plain. -/
theorem Document.plain_entries (d : Document) (padding : Int) (a : Naming.Allocator) :
    ∀ e ∈ d.entries (identifiers padding a), e.Plain := by
  intro e he
  obtain ⟨i, -, rfl⟩ := List.mem_map.1 he
  exact i.plain_entry (fun _ => Naming.Allocator.isIdentifier_choose ..)
    fun _ => Naming.Allocator.isIdentifier_choose ..

-- =============================================================== labels

theorem isLineChar_of_isIdentifier {id : Text} (hid : isIdentifier id = true) :
    ∀ c ∈ id, isLineChar c = true := fun c hc =>
  isLineChar_of_isIdentChar ((Naming.isIdentChar_of_isIdentifier hid).2 c hc)

theorem of_mem_shown {t : Text} {given : Option Text} (h : t ∈ Drawing.shown given) :
    given = some t :=
  Option.mem_toList.1 (List.mem_filter.1 h).1

theorem PlainRow.isLineChar_labels {row : Row} (h : PlainRow row) :
    ∀ l ∈ row.labels, ∀ c ∈ l.text, isLineChar c = true := by
  have hkey : ∀ k ∈ Drawing.keyNames, k.all isLineChar = true := by decide
  intro l hl
  rcases List.mem_append.1 hl with hl | hl
  · rcases List.mem_append.1 hl with hl | hl
    · rcases List.mem_cons.1 hl with rfl | hl
      · exact isLineChar_of_isIdentifier h.first
      · obtain rfl := List.mem_singleton.1 hl
        exact h.legal _ List.mem_cons_self
    · obtain ⟨k, hk, rfl⟩ := List.mem_map.1 hl
      exact List.all_eq_true.1 (hkey k (h.key k (of_mem_shown hk)))
  · obtain ⟨t, ht, rfl⟩ := List.mem_map.1 hl
    exact h.legal t (List.mem_cons_of_mem _ (Option.mem_toList.2 (of_mem_shown ht)))

/-- The labels of a picture are texts that a drawing may hold. -/
theorem Entry.isLineChar_labels {es : List Entry} (hes : ∀ e ∈ es, e.Plain) :
    ∀ l ∈ (picture es).labels, ∀ c ∈ l.text, isLineChar c = true := by
  intro l hl
  rcases List.mem_append.1 hl with hl | hl
  · obtain ⟨entity, hentity, hl⟩ := List.mem_flatMap.1 hl
    obtain ⟨name, hname, rfl⟩ := List.mem_map.1 hentity
    rcases List.mem_cons.1 hl with rfl | hl
    · obtain ⟨e, he, hname⟩ := List.mem_flatMap.1 (List.mem_eraseDups.1 hname)
      have hid : isIdentifier name = true := by
        have hplain := hes e he
        cases e with
        | block entity rows =>
            obtain rfl := List.mem_singleton.1 hname
            exact hplain.1
        | relation r =>
            have hr : PlainRelation r := hplain
            rcases List.mem_cons.1 hname with rfl | hname
            · exact hr.left
            · obtain rfl := List.mem_singleton.1 hname
              exact hr.right
      exact isLineChar_of_isIdentifier hid
    · obtain ⟨row, hrow, hl⟩ := List.mem_flatMap.1 hl
      obtain ⟨e, he, hrow⟩ := List.mem_flatMap.1 hrow
      have hplain : PlainRow row := by
        have hplain := hes e he
        cases e with
        | block entity rows =>
            rw [rowsOf] at hrow
            split at hrow
            next => exact hplain.2 row hrow
            next => cases hrow
        | relation r => cases hrow
      exact hplain.isLineChar_labels l hl
  · obtain ⟨r, hr, hl⟩ := List.mem_flatMap.1 hl
    obtain ⟨t, ht, rfl⟩ := List.mem_map.1 hl
    obtain ⟨e, he, hrelation⟩ := List.mem_filterMap.1 hr
    cases e with
    | block entity rows => cases hrelation
    | relation r' =>
        cases hrelation
        have hplain : PlainRelation r := hes _ he
        cases of_mem_shown ht
        exact hplain.legal

-- ================================================================ names

/-- A row under names that are put back is the row that was written. -/
theorem Field.rename_row {g : Text → Text} (f : Field)
    (h : g (ids.ofAttribute f.name.text) = f.name.text) :
    (f.row ids).rename g = f.row .plain := by
  unfold Field.row Row.rename
  rw [h]
  rfl

/-- So is an entry. -/
theorem Item.rename_entry {g : Text → Text} (i : Item) {padding : Int} {a : Naming.Allocator}
    (h : ∀ r ∈ i.requests padding, g (a.choose r.name r.minLength) = r.name) :
    (i.entry (identifiers padding a)).rename g = i.entry .plain := by
  cases i with
  | block name fields =>
      have hentity : g (a.choose name.text 0) = name.text := h _ List.mem_cons_self
      have hrows : (fields.map (Field.row (identifiers padding a))).map (Row.rename g)
          = fields.map (Field.row .plain) := by
        rw [List.map_map]
        refine List.map_congr_left fun f hf => f.rename_row ?_
        exact h (f.request padding) (List.mem_cons_of_mem _ (List.mem_map.2 ⟨f, hf, rfl⟩))
      rw [Item.entry, Entry.rename, hrows, identifiers, hentity]
      rfl
  | relation left op right label =>
      have hleft : g (a.choose left.text 0) = left.text := h _ List.mem_cons_self
      have hright : g (a.choose right.text 0) = right.text :=
        h _ (List.mem_cons_of_mem _ List.mem_cons_self)
      rw [Item.entry, Entry.rename, Relation.rename, identifiers, hleft, hright]
      rfl

/-- The identifier of an entity was requested for a name alone. -/
theorem Document.exists_request (d : Document) {padding : Int} {a : Naming.Allocator}
    {id : Text} (hid : id ∈ (d.entries (identifiers padding a)).flatMap Entry.names) :
    ∃ name, { name := name, minLength := 0 } ∈ d.requests padding
      ∧ id = a.choose name 0 := by
  obtain ⟨e, he, hid⟩ := List.mem_flatMap.1 hid
  obtain ⟨i, hi, rfl⟩ := List.mem_map.1 he
  have hrequest : ∃ name, { name := name, minLength := 0 } ∈ i.requests padding
      ∧ id = a.choose name 0 := by
    cases i with
    | block name fields =>
        obtain rfl := List.mem_singleton.1 hid
        exact ⟨name.text, List.mem_cons_self, rfl⟩
    | relation left op right label =>
        rcases List.mem_cons.1 hid with rfl | hid
        · exact ⟨left.text, List.mem_cons_self, rfl⟩
        · obtain rfl := List.mem_singleton.1 hid
          exact ⟨right.text, List.mem_cons_of_mem _ List.mem_cons_self, rfl⟩
  obtain ⟨name, hname, heq⟩ := hrequest
  exact ⟨name, List.mem_flatMap.2 ⟨i, hi, hname⟩, heq⟩

/-- With the names put back, what is shown for a document is its picture. -/
theorem Document.rename_picture (d : Document) {padding : Int}
    (hne : [] ∉ (d.allocator padding).legend.ids) :
    (Entry.picture (d.entries (identifiers padding (d.allocator padding)))).rename
        (d.allocator padding).legend.substitute
      = d.picture := by
  have hname : ∀ r ∈ d.requests padding,
      (d.allocator padding).legend.substitute
        ((d.allocator padding).choose r.name r.minLength) = r.name :=
    fun r hr => Naming.Legend.substitute_id hne (d.get?_of_mem_requests hr)
  have hentries : (d.entries (identifiers padding (d.allocator padding))).map
      (Entry.rename (d.allocator padding).legend.substitute) = d.entries .plain := by
    unfold Document.entries
    rw [List.map_map]
    refine List.map_congr_left fun i hi => i.rename_entry fun r hr => ?_
    exact hname r (List.mem_flatMap.2 ⟨i, hi, hr⟩)
  rw [Entry.rename_picture, hentries]
  · rfl
  · -- two identifiers for one name are the same choice
    intro id hid id' hid' heq
    obtain ⟨name, hrequest, rfl⟩ := d.exists_request hid
    obtain ⟨name', hrequest', rfl⟩ := d.exists_request hid'
    have hback := hname _ hrequest
    have hback' := hname _ hrequest'
    simp only at hback hback'
    rw [hback, hback'] at heq
    rw [heq]

end Er

-- =========================================================== name cells

/-- The roles of the cells that show names: attributes are named in the
first column. -/
def nameRoles : List String := ["er entityLabel", "er attributeBoxOdd attribute-type"]

/-- The names in a diagram: that of each entity, and those of its
attributes. -/
def Drawing.ErDrawing.names (d : ErDrawing) : List Text :=
  d.entities.flatMap fun e => e.name :: e.rows.map Row.first

theorem names_rename (f : Text → Text) (d : ErDrawing) :
    (d.rename f).names = d.names.map f := by
  unfold ErDrawing.names ErDrawing.rename
  rw [List.flatMap_map, List.map_flatMap]
  refine congrFun (congrArg _ (funext fun e => ?_)) _
  simp only [Entity.rename, List.map_cons, List.map_map]
  rfl

theorem texts_nameRoles (d : ErDrawing) :
    ((d.labels.filter (hasRole nameRoles)).map Label.text) = d.names := by
  have hrow : ∀ row : Row,
      ((row.labels.filter (hasRole nameRoles)).map Label.text) = [row.first] := by
    intro row
    rw [texts_row]
    rfl
  have hbox : ∀ name : Text, ofRole nameRoles "er entityLabel" [name] = [name] := fun _ => rfl
  have hrelations : (d.relations.flatMap fun r =>
      ofRole nameRoles "er relationshipLabel" (Drawing.shown (some r.label))) = [] :=
    List.flatMap_eq_nil_iff.2 fun _ _ => rfl
  rw [texts_er, hrelations, List.append_nil]
  simp only [hrow, hbox, ← List.map_eq_flatMap]
  rfl

-- ========================================================= faithfulness

/-- The diagram of entries is drawn, and what is drawn is read with the
labels of the picture. -/
theorem Er.Entry.draw_diagram {es : List Er.Entry} (hes : ∀ e ∈ es, e.Plain) :
    draw (diagram es) = .ok (picture es).layout.markup.write
      ∧ ∃ element, readDrawing (picture es).layout.markup.write = .ok element
        ∧ element.labels [] = (picture es).labels := by
  have hstart : Drawing.startsErDiagram "erDiagram".toList = true := by decide
  have hmode : Drawing.modeOf (diagram es) = .er := by
    rw [Drawing.modeOf, contentLines_diagram hes]
    simp only [hstart, if_true]
  have hdraw : draw (diagram es) = .ok (picture es).layout.markup.write := by
    rw [draw, hmode, drawAs, Drawing.markup, Drawing.erMarkup, ofDiagram_diagram hes]
    rfl
  have hlabels : Drawing.labelsAs (diagram es) (Drawing.modeOf (diagram es))
      = .ok (picture es).labels := by
    rw [hmode, Drawing.labelsAs, ofDiagram_diagram hes]
    rfl
  have hchars := isLineChar_labels hes
  have hxml : (picture es).labels.all Drawing.isXmlLabel = true :=
    List.all_eq_true.2 fun l hl => isXmlText_of_isLineChar (hchars l hl)
  obtain ⟨element, hread⟩ := (Drawing.exists_readDrawing hdraw hlabels).2 hxml
  refine ⟨hdraw, element, hread, ?_⟩
  obtain ⟨labels, hlabels', heq, -⟩ := Drawing.labels_of_draw hdraw hread .empty false []
  rw [hlabels] at hlabels'
  cases hlabels'
  have hself : (picture es).labels.map (Label.map normalizeLineEnds)
      = (picture es).labels.map id := by
    refine List.map_congr_left fun l hl => ?_
    show Label.mk _ _ = Label.mk _ _
    rw [Text.normalizeLineEnds_eq_self (return_not_mem (hchars l hl))]
  rw [heq, hself, List.map_id]

/-- Whatever the names, types, keys, comments and labels of a document, it
compiles without complaint, what it compiles to is drawn, and the drawing
can be read. The drawing shows one entity for each name, in the order of
first mention, with the rows of all its blocks, and one relationship for
each that is written: with the names put back, this is the picture of the
document. And putting the names back into the drawing makes each cell of a
name read as the document has it. -/
theorem Er.Document.drawn_faithfully (d : Er.Document) (strict : Bool) (padding : Int)
    (nowrap : Bool) :
    ∃ compiled shown element,
      compile d.source strict padding = .ok compiled
        ∧ compiled.mode = .er ∧ compiled.diagnostics = []
        ∧ ErDrawing.ofDiagram compiled.code = .ok shown
        ∧ draw compiled.code = .ok shown.layout.markup.write
        ∧ readDrawing shown.layout.markup.write = .ok element
        ∧ element.labels [] = shown.labels
        ∧ shown.rename compiled.legend.substitute = d.picture
        ∧ (restore compiled.legend nowrap element).texts nameRoles = d.picture.names := by
  have hcompile := d.compile_source strict padding
  have hpicture := d.rename_picture (nil_not_mem_ids hcompile)
  have hplain := d.plain_entries padding (d.allocator padding)
  have hshown := Er.Entry.ofDiagram_diagram hplain
  obtain ⟨hdraw, element, hread, hlabels⟩ := Er.Entry.draw_diagram hplain
  have hnames : (restore (d.allocator padding).legend nowrap element).texts nameRoles
      = d.picture.names := by
    rw [texts_restore hdraw hread, Element.texts, hlabels, texts_nameRoles, ← names_rename,
      hpicture]
  exact ⟨_, _, element, hcompile, rfl, rfl, hshown, hdraw, hread, hlabels, hpicture, hnames⟩

/-- Such a document has a block and a relationship. -/
example :
    ∃ d : Er.Document, d.lines = ["erDiagram".toList, "Größe \x7b".toList,
      "Maß, int, pk, \"in cm, gerundet\"".toList, "\x7d".toList,
      "Größe |o--|\x7b Regal : passt".toList] := by
  let size : Er.DisplayName :=
    { text := "Größe".toList, nonempty := by decide, trimmed := by decide
      chars := Text.forall_mem_of_all (by decide), uncommented := by decide
      noOperator := Er.Cardinality.find?_eq_none_iff.1 (by decide) }
  let shelf : Er.DisplayName :=
    { text := "Regal".toList, nonempty := by decide, trimmed := by decide
      chars := Text.forall_mem_of_all (by decide), uncommented := by decide
      noOperator := Er.Cardinality.find?_eq_none_iff.1 (by decide) }
  let field : Er.Field :=
    { name :=
        { text := "Maß".toList, nonempty := by decide, trimmed := by decide
          chars := Text.forall_mem_of_all (by decide), uncommented := by decide
          noOperator := Er.Cardinality.find?_eq_none_iff.1 (by decide) }
      type :=
        { text := "int".toList, nonempty := by decide, trimmed := by decide
          chars := Text.forall_mem_of_all (by decide) }
      key := some { text := "pk".toList, known := by decide }
      comment := some
        { text := "in cm, gerundet".toList, nonempty := by decide, trimmed := by decide
          chars := Text.forall_mem_of_all (by decide) } }
  let label : Er.Remark :=
    { text := "passt".toList, nonempty := by decide, trimmed := by decide
      chars := Text.forall_mem_of_all (by decide) }
  let op : Er.Cardinality := { left := ⟨false, true⟩, dotted := false, right := ⟨true, false⟩ }
  exact ⟨⟨[.block size [field], .relation size op shelf (some label)]⟩, rfl⟩

end FreeLabel
