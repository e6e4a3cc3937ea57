/-
Whether what is shown can be read.

# Looked at once

A drawing is read before names are put into it, and not again. Names
change its texts only, and all its text is in labels; a style may get
longer, but stays plain. So restoration leaves a drawing a drawing
(`drawn_restore`), and whether it can be read depends on its labels alone.

# The condition

What was read was made of characters that a document may hold. Of names
this is not asked: they come from the source, and an entity's name is in
the drawing only after restoration. `PutIn l s name` says that the scan
puts `name` into `s`. What is shown can be read exactly if each name that
is put into a label is a text that a document may hold
(`shown_readable_iff`), and a diagram with one that is none stands behind
it.
-/
import FreeLabel.Proofs.Preview
import FreeLabel.Proofs.Restore.Survival

namespace FreeLabel.Restore

open Markup (Attributes Content Element Name PlainAttributes isPlainAttribute isPlainValue
  isPlainValue_append isXmlChar isXmlText)
open Naming (Legend)
open Text (normalizeLineEnds)

-- ================================================================= styles

theorem isPlainValue_trim {s : Text} (h : isPlainValue s = true) :
    isPlainValue (Text.trim s) = true := by
  rw [isPlainValue, List.all_eq_true] at h ⊢
  exact fun c hc => h c (Text.mem_of_mem_trim hc)

theorem isPlainValue_extendStyle {style declaration : Text} (hstyle : isPlainValue style = true)
    (hdeclaration : isPlainValue declaration = true) :
    isPlainValue (extendStyle style declaration) = true := by
  have hsemicolon : isPlainValue [';'] = true := by decide
  have hspace : isPlainValue [' '] = true := by decide
  unfold extendStyle
  simp only
  apply isPlainValue_trim
  refine isPlainValue_append (isPlainValue_append (isPlainValue_append ?_ hspace) hdeclaration)
    hsemicolon
  split
  · exact isPlainValue_trim hstyle
  · exact isPlainValue_append (isPlainValue_trim hstyle) hsemicolon

variable {attrs : Attributes}

theorem plain_setAttribute (h : PlainAttributes.Of attrs) {name : Name} {value : Text}
    (hplain : isPlainAttribute (name, value) = true) :
    PlainAttributes.Of (setAttribute attrs name value) := by
  unfold setAttribute
  split
  next =>
    constructor
    case plain =>
      intro a ha
      obtain ⟨b, hb, rfl⟩ := List.mem_map.1 ha
      split
      · exact hplain
      · exact h.plain b hb
    case nodup =>
      have hbase : ∀ a : Name × Text,
          (if a.1 = name then (name, value) else a).1.base = a.1.base := by
        intro a
        split
        next heq => rw [heq]
        next => rfl
      rw [List.map_map]
      simp only [Function.comp_def, hbase]
      exact h.nodup
  next hnone =>
    constructor
    case plain =>
      intro a ha
      rcases List.mem_append.1 ha with ha | ha
      · exact h.plain a ha
      · rw [List.mem_singleton.1 ha]
        exact hplain
    case nodup =>
      rw [List.map_append, List.nodup_append]
      refine ⟨h.nodup, by simp, ?_⟩
      rintro base hbase other hother rfl
      obtain ⟨a, ha, hsame⟩ := List.mem_map.1 hbase
      -- names without a namespace are the same if their words are
      have hname : a.1 = name := by
        have hword : a.1.base = name.base := hsame.trans (List.mem_singleton.1 hother)
        obtain ⟨⟨space, word⟩, value'⟩ := a
        obtain ⟨space', word'⟩ := name
        obtain rfl : space = none := Markup.space_of_isPlainAttribute (h.plain _ ha)
        obtain rfl : space' = none := Markup.space_of_isPlainAttribute hplain
        obtain rfl : word = word' := hword
        rfl
      exact hnone (List.lookup_isSome_iff.2 ⟨a, ha, by simp [hname]⟩)

theorem plain_addStyle (h : PlainAttributes.Of attrs) {declaration : String}
    (hdeclaration : isPlainValue declaration.toList = true) :
    PlainAttributes.Of (addStyle declaration attrs) := by
  have hstyle : isPlainValue ((attrs.lookup styleName).getD []) = true := by
    cases hheld : attrs.lookup styleName with
    | none => rfl
    | some style =>
        obtain ⟨before, after, heq, -⟩ := List.lookup_eq_some_iff.1 hheld
        have hplain := h.plain (styleName, style) (by simp [heq])
        simp only [isPlainAttribute, Bool.and_eq_true] at hplain
        exact hplain.2
  apply plain_setAttribute h
  simp only [isPlainAttribute, isPlainValue_extendStyle hstyle hdeclaration]
  decide

theorem plain_unwrap (h : PlainAttributes.Of attrs) (depth : Nat) (tag : Name) :
    PlainAttributes.Of (unwrap depth tag attrs) := by
  have htimes : ∀ n attrs, PlainAttributes.Of attrs →
      PlainAttributes.Of (times (addStyle "white-space: nowrap") n attrs) := by
    intro n
    induction n with
    | zero => exact fun _ hattrs => hattrs
    | succ n ih => exact fun attrs hattrs => ih _ (plain_addStyle hattrs (by decide))
  unfold unwrap
  split
  · exact plain_addStyle h (by decide)
  · split
    · exact htimes depth attrs h
    · exact h

-- =============================================================== drawings

variable {f : Text → Text} {c : Content} {e : Element}

theorem drawn_mapLabels (h : c.Drawn) (depth lead : Nat) : (mapLabels f depth lead c).Drawn := by
  induction c generalizing depth lead with
  | text t => trivial
  | element before tag attrs inner after ihInner ihAfter =>
      obtain ⟨htag, hattrs, hinner, hafter⟩ := h
      exact ⟨htag, hattrs, ihInner hinner _ _, ihAfter hafter _ _⟩

theorem drawn_unwrapContent (h : c.Drawn) (depth : Nat) : (unwrapContent depth c).Drawn := by
  induction c generalizing depth with
  | text t => trivial
  | element before tag attrs inner after ihInner ihAfter =>
      obtain ⟨htag, hattrs, hinner, hafter⟩ := h
      exact ⟨htag, plain_unwrap hattrs depth tag, ihInner hinner _, ihAfter hafter _⟩

/-- Restoration leaves a drawing a drawing. -/
theorem drawn_restore (h : e.Drawn) (l : Legend) (nowrap : Bool) : (restore l nowrap e).Drawn := by
  have hnamed : (mapElementLabels l.substitute e).Drawn :=
    { h with inner := drawn_mapLabels h.inner _ _ }
  unfold restore
  split
  · exact h
  · cases nowrap with
    | false => exact hnamed
    | true =>
        exact { hnamed with
                attrs := plain_unwrap h.attrs 0 e.tag
                inner := drawn_unwrapContent hnamed.inner _ }

theorem labelsOnly_mapLabels (hf : f [] = []) (h : c.LabelsOnly) (depth lead : Nat) :
    (mapLabels f depth lead c).LabelsOnly := by
  induction c generalizing depth lead with
  | text t =>
      obtain rfl : t = [] := h
      exact times_eq_self hf lead
  | element before tag attrs inner after ihInner ihAfter =>
      obtain ⟨rfl, hinner, hafter⟩ := h
      refine ⟨times_eq_self hf lead, ?_, ihAfter hafter _ _⟩
      exact hinner.imp (fun hinner => ihInner hinner _ _)
        fun ⟨htag, t, ht⟩ => ⟨htag, _, by rw [ht]; rfl⟩

theorem labelsOnly_unwrapContent (h : c.LabelsOnly) (depth : Nat) :
    (unwrapContent depth c).LabelsOnly := by
  induction c generalizing depth with
  | text t => exact h
  | element before tag attrs inner after ihInner ihAfter =>
      obtain ⟨hbefore, hinner, hafter⟩ := h
      refine ⟨hbefore, ?_, ihAfter hafter _⟩
      exact hinner.imp (fun hinner => ihInner hinner _)
        fun ⟨htag, t, ht⟩ => ⟨htag, t, by rw [ht]; rfl⟩

/-- Restoration puts text into labels only. -/
theorem labelsOnly_restore (h : e.LabelsOnly) (l : Legend) (nowrap : Bool) :
    (restore l nowrap e).LabelsOnly := by
  have hnamed : (mapElementLabels l.substitute e).LabelsOnly :=
    labelsOnly_mapLabels (f := l.substitute) (if_pos rfl) h 0 0
  unfold restore
  split
  · exact h
  · cases nowrap with
    | false => exact hnamed
    | true => exact labelsOnly_unwrapContent hnamed 0

-- ========================================================== names put in

variable {l : Legend} {s name : Text}

/-- The scan of `s` puts `name` in. -/
inductive PutIn (l : Legend) : Text → Text → Prop
  /-- Where the text begins. -/
  | here {id s name : Text} (at_ : LongestAt l (id ++ s) id name) : PutIn l (id ++ s) name
  /-- Behind an identifier. -/
  | name {id held s name : Text} (at_ : LongestAt l (id ++ s) id held) (rest : PutIn l s name) :
      PutIn l (id ++ s) name
  /-- Behind a character at which no identifier begins. -/
  | char {c : Char} {s name : Text} (none : NoneAt l (c :: s)) (rest : PutIn l s name) :
      PutIn l (c :: s) name

/-- What is put in is the name of an identifier. -/
theorem PutIn.exists_id (h : PutIn l s name) : ∃ id, l.get? id = some name := by
  induction h with
  | here at_ => exact ⟨_, at_.held⟩
  | name _ _ ih => exact ih
  | char _ _ ih => exact ih

/-- Into a text that is an identifier, its name is put. -/
theorem putIn_of_id {id : Text} (h : l.get? id = some name) : PutIn l id name := by
  have hhere := PutIn.here (longestAt_of_id h)
  rwa [List.append_nil] at hhere

/-- What is put in is a part of what comes of the scan. -/
theorem PutIn.isInfix (hne : [] ∉ l.ids) (h : PutIn l s name) : name <:+: l.substitute s := by
  induction h with
  | here at_ =>
      rw [(Legend.substitute_eq_iff hne).2 (.name at_ (scanned_substitute hne _))]
      exact (List.prefix_append _ _).isInfix
  | name at_ _ ih =>
      rw [(Legend.substitute_eq_iff hne).2 (.name at_ ((Legend.substitute_eq_iff hne).1 rfl))]
      exact ih.trans (List.suffix_append _ _).isInfix
  | char hnone _ ih =>
      rw [(Legend.substitute_eq_iff hne).2 (.char hnone ((Legend.substitute_eq_iff hne).1 rfl))]
      exact ih.trans (List.suffix_cons _ _).isInfix

/-- A document may hold what comes of a text that it may hold exactly if it
may hold each name that is put in. -/
theorem isXmlText_substitute_iff (hne : [] ∉ l.ids) (hs : isXmlText s = true) :
    isXmlText (l.substitute s) = true ↔ ∀ name, PutIn l s name → isXmlText name = true := by
  constructor
  · intro h name hput
    rw [isXmlText, List.all_eq_true] at h ⊢
    exact fun c hc => h c ((hput.isInfix hne).subset hc)
  · intro h
    generalize ht : l.substitute s = t
    have hscan : Scanned l s t := (Legend.substitute_eq_iff hne).1 ht
    clear ht
    induction hscan with
    | nil => rfl
    | name at_ _ ih =>
        rw [isXmlText, List.all_append, Bool.and_eq_true] at hs ⊢
        exact ⟨h _ (.here at_), ih hs.2 fun name hput => h name (.name at_ hput)⟩
    | char hnone _ ih =>
        rw [isXmlText, List.all_cons, Bool.and_eq_true] at hs ⊢
        exact ⟨hs.1, ih hs.2 fun name hput => h name (.char hnone hput)⟩

end FreeLabel.Restore

namespace FreeLabel

open Markup (Element Label isXmlText)
open Naming (Legend)
open Restore (PutIn)
open Text (normalizeLineEnds)

-- ========================================================== what is shown

variable {diagram drawing : Text} {element : Element}

/-- A restored drawing can be read exactly if a document may hold the names
that are put into its labels. -/
theorem readable_restore_iff (hdraw : draw diagram = .ok drawing)
    (hread : readDrawing drawing = .ok element) {l : Legend} (hne : [] ∉ l.ids) (nowrap : Bool) :
    (∃ e, readDrawing (restore l nowrap element).write = .ok e)
      ↔ ∀ label ∈ element.labels [], ∀ name, PutIn l label.text name → isXmlText name = true := by
  obtain ⟨-, -, -, hrestored⟩ := Drawing.labels_of_draw hdraw hread l nowrap []
  obtain ⟨e, -, rfl, hdrawn, ⟨-, honly⟩, -⟩ := Drawing.exists_markup_of_draw hdraw
  obtain ⟨hxml, rfl⟩ := (readDrawing_write hdrawn).1 hread
  have hdrawn' : (e.mapTexts normalizeLineEnds).Drawn :=
    { hdrawn with inner := hdrawn.inner.mapTexts _ }
  have honly' : (e.mapTexts normalizeLineEnds).LabelsOnly :=
    Markup.Element.labelsOnly_mapTexts rfl honly
  have hlegal : ∀ label ∈ (e.mapTexts normalizeLineEnds).labels [],
      isXmlText label.text = true := by
    rw [Markup.Element.labels_mapTexts]
    intro label hlabel
    obtain ⟨label', hlabel', rfl⟩ := List.mem_map.1 hlabel
    rw [Drawing.isXml_inner honly [], List.all_eq_true] at hxml
    exact Markup.isXmlText_normalizeLineEnds (hxml label' hlabel')
  have hrestored' := Restore.drawn_restore hdrawn' l nowrap
  calc (∃ e', readDrawing (restore l nowrap (e.mapTexts normalizeLineEnds)).write = .ok e')
      ↔ (restore l nowrap (e.mapTexts normalizeLineEnds)).inner.isXml = true := by
        constructor
        · rintro ⟨e', he'⟩
          exact ((readDrawing_write hrestored').1 he').1
        · exact fun h => ⟨_, (readDrawing_write hrestored').2 ⟨h, rfl⟩⟩
    _ ↔ ∀ label ∈ (e.mapTexts normalizeLineEnds).labels [],
          isXmlText (l.substitute label.text) = true := by
        rw [Drawing.isXml_inner (Restore.labelsOnly_restore honly' l nowrap) [], hrestored,
          List.all_map, List.all_eq_true]
        rfl
    _ ↔ _ := forall₂_congr fun label hlabel =>
        Restore.isXmlText_substitute_iff hne (hlegal label hlabel)

variable {source : Text} {strict nowrap : Bool} {padding : Int} {compiled : Compiled}
  {shown : Text}

/-- What is shown for a source that compiles to a diagram with labels that
a document may hold. -/
theorem exists_shown (source code diagram : Text) (mode : Mode)
    (entries : List (Text × Text)) (labels : List Label) (room : Room) (nowrap : Bool)
    (hwritten : Text.trim source ≠ [])
    (hcompile : ((compile source false 2).toOption.map fun c =>
      (c.mode, c.code, c.legend.entries)) = some (mode, code, entries))
    (hcheck : (checkContent code).toOption = some diagram)
    (hlabels : (Drawing.labelsAs diagram (Drawing.modeOf diagram)).toOption = some labels)
    (hxml : labels.all Drawing.isXmlLabel = true) :
    ∃ compiled drawing element, compile source false 2 = .ok compiled
      ∧ compiled.legend.entries = entries
      ∧ draw diagram = .ok drawing ∧ readDrawing drawing = .ok element
      ∧ element.labels [] = labels.map (Label.map normalizeLineEnds)
      ∧ preview Engine.offlineRenderer room source false 2 nowrap
        = .ok (.drawn compiled (restore compiled.legend nowrap element).write) := by
  obtain ⟨compiled, hcompiled, -, rfl, hentries⟩ :=
    exists_compiled source code mode entries hcompile
  obtain ⟨drawing, element, hdraw, hread, heq⟩ := exists_drawn diagram labels hlabels hxml
  have hok : checkContent compiled.code = .ok diagram := by
    revert hcheck
    cases checkContent compiled.code <;> simp [Except.toOption]
  obtain ⟨hdiagram, hquiet⟩ := checkContent_eq_ok_iff.1 hok
  have hdue : Call.Due
      { diagram := diagram, direction := compiled.direction.map Direction.name }
      source false 2 compiled :=
    ⟨hwritten, hcompiled, hdiagram, hquiet, rfl⟩
  refine ⟨compiled, drawing, element, hcompiled, hentries, hdraw, hread, heq, ?_⟩
  have hfits : element.depth ≤ room.levels :=
    Nat.le_trans (Drawing.depth_le_of_draw hdraw hread) room.enough
  exact preview_eq_drawn_iff.2
    ⟨_, drawing, element, hdue, Engine.answer_offlineRenderer.2 hdraw, hread, hfits, rfl⟩

/-- What is shown for a source that is drawn offline is the drawing of its
diagram with the names in it; and it can be read exactly if a document may
hold each name that is put into a label of the drawing. -/
theorem shown_readable_iff {room : Room}
    (h : preview Engine.offlineRenderer room source strict padding nowrap
      = .ok (.drawn compiled shown)) :
    ∃ drawing element, draw (dropReturns compiled.code) = .ok drawing
      ∧ readDrawing drawing = .ok element
      ∧ shown = (restore compiled.legend nowrap element).write
      ∧ ((∃ e, readDrawing shown = .ok e)
        ↔ ∀ label ∈ element.labels [], ∀ name, PutIn compiled.legend label.text name →
            isXmlText name = true) := by
  obtain ⟨call, drawing, element, hdue, hanswer, hread, -, rfl⟩ := preview_eq_drawn_iff.1 h
  have hdraw := Engine.answer_offlineRenderer.1 hanswer
  have hne := nil_not_mem_ids hdue.compiles
  refine ⟨drawing, element, hdue.diagram ▸ hdraw, hread, rfl, ?_⟩
  exact readable_restore_iff hdraw hread hne nowrap

/-- A drawing with names of letters in it can be read. -/
theorem shown_readable_of_letters :
    ∃ compiled shown,
      preview Engine.offlineRenderer .usual "erDiagram\n\"Größe\" \x7b\nx, int\n\x7d".toList false 2 true
          = .ok (.drawn compiled shown)
        ∧ ∃ e, readDrawing shown = .ok e := by
  obtain ⟨compiled, _, _, -, hentries, -, -, -, hshown⟩ :=
    exists_shown "erDiagram\n\"Größe\" \x7b\nx, int\n\x7d".toList
      "erDiagram\nGroesse \x7b\nx__ int\n\x7d".toList
      "erDiagram\nGroesse \x7b\nx__ int\n\x7d".toList .er
      [("Groesse".toList, "Größe".toList), ("x__".toList, "x".toList)]
      [{ role := "er entityLabel".toList, text := "Groesse".toList },
        Drawing.rowLabel "attribute-type" "x__".toList,
        Drawing.rowLabel "attribute-name" "int".toList] .usual true
      (by decide) (by decide +kernel) (by decide +kernel) (by decide +kernel) (by decide +kernel)
  obtain ⟨_, _, -, -, -, hreadable⟩ := shown_readable_iff hshown
  refine ⟨compiled, _, hshown, hreadable.2 ?_⟩
  have hnames : ∀ entry ∈ [("Groesse".toList, "Größe".toList), ("x__".toList, "x".toList)],
      isXmlText entry.2 = true := by decide
  intro label _ name hput
  obtain ⟨id, hheld⟩ := hput.exists_id
  exact hnames (id, name) (hentries ▸ Legend.get?_eq_some_iff.1 hheld)

/-- A drawing with a control character in a name cannot: the character
stands in the source, and nothing looks at the drawing after it was put
in. -/
theorem shown_with_control_character :
    ∃ compiled shown,
      preview Engine.offlineRenderer .usual "erDiagram\nA\x01B \x7b\nx, int\n\x7d".toList false 2 true
          = .ok (.drawn compiled shown)
        ∧ ¬ ∃ e, readDrawing shown = .ok e := by
  obtain ⟨compiled, drawing, element, hcompile, hentries, hdraw, hread, hlabels, hshown⟩ :=
    exists_shown "erDiagram\nA\x01B \x7b\nx, int\n\x7d".toList
      "erDiagram\nA_B \x7b\nx__ int\n\x7d".toList
      "erDiagram\nA_B \x7b\nx__ int\n\x7d".toList .er
      [("A_B".toList, "A\x01B".toList), ("x__".toList, "x".toList)]
      [{ role := "er entityLabel".toList, text := "A_B".toList },
        Drawing.rowLabel "attribute-type" "x__".toList,
        Drawing.rowLabel "attribute-name" "int".toList] .usual true
      (by decide) (by decide +kernel) (by decide +kernel) (by decide +kernel) (by decide +kernel)
  refine ⟨compiled, _, hshown, ?_⟩
  rw [readable_restore_iff hdraw hread (nil_not_mem_ids hcompile) true]
  intro hlegal
  have hheld : compiled.legend.get? "A_B".toList = some "A\x01B".toList := by
    unfold Legend.get?
    rw [hentries]
    decide
  have hname := hlegal { role := "er entityLabel".toList, text := "A_B".toList }
    (by rw [hlabels]; exact List.mem_cons_self) _ (Restore.putIn_of_id hheld)
  exact absurd hname (by decide)

end FreeLabel
