/-
Drawings as they are written are read back.

# Which elements are drawings

`Element.Drawn` describes the elements that drawings consist of: names in
the namespace of drawings or of hypertext, attributes without namespaces
and with plain values, and any text in between. Two namespaces at most
occur, the first one first, so the writer's prefixes are known
(`prefixesFor_names`), and with them what the outermost tag declares and
what is in scope inside it.

`readDrawing_write` sums up: a written drawing is read if and only if its
texts may stand in a document, and what is read is the drawing with line
feeds for line ends.
-/
import FreeLabel.Proofs.Markup.Reading
import FreeLabel.Refusal

namespace FreeLabel.Markup

open Text (normalizeLineEnds)

-- ============================================================== drawings

/-- Whether a name is one that drawings are made of. -/
def Name.isDrawn (n : Name) : Bool :=
  (n.space = some svgSpace || n.space = some xhtmlSpace) && isWord n.base

/-- Content that drawings are made of. -/
def Content.Drawn : Content → Prop
  | .text _ => True
  | .element _ tag attrs inner after =>
    tag.isDrawn = true ∧ PlainAttributes.Of attrs ∧ inner.Drawn ∧ after.Drawn

/-- An element that is a drawing. -/
structure Element.Drawn (e : Element) : Prop where
  space : e.tag.space = some svgSpace
  word : isWord e.tag.base = true
  attrs : PlainAttributes.Of e.attrs
  inner : e.inner.Drawn

theorem Content.Drawn.mapTexts {c : Content} (h : c.Drawn) (g : Text → Text) :
    (c.mapTexts g).Drawn := by
  induction c with
  | text t => trivial
  | element before tag attrs inner after ihInner ihAfter =>
      obtain ⟨htag, hattrs, hinner, hafter⟩ := h
      exact ⟨htag, hattrs, ihInner hinner, ihAfter hafter⟩

-- ============================================================== prefixes

/-- The namespaces in content, as often as they occur. -/
def Content.spaces (c : Content) : List Text := c.names.filterMap Name.space

/-- The prefixes in a drawing, with hypertext in it or without. -/
def drawnPrefixes (hyper : Bool) : Prefixes :=
  (svgSpace, []) :: if hyper then [(xhtmlSpace, "html".toList)] else []

/-- What is in scope in a drawing. -/
def drawnScope (hyper : Bool) : Scope :=
  (if hyper then [("html".toList, xhtmlSpace)] else []) ++
    ([], svgSpace) :: Scope.initial

theorem filterMap_space_attributes {attrs : Attributes}
    (h : ∀ a ∈ attrs, isPlainAttribute a = true) :
    (attrs.map Prod.fst).filterMap Name.space = [] := by
  rw [List.filterMap_eq_nil_iff]
  intro n hn
  obtain ⟨a, ha, rfl⟩ := List.mem_map.1 hn
  exact space_of_isPlainAttribute (h a ha)

/-- The namespaces of an element in a drawing. -/
theorem Content.spaces_element {before : Text} {tag : Name} {attrs : Attributes}
    {inner after : Content} {space : Text} (htag : tag.space = some space)
    (hattrs : PlainAttributes.Of attrs) :
    (Content.element before tag attrs inner after).spaces
      = space :: (inner.spaces ++ after.spaces) := by
  unfold Content.spaces
  rw [Content.names, List.append_assoc, List.cons_append, List.filterMap_cons, htag,
    List.filterMap_append, List.filterMap_append,
    filterMap_space_attributes hattrs.plain, List.nil_append]

/-- Only two namespaces occur in a drawing. -/
theorem Content.Drawn.spaces {c : Content} (h : c.Drawn) :
    ∀ space ∈ c.spaces, space = svgSpace ∨ space = xhtmlSpace := by
  induction c with
  | text t => simp [Content.spaces, Content.names]
  | element before tag attrs inner after ihInner ihAfter =>
      obtain ⟨htag, hattrs, hinner, hafter⟩ := h
      have htwo : tag.space = some svgSpace ∨ tag.space = some xhtmlSpace := by
        simp only [Name.isDrawn, Bool.and_eq_true, Bool.or_eq_true,
          decide_eq_true_eq] at htag
        exact htag.1
      have hrest : ∀ space ∈ inner.spaces ++ after.spaces,
          space = svgSpace ∨ space = xhtmlSpace := by
        intro space hmem
        rcases List.mem_append.1 hmem with hmem | hmem
        · exact ihInner hinner space hmem
        · exact ihAfter hafter space hmem
      intro space hmem
      rcases htwo with hspace | hspace
      · rw [Content.spaces_element hspace hattrs, List.mem_cons] at hmem
        rcases hmem with rfl | hmem
        · exact .inl rfl
        · exact hrest space hmem
      · rw [Content.spaces_element hspace hattrs, List.mem_cons] at hmem
        rcases hmem with rfl | hmem
        · exact .inr rfl
        · exact hrest space hmem

theorem addPrefix_drawnPrefixes_svg (hyper : Bool) :
    addPrefix (drawnPrefixes hyper) svgSpace = drawnPrefixes hyper := by
  cases hyper <;> rfl

theorem addPrefix_drawnPrefixes_xhtml (hyper : Bool) :
    addPrefix (drawnPrefixes hyper) xhtmlSpace = drawnPrefixes true := by
  cases hyper <;> rfl

theorem foldl_addPrefix {spaces : List Text}
    (h : ∀ space ∈ spaces, space = svgSpace ∨ space = xhtmlSpace) (hyper : Bool) :
    spaces.foldl addPrefix (drawnPrefixes hyper)
      = drawnPrefixes (hyper || spaces.contains xhtmlSpace) := by
  induction spaces generalizing hyper with
  | nil => simp
  | cons space spaces ih =>
      have hrest := ih fun s hs => h s (List.mem_cons_of_mem space hs)
      rcases h space List.mem_cons_self with rfl | rfl
      · have hne : (xhtmlSpace == svgSpace) = false := by decide
        rw [List.foldl_cons, addPrefix_drawnPrefixes_svg, hrest, List.contains_cons, hne,
          Bool.false_or]
      · rw [List.foldl_cons, addPrefix_drawnPrefixes_xhtml, hrest, List.contains_cons,
          beq_self_eq_true, Bool.true_or, Bool.or_true]

/-- The prefixes that the writer uses in a drawing. -/
theorem prefixesFor_names {e : Element} (h : e.Drawn) :
    prefixesFor e.names = drawnPrefixes (e.inner.spaces.contains xhtmlSpace) := by
  have hspaces : e.names.filterMap Name.space = svgSpace :: e.inner.spaces := by
    rw [Element.names, List.cons_append, List.filterMap_cons, h.space,
      List.filterMap_append, filterMap_space_attributes h.attrs.plain, List.nil_append]
    rfl
  have hfirst : addPrefix [] svgSpace = drawnPrefixes false := rfl
  rw [prefixesFor, hspaces, List.foldl_cons, hfirst, foldl_addPrefix h.inner.spaces,
    Bool.false_or]

-- ================================================================= names

theorem Name.fits_svg {n : Name} (hspace : n.space = some svgSpace)
    (hword : isWord n.base = true) (hyper : Bool) :
    n.Fits (drawnPrefixes hyper) (drawnScope hyper) { pre := none, base := n.base } := by
  obtain ⟨space, base⟩ := n
  obtain rfl : space = some svgSpace := hspace
  constructor
  case written => cases hyper <;> rfl
  case wordy => simpa [RawName.isWordy] using hword
  case resolved => cases hyper <;> exact fun _ => rfl

theorem Name.fits_xhtml {n : Name} (hspace : n.space = some xhtmlSpace)
    (hword : isWord n.base = true) :
    n.Fits (drawnPrefixes true) (drawnScope true)
      { pre := some "html".toList, base := n.base } := by
  obtain ⟨space, base⟩ := n
  obtain rfl : space = some xhtmlSpace := hspace
  constructor
  case written => rfl
  case wordy =>
    have hpre : isWord "html".toList = true := by decide
    simp only [RawName.isWordy, Option.all_some, hpre, Bool.true_and]
    exact hword
  case resolved => exact fun _ => rfl

/-- Every element in a drawing is read back, if hypertext is declared in
case that it occurs. -/
theorem Content.Drawn.fits {c : Content} (h : c.Drawn) {hyper : Bool}
    (hhyper : xhtmlSpace ∈ c.spaces → hyper = true) :
    c.Fits (drawnPrefixes hyper) (drawnScope hyper) := by
  induction c with
  | text t => trivial
  | element before tag attrs inner after ihInner ihAfter =>
      obtain ⟨htag, hattrs, hinner, hafter⟩ := h
      simp only [Name.isDrawn, Bool.and_eq_true, Bool.or_eq_true,
        decide_eq_true_eq] at htag
      obtain ⟨hspace, hword⟩ := htag
      have hrest : xhtmlSpace ∈ inner.spaces ++ after.spaces → hyper = true := by
        intro hmem
        apply hhyper
        rcases hspace with hspace | hspace
        · rw [Content.spaces_element hspace hattrs]
          exact List.mem_cons_of_mem _ hmem
        · rw [Content.spaces_element hspace hattrs]
          exact List.mem_cons_self
      refine ⟨?_, hattrs, ihInner hinner fun hmem => hrest (List.mem_append_left _ hmem),
        ihAfter hafter fun hmem => hrest (List.mem_append_right _ hmem)⟩
      rcases hspace with hspace | hspace
      · exact ⟨_, Name.fits_svg hspace hword hyper⟩
      · obtain rfl : hyper = true := by
          apply hhyper
          rw [Content.spaces_element hspace hattrs]
          exact List.mem_cons_self
        exact ⟨_, Name.fits_xhtml hspace hword⟩

-- ========================================================== declarations

/-- The declarations of a drawing, as they are spelled. -/
def spellDeclarations (hyper : Bool) : List Spelled :=
  ({ pre := none, base := declarationWord }, svgSpace) ::
    if hyper then [({ pre := some declarationWord, base := "html".toList }, xhtmlSpace)]
    else []

theorem writeDeclarations_eq (hyper : Bool) :
    writeDeclarations (drawnPrefixes hyper) = writeSpelled (spellDeclarations hyper) := by
  have hsorted : (drawnPrefixes hyper).mergeSort (fun a b => !decide (b.2 < a.2))
      = drawnPrefixes hyper := by
    apply List.mergeSort_of_pairwise
    cases hyper <;> decide
  unfold writeDeclarations
  rw [hsorted]
  cases hyper <;> rfl

theorem isPlain_of_mem_spellDeclarations {hyper : Bool} {a : Spelled}
    (h : a ∈ spellDeclarations hyper) : a.isPlain = true := by
  have hall : ∀ hyper, (spellDeclarations hyper).all Spelled.isPlain = true := by
    intro hyper
    cases hyper <;> decide
  exact List.all_eq_true.1 (hall hyper) a h

/-- The declarations bring into scope what a drawing needs. -/
theorem addAttributes_spellDeclarations (tag : Text) (hyper : Bool)
    (as : List Spelled) :
    addAttributes tag [] Scope.initial (spellDeclarations hyper ++ as)
      = addAttributes tag [] (drawnScope hyper) as := by
  cases hyper <;> rfl

/-- The names in the outermost tag of a drawing differ. -/
theorem nodup_spelled {attrs : Attributes} (h : PlainAttributes.Of attrs)
    (hyper : Bool) :
    ((spellDeclarations hyper ++ spellAttributes attrs).map Prod.fst).Nodup := by
  have hdeclared : ((spellDeclarations hyper).map Prod.fst).Nodup := by
    cases hyper <;> decide
  rw [List.map_append, List.nodup_append]
  refine ⟨hdeclared, h.nodup_spellAttributes, ?_⟩
  intro r hr s hs heq
  subst heq
  obtain ⟨a, ha, rfl⟩ := List.mem_map.1 hs
  obtain ⟨d, hd, rfl⟩ := List.mem_map.1 ha
  have hplain := h.plain d hd
  simp only [isPlainAttribute, Bool.and_eq_true, bne_iff_ne] at hplain
  have hnot : ∀ hyper, ∀ a ∈ spellDeclarations hyper,
      a.1.pre = none → a.1.base = declarationWord := by
    intro hyper
    cases hyper <;> decide
  obtain ⟨e, he, heq⟩ := List.mem_map.1 hr
  exact hplain.1.2 (by simpa [heq, spellBase] using hnot hyper e he (by rw [heq]; rfl))

-- ============================================================== documents

/-- A document that begins with a tag is made of its characters. -/
theorem Document.ofText_bracket {c : Char} (hc : isNameStart c = true) (s : Text) :
    Document.ofText ('<' :: c :: s) = { text := '<' :: c :: s } := by
  have hzero : c ≠ '\x00' := ne_of_isNameStart hc (by decide)
  unfold Document.ofText
  split
  · next heq => cases heq
  · next heq =>
      have := (List.cons.inj (List.cons.inj heq).2).1
      exact absurd this hzero
  · rfl

/-- A document that is one element is read by reading the element. -/
theorem Element.ofDocument_bracket {c : Char} (hc : isNameStart c = true) (s : Text) :
    Element.ofDocument { text := '<' :: c :: s }
      = (readElement (.document .utf8 .nothing) {}
          (.ofDocument { text := '<' :: c :: s }) ('<' :: c :: s)).bind
          fun (e, rest) => (readEpilog (.document .utf8 .nothing) rest).map fun _ => e := by
  have hstart : startsElement .utf8 ('<' :: c :: s) = true := by
    simp [startsElement, hc]
  have hprolog : ∀ b, readProlog
      { source := .document .utf8 .nothing, budget := b } ('<' :: c :: s)
      = .ok ({ source := .document .utf8 .nothing, budget := b }, '<' :: c :: s) := by
    intro b
    unfold readProlog
    exact (if_pos hstart).trans rfl
  have hmark : dropByteOrderMark ('<' :: c :: s) = '<' :: c :: s := rfl
  unfold Element.ofDocument
  simp only [Document.source, hmark, hprolog, bind, Except.bind]
  cases readElement (.document .utf8 .nothing) {}
      (.ofDocument { text := '<' :: c :: s }) ('<' :: c :: s) with
  | error flaw => rfl
  | ok found =>
      obtain ⟨e, rest⟩ := found
      simp only
      cases readEpilog (.document .utf8 .nothing) rest <;> rfl

/-- The outermost tag of a drawing opens the frame of its element, or is
the whole of it. -/
theorem enter_drawn {e : Element} (h : e.Drawn) {w : Surroundings} (hw : w.Plain)
    (b : Budget) (place : Text) {hyper isWhole : Bool} {raws : List RawAttribute}
    (hspelled : raws.map RawAttribute.spelled
      = spellDeclarations hyper ++ spellAttributes e.attrs) :
    Progress.enter w b place []
        { name := { pre := none, base := e.tag.base }, attrs := raws, isWhole := isWhole }
      = .ok
          (let f := Frame.ofTag e.tag.base
            { name := e.tag, attrs := e.attrs, scope := drawnScope hyper }
          (if isWhole then .closed f else .inside f [], b)) := by
  have hplain : ∀ a ∈ spellDeclarations hyper ++ spellAttributes e.attrs,
      a.isPlain = true := by
    intro a ha
    rcases List.mem_append.1 ha with ha | ha
    · exact isPlain_of_mem_spellDeclarations ha
    · exact isPlain_of_mem_spellAttributes h.attrs a ha
  have hadd : addAttributes place [] Scope.initial
      (spellDeclarations hyper ++ spellAttributes e.attrs)
      = .ok (spellAttributes e.attrs, drawnScope hyper) := by
    rw [addAttributes_spellDeclarations, addAttributes_spellAttributes h.attrs.plain,
      List.nil_append]
  have hresolve := resolve_eq w hw.declarations b place isWhole hspelled hplain
    (nodup_spelled h.attrs hyper) hadd h.attrs.plain
    ((Name.fits_svg h.space h.word hyper).resolved place)
  unfold Progress.enter
  simp only [List.head?_nil, Option.map_none, Option.getD_none, hresolve, bind,
    Except.bind]
  cases isWhole <;> rfl

/-- What is written for a drawing: a tag with declarations, and what is
inside. -/
theorem write_drawn {e : Element} (h : e.Drawn) :
    e.write
      = writeElement e.tag.base
          (writeSpelled (spellDeclarations (e.inner.spaces.contains xhtmlSpace) ++
            spellAttributes e.attrs))
          (e.inner.write (drawnPrefixes (e.inner.spaces.contains xhtmlSpace))) := by
  have hname := (Name.fits_svg h.space h.word
    (e.inner.spaces.contains xhtmlSpace)).written
  have happend : ∀ as bs : List Spelled,
      writeSpelled as ++ writeSpelled bs = writeSpelled (as ++ bs) :=
    fun as bs => List.flatMap_append.symm
  unfold Element.write
  rw [prefixesFor_names h]
  simp only
  rw [hname, writeDeclarations_eq, writeAttributes_eq _ h.attrs.plain, happend]
  rfl

/-- Reading a written drawing is reading what is inside it, up to its end
tag. -/
theorem readElement_write {e : Element} (h : e.Drawn) (b : Budget) :
    ∃ w : Surroundings, w.Plain ∧ ∃ hyper, e.inner.Fits (drawnPrefixes hyper)
        (drawnScope hyper) ∧
      readElement (.document .utf8 .nothing) {} b e.write
        = if e.inner = .text [] then .ok (e, [])
          else
            (readContent w b
              (Frame.ofTag e.tag.base
                { name := e.tag, attrs := e.attrs, scope := drawnScope hyper }) []
              (e.inner.write (drawnPrefixes hyper) ++
                '<' :: '/' :: (e.tag.base ++ ['>']))).map
              fun (f, rest, _) => (f.close, rest) := by
  have hw : ∀ rest, (Surroundings.ofDeclarations (.document .utf8 .nothing) {} b
      rest).Plain := fun rest => ⟨⟨_, _, rfl⟩, rfl⟩
  have hplain : ∀ hyper, ∀ a ∈ spellDeclarations hyper ++ spellAttributes e.attrs,
      a.isPlain = true := by
    intro hyper a ha
    rcases List.mem_append.1 ha with ha | ha
    · exact isPlain_of_mem_spellDeclarations ha
    · exact isPlain_of_mem_spellAttributes h.attrs a ha
  have hword : RawName.isWordy { pre := none, base := e.tag.base } = true := by
    simpa [RawName.isWordy] using h.word
  refine ⟨_, hw (e.inner.write (drawnPrefixes (e.inner.spaces.contains xhtmlSpace)) ++
    '<' :: '/' :: (e.tag.base ++ ['>'])), e.inner.spaces.contains xhtmlSpace,
    h.inner.fits fun hmem => by simpa using hmem, ?_⟩
  rw [write_drawn h, ← List.append_nil (writeElement _ _ _), writeElement_eq]
  generalize e.inner.spaces.contains xhtmlSpace = hyper
  by_cases hempty : e.inner.write (drawnPrefixes hyper) = []
  · obtain ⟨raws, hraws, hspelled⟩ := scanStartTag_append hword (hplain hyper) true []
    simp only [RawName.spelling] at hraws
    have hinner := write_eq_nil.1 hempty
    rw [if_pos hempty, if_pos hinner]
    unfold readElement
    rw [List.tail_cons, hraws]
    simp only
    rw [enter_drawn h (hw []) b _ hspelled]
    obtain ⟨tag, attrs, inner⟩ := e
    obtain rfl : inner = .text [] := hinner
    rfl
  · obtain ⟨raws, hraws, hspelled⟩ := scanStartTag_append hword (hplain hyper) false
      (e.inner.write (drawnPrefixes hyper) ++ '<' :: '/' :: (e.tag.base ++ ['>']))
    simp only [RawName.spelling] at hraws
    rw [if_neg hempty, if_neg (fun hinner => hempty (write_eq_nil.2 hinner))]
    unfold readElement
    rw [List.tail_cons, hraws]
    simp only
    rw [enter_drawn h (hw _) b _ hspelled]
    simp only [bind, Except.bind, Bool.false_eq_true, if_false]
    cases readContent _ b _ [] _ <;> rfl

/-- The end tag of a drawing ends the reading. -/
theorem readContent_lastTag {w : Surroundings} (hw : w.Plain) {b : Budget} {f : Frame}
    {base : Text} (hword : isWord base = true) (hf : f.spelling = base) (s : Text) :
    readContent w b f [] ('<' :: '/' :: (base ++ '>' :: s)) = .ok (f, s, b) := by
  subst hf
  have hscan := @scanBracketed_endTag { pre := none, base := f.spelling }
    (by simpa [RawName.isWordy] using hword) w.source s
  exact readContent_closed hscan (step_endTag (hw.before b s) _ _)

/-- A written drawing begins with a tag. -/
theorem exists_cons_write {e : Element} (h : e.Drawn) :
    ∃ c s, e.write = '<' :: c :: s ∧ isNameStart c = true := by
  have hword : RawName.isWordy { pre := none, base := e.tag.base } = true := by
    simpa [RawName.isWordy] using h.word
  obtain ⟨c, t, hbase, hc, -⟩ := exists_cons_spelling hword
  simp only [RawName.spelling] at hbase
  rw [write_drawn h, ← List.append_nil (writeElement _ _ _), writeElement_eq, hbase]
  split
  · exact ⟨c, _, rfl, hc⟩
  · exact ⟨c, _, rfl, hc⟩

/-- A document that is a written drawing is read as far as the element
is. -/
theorem Element.ofDocument_write {e : Element} (h : e.Drawn) :
    ∃ b, Element.ofDocument (.ofText e.write)
      = (readElement (.document .utf8 .nothing) {} b e.write).bind
          fun (e, rest) => (readEpilog (.document .utf8 .nothing) rest).map fun _ => e := by
  obtain ⟨c, s, hwrite, hc⟩ := exists_cons_write h
  rw [hwrite, Document.ofText_bracket hc, Element.ofDocument_bracket hc]
  exact ⟨_, rfl⟩

theorem readEpilog_nil : readEpilog (.document .utf8 .nothing) [] = .ok () := by
  rw [readEpilog, if_neg (by decide)]
  rfl

end FreeLabel.Markup

namespace FreeLabel

open Markup (Element Frame drawnScope readContent_write readContent_illegal readContent_lastTag
  readElement_write readEpilog_nil)
open Text (normalizeLineEnds)

/-- A written drawing is read if and only if its texts may stand in a
document. What is read has line feeds for line ends, and is otherwise the
drawing. -/
theorem readDrawing_write {e e' : Element} (h : e.Drawn) :
    readDrawing e.write = .ok e'
      ↔ e.inner.isXml = true ∧ e' = e.mapTexts normalizeLineEnds := by
  obtain ⟨b, hdocument⟩ := Element.ofDocument_write h
  obtain ⟨w, hw, hyper, hfits, hread⟩ := readElement_write h b
  have hok : ∀ e', readDrawing e.write = .ok e'
      ↔ Element.ofDocument (.ofText e.write) = .ok e' := by
    intro e'
    unfold readDrawing
    simp only
    cases Element.ofDocument (.ofText e.write) with
    | error flaw => exact ⟨nofun, nofun⟩
    | ok e =>
        constructor <;>
          intro h <;> cases h <;> rfl
  rw [hok, hdocument, hread]
  by_cases hempty : e.inner = .text []
  · have hxml : e.inner.isXml = true := by
      rw [hempty]
      rfl
    have hself : e.mapTexts normalizeLineEnds = e := by
      obtain ⟨tag, attrs, inner⟩ := e
      obtain rfl : inner = .text [] := hempty
      rfl
    rw [if_pos hempty, hself]
    simp [Except.bind, readEpilog_nil, Except.map, hxml, eq_comm]
  · rw [if_neg hempty]
    cases hxml : e.inner.isXml with
    | true =>
        rw [readContent_write hw (f := .ofTag _ { scope := drawnScope hyper, .. }) hfits hxml,
          readContent_lastTag hw h.word (by rw [Frame.spelling_fill]; rfl)]
        simp only [Except.map, Except.bind, readEpilog_nil, Frame.close_fill_ofTag]
        simp [Element.mapTexts, eq_comm]
    | false =>
        let f := Frame.ofTag e.tag.base
          { name := e.tag, attrs := e.attrs, scope := drawnScope hyper }
        obtain ⟨flaw, hflaw⟩ : ∃ flaw, Markup.readContent w b f []
            (e.inner.write _ ++ '<' :: '/' :: (e.tag.base ++ ['>'])) = .error flaw :=
          readContent_illegal hw hfits hxml _
        rw [hflaw]
        simp [Except.map, Except.bind]

end FreeLabel
