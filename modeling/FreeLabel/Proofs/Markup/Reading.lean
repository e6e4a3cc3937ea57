/-
Content as it is written is read back, element by element.

# The invariant

`Frame.fill` says what reading content does to the innermost open element:
texts are pushed, elements added. Reading what was written for content
does exactly that and leaves everything else alone: the elements around,
the budget, and what follows (`readContent_write`). The induction is on
the content. An element is read in three steps: its start tag opens a
frame (`readContent_startTag`), the induction hypothesis fills it, its end
tag closes it (`readContent_endTag`); what comes after the element is the
second hypothesis.

Line ends come back as line feeds, so `Content.mapTexts normalizeLineEnds`
and not the content itself is what is read. Content that holds a character
which no document may hold is not read at all.
-/
import FreeLabel.Proofs.Markup.Resolve
import FreeLabel.Proofs.Markup.Texts

namespace FreeLabel.Markup

open Text (normalizeLineEnds)

-- ================================================================= texts

/-- Content with a function applied to its texts. -/
def Content.mapTexts (g : Text → Text) : Content → Content
  | .text t => .text (g t)
  | .element before tag attrs inner after =>
    .element (g before) tag attrs (inner.mapTexts g) (after.mapTexts g)

/-- Whether all texts in the content can be read. -/
def Content.isXml : Content → Bool
  | .text t => isXmlText t
  | .element before _ _ inner after => isXmlText before && inner.isXml && after.isXml

/-- An element with a function applied to its texts. -/
def Element.mapTexts (g : Text → Text) (e : Element) : Element :=
  { e with inner := e.inner.mapTexts g }

-- ================================================================ frames

/-- What reading content makes of the innermost open element. -/
def Frame.fill (f : Frame) : Content → Frame
  | .text t => f.pushAll t
  | .element before tag attrs inner after =>
    ((f.pushAll before).add { tag := tag, attrs := attrs, inner := inner }).fill after

@[simp] theorem Frame.scope_pushAll (f : Frame) (t : Text) :
    (f.pushAll t).scope = f.scope := rfl

@[simp] theorem Frame.scope_fill (f : Frame) (c : Content) :
    (f.fill c).scope = f.scope := by
  induction c generalizing f with
  | text t => rfl
  | element before tag attrs inner after _ ih => exact ih _

@[simp] theorem Frame.spelling_fill (f : Frame) (c : Content) :
    (f.fill c).spelling = f.spelling := by
  induction c generalizing f with
  | text t => rfl
  | element before tag attrs inner after _ ih => exact ih _

theorem Frame.tag_fill (f : Frame) (c : Content) : (f.fill c).tag = f.tag := by
  induction c generalizing f with
  | text t => rfl
  | element before tag attrs inner after _ ih => exact ih _

theorem Frame.attrs_fill (f : Frame) (c : Content) : (f.fill c).attrs = f.attrs := by
  induction c generalizing f with
  | text t => rfl
  | element before tag attrs inner after _ ih => exact ih _

theorem Content.prepend_nil (c : Content) : c.prepend [] = c := by
  cases c <;> rfl

/-- A filled frame holds what it held, and then the content. -/
theorem Frame.content_fill (f : Frame) (c : Content) :
    Frame.content (f.fill c).children (f.fill c).text.reverse
      = f.children.foldl
          (fun after (before, e) => .element before e.tag e.attrs e.inner after)
          (c.prepend f.text.reverse) := by
  induction c generalizing f with
  | text t => simp [Frame.fill, Frame.pushAll, Frame.content, Content.prepend]
  | element before tag attrs inner after _ ih =>
      have hempty : (((f.pushAll before).add
          { tag := tag, attrs := attrs, inner := inner }).text).reverse = [] := rfl
      rw [Frame.fill, ih, hempty, Content.prepend_nil]
      simp [Frame.add, Frame.pushAll, Content.prepend]

/-- A frame that is filled and closed is the element. -/
theorem Frame.close_fill_ofTag (spelling : Text) (n : Name) (attrs : Attributes)
    (scope : Scope) (c : Content) :
    ((Frame.ofTag spelling { name := n, attrs := attrs, scope := scope }).fill c).close
      = { tag := n, attrs := attrs, inner := c } := by
  rw [Frame.close, Frame.content_fill, Frame.tag_fill, Frame.attrs_fill]
  simp [Frame.ofTag, Content.prepend_nil]

-- ============================================================== one step

variable {w : Surroundings} {b : Budget} {f : Frame} {outer : List Frame}

/-- Markup between texts is read as what it does to the open elements. -/
theorem readContent_bracket {m : Bracketed} {s rest : Text}
    (hscan : scanBracketed w.source s = .found m rest)
    {g : Frame} {around : List Frame} {b' : Budget}
    (hstep : Progress.step (w.before b rest) b f outer ('<' :: s) m
      = .ok (.inside g around, b')) :
    readContent w b f outer ('<' :: s) = readContent w b' g around rest := by
  rw [readContent, if_pos rfl]
  · split
    · next hfound =>
        rw [hscan] at hfound
        cases hfound
        rw [hstep]
    · next hnone => exact absurd hscan (hnone _ _)
  all_goals simp

/-- The end tag of the outermost element ends the reading. -/
theorem readContent_closed {m : Bracketed} {s rest : Text}
    (hscan : scanBracketed w.source s = .found m rest)
    {g : Frame} {b' : Budget}
    (hstep : Progress.step (w.before b rest) b f outer ('<' :: s) m
      = .ok (.closed g, b')) :
    readContent w b f outer ('<' :: s) = .ok (g, rest, b') := by
  rw [readContent, if_pos rfl]
  · split
    · next hfound =>
        rw [hscan] at hfound
        cases hfound
        rw [hstep]
    · next hnone => exact absurd hscan (hnone _ _)
  all_goals simp

variable {ps : Prefixes} {n : Name} {r : RawName} {attrs : Attributes}

/-- A written start tag opens a frame, or adds its element if the tag is
the whole of it. -/
theorem readContent_startTag (hw : w.Plain) (hn : n.Fits ps f.scope r)
    (hattrs : PlainAttributes.Of attrs) (isWhole : Bool) (s : Text) :
    readContent w b f outer
        ('<' :: (writeName ps n ++ (writeAttributes ps attrs ++ (tagEnd isWhole ++ s))))
      = if isWhole then
          readContent w b (f.add { tag := n, attrs := attrs, inner := .text [] }) outer s
        else
          readContent w b
            (Frame.ofTag r.spelling { name := n, attrs := attrs, scope := f.scope })
            (f :: outer) s := by
  obtain ⟨raws, hraws, hspelled⟩ :=
    scanStartTag_append hn.wordy (isPlain_of_mem_spellAttributes hattrs) isWhole s
  have hscan : scanBracketed w.source
      (r.spelling ++ (writeSpelled (spellAttributes attrs) ++ (tagEnd isWhole ++ s)))
      = .found (.startTag { name := r, attrs := raws, isWhole := isWhole }) s := by
    rw [scanBracketed_append hn.wordy, hraws]
    rfl
  have hresolve := fun place => resolve_of_fits (w.before b s) (hw.before b s).declarations b
    place isWhole hn hattrs hspelled
  rw [hn.written, writeAttributes_eq ps hattrs.plain]
  cases isWhole with
  | true =>
      rw [if_pos rfl]
      refine readContent_bracket hscan ?_
      unfold Progress.step Progress.enter
      simp only [List.head?_cons, Option.map_some, Option.getD_some, hresolve, bind,
        Except.bind, if_true]
      rfl
  | false =>
      rw [if_neg (by decide)]
      refine readContent_bracket hscan ?_
      unfold Progress.step Progress.enter
      simp only [List.head?_cons, Option.map_some, Option.getD_some, hresolve, bind,
        Except.bind]
      rfl

/-- What a written end tag does. -/
theorem step_endTag (hw : w.Plain) (place s : Text) :
    Progress.step w b f outer place (.endTag f.spelling s)
      = .ok (.close f outer, b) := by
  obtain ⟨encoding, tail, hsource⟩ := hw.document
  unfold Progress.step
  simp only
  rw [if_neg (by simp [hsource]), if_pos trivial]

/-- A written end tag closes the innermost frame. -/
theorem readContent_endTag (hw : w.Plain) (hr : r.isWordy = true)
    (hf : f.spelling = r.spelling) (g : Frame) (s : Text) :
    readContent w b f (g :: outer) ('<' :: '/' :: (r.spelling ++ '>' :: s))
      = readContent w b (g.add f.close) outer s := by
  refine readContent_bracket (scanBracketed_endTag hr w.source s) ?_
  rw [← hf]
  exact step_endTag (hw.before b s) _ _

-- =============================================================== content

/-- What is written for an element. -/
theorem writeElement_eq (name as inner s : Text) :
    writeElement name as inner ++ s
      = if inner = [] then '<' :: (name ++ (as ++ (tagEnd true ++ s)))
        else '<' :: (name ++ (as ++ (tagEnd false ++
          (inner ++ '<' :: '/' :: (name ++ '>' :: s))))) := by
  unfold writeElement
  split
  · simp [tagEnd]
  · next hne =>
      rw [if_neg hne]
      simp [tagEnd]

/-- Nothing is written for content that says nothing, and only for that. -/
theorem write_eq_nil {ps : Prefixes} {c : Content} :
    c.write ps = [] ↔ c = .text [] := by
  constructor
  · intro h
    cases c with
    | text t =>
        cases t with
        | nil => rfl
        | cons d t =>
            obtain ⟨e, u, hescape, -, -⟩ := exists_cons_escapeTextChar d
            rw [Content.write, escapeText_cons, hescape] at h
            cases h
    | element before tag attrs inner after =>
        rw [Content.write, List.append_assoc, List.append_eq_nil_iff, writeElement_eq] at h
        split at h <;> cases h.2
  · rintro rfl
    rfl

/-- Written content is read back into the innermost open element. -/
theorem readContent_write (hw : w.Plain) {c : Content} (hfits : c.Fits ps f.scope)
    (hxml : c.isXml = true) (s : Text) :
    readContent w b f outer (c.write ps ++ '<' :: s)
      = readContent w b (f.fill (c.mapTexts normalizeLineEnds)) outer ('<' :: s) := by
  induction c generalizing f outer s with
  | text t => exact readContent_escapeText hw (bounds_bracket s) hxml
  | element before tag attrs inner after ihInner ihAfter =>
      obtain ⟨⟨r, hn⟩, hattrs, hinner, hafter⟩ := hfits
      simp only [Content.isXml, Bool.and_eq_true] at hxml
      have hbefore : ∀ u, readContent w b f outer (escapeText before ++ '<' :: u)
          = readContent w b (f.pushAll (normalizeLineEnds before)) outer ('<' :: u) :=
        fun u => readContent_escapeText hw (bounds_bracket u) hxml.1.1
      have hrest : ∀ e : Element,
          readContent w b ((f.pushAll (normalizeLineEnds before)).add e) outer
              (after.write ps ++ '<' :: s)
            = readContent w b (((f.pushAll (normalizeLineEnds before)).add e).fill
                (after.mapTexts normalizeLineEnds)) outer ('<' :: s) :=
        fun e => ihAfter (f := (f.pushAll _).add e) hafter hxml.2 s
      rw [Content.write, List.append_assoc, List.append_assoc, writeElement_eq]
      by_cases hempty : inner.write ps = []
      · obtain rfl := write_eq_nil.1 hempty
        rw [if_pos hempty, hbefore, readContent_startTag hw (f := f.pushAll _) hn hattrs, if_pos rfl, hrest]
        rfl
      · rw [if_neg hempty, hbefore, readContent_startTag hw (f := f.pushAll _) hn hattrs, if_neg (by decide),
          Frame.scope_pushAll, ihInner (f := .ofTag _ { scope := f.scope, .. }) hinner hxml.1.2,
          hn.written,
          readContent_endTag hw hn.wordy (by rw [Frame.spelling_fill]; rfl),
          Frame.close_fill_ofTag, hrest]
        rfl

/-- Content that no document may hold is not read. -/
theorem readContent_illegal (hw : w.Plain) {c : Content} (hfits : c.Fits ps f.scope)
    (hxml : c.isXml = false) (s : Text) :
    ∃ flaw, readContent w b f outer (c.write ps ++ '<' :: s) = .error flaw := by
  induction c generalizing f outer s with
  | text t => exact readContent_illegalText hw hxml _
  | element before tag attrs inner after ihInner ihAfter =>
      obtain ⟨⟨r, hn⟩, hattrs, hinner, hafter⟩ := hfits
      rw [Content.write, List.append_assoc, List.append_assoc]
      -- the first text that is not legal is met before, inside or after
      by_cases hbefore : isXmlText before = true
      · rw [writeElement_eq]
        have hstart : ∀ u, readContent w b f outer (escapeText before ++ '<' :: u)
            = readContent w b (f.pushAll (normalizeLineEnds before)) outer ('<' :: u) :=
          fun u => readContent_escapeText hw (bounds_bracket u) hbefore
        by_cases hlegal : inner.isXml = true
        · have hrest : ∀ e : Element, ∃ flaw,
              readContent w b ((f.pushAll (normalizeLineEnds before)).add e) outer
                (after.write ps ++ '<' :: s) = .error flaw :=
            fun e => ihAfter (f := (f.pushAll _).add e) hafter
              (by simpa [Content.isXml, hbefore, hlegal] using hxml) s
          by_cases hempty : inner.write ps = []
          · rw [if_pos hempty, hstart, readContent_startTag hw (f := f.pushAll _) hn hattrs, if_pos rfl]
            exact hrest _
          · rw [if_neg hempty, hstart, readContent_startTag hw (f := f.pushAll _) hn hattrs,
              if_neg (by decide), readContent_write hw (f := .ofTag _ _) hinner hlegal,
              hn.written,
              readContent_endTag hw hn.wordy (by rw [Frame.spelling_fill]; rfl)]
            exact hrest _
        · have hne : inner.write ps ≠ [] := by
            intro hempty
            obtain rfl := write_eq_nil.1 hempty
            exact hlegal rfl
          rw [if_neg hne, hstart, readContent_startTag hw (f := f.pushAll _) hn hattrs, if_neg (by decide)]
          exact ihInner (f := .ofTag _ { scope := f.scope, .. }) hinner (by simpa using hlegal) _
      · exact readContent_illegalText hw (by simpa using hbefore) _

end FreeLabel.Markup
