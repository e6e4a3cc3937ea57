/-
What names cannot do to a drawing.

# Without texts

`Element.bare` is what is left of a drawing without its texts: the
elements with their names, their attributes and their order. Putting names
in changes texts and nothing else, so it leaves the bare drawing as it is
(`bare_restore`).

# Written and read again

That holds of the tree. A restored drawing is handed on as a text, though,
and a name may hold anything that looks like markup there. But it is
escaped where it is written: what is read again, if it is read at all, is
the restored drawing up to line ends (`readDrawing_write`), and so nothing
that a name holds becomes an element, an attribute or an end of one
(`bare_of_restored`).
-/
import FreeLabel.Proofs.Restore.Readable

namespace FreeLabel.Markup

/-- Content without its texts. -/
def Content.bare (c : Content) : Content := c.mapTexts fun _ => []

/-- An element without the texts in it: the elements, with their names and
attributes, in their order. -/
def Element.bare (e : Element) : Element := { e with inner := e.inner.bare }

/-- Changing texts changes nothing else. -/
theorem Content.bare_mapTexts (g : Text → Text) (c : Content) :
    (c.mapTexts g).bare = c.bare := by
  unfold bare
  induction c with
  | text t => rfl
  | element before tag attrs inner after ihInner ihAfter =>
      rw [mapTexts, mapTexts, mapTexts, ihInner, ihAfter]

theorem Element.bare_mapTexts (g : Text → Text) (e : Element) :
    (e.mapTexts g).bare = e.bare := by
  unfold bare mapTexts
  rw [Content.bare_mapTexts]

end FreeLabel.Markup

namespace FreeLabel.Restore

open Markup (Content Element)
open Naming (Legend)

/-- Names are put into texts, whatever surrounds them. -/
theorem bare_mapLabels (f : Text → Text) (depth lead : Nat) (c : Content) :
    (mapLabels f depth lead c).bare = c.bare := by
  unfold Content.bare
  induction c generalizing depth lead with
  | text t => rfl
  | element before tag attrs inner after ihInner ihAfter =>
      rw [mapLabels, Content.mapTexts, Content.mapTexts, ihInner, ihAfter]

/-- Restoration leaves a drawing as it is but for its texts. -/
theorem bare_restore (l : Legend) (e : Element) : (restore l false e).bare = e.bare := by
  unfold restore
  split
  next => rfl
  next =>
    simp only [Bool.false_eq_true, if_false]
    unfold mapElementLabels Element.bare
    rw [bare_mapLabels]

end FreeLabel.Restore

namespace FreeLabel

open Markup (Element Label)
open Naming (Legend)
open Text (normalizeLineEnds)

variable {diagram drawing : Text} {element again : Element}

/-- Names cannot inject markup. Whatever names are put into a drawing, if
the text that is written then can be read, it is read as the restored
drawing, with line feeds for line ends; and this has the elements of the
drawing before, with the same names, the same attributes and in the same
order. -/
theorem bare_of_restored (hdraw : draw diagram = .ok drawing)
    (hread : readDrawing drawing = .ok element) (l : Legend)
    (hagain : readDrawing (restore l false element).write = .ok again) :
    again.bare = element.bare
      ∧ again = (restore l false element).mapTexts normalizeLineEnds := by
  obtain ⟨e, -, rfl, hdrawn, -⟩ := Drawing.exists_markup_of_draw hdraw
  obtain ⟨-, rfl⟩ := (readDrawing_write hdrawn).1 hread
  have hdrawn' : (e.mapTexts normalizeLineEnds).Drawn :=
    { hdrawn with inner := hdrawn.inner.mapTexts _ }
  obtain ⟨-, hrestored⟩ := (readDrawing_write (Restore.drawn_restore hdrawn' l false)).1 hagain
  refine ⟨?_, hrestored⟩
  rw [hrestored, Element.bare_mapTexts, Restore.bare_restore]

/-- A name that ends its label, opens a script, and has a comment and a
section behind it. -/
def hostileName : Text := "</p><script>\"&lt;'</script><!-- ]]> <![CDATA[".toList

/-- The legend that gives the hostile name to two identifiers, of which one
begins the other. -/
def hostileLegend : Legend where
  entries := [("a".toList, hostileName), ("ab".toList, '<' :: hostileName)]
  nodup_ids := by decide

/-- A drawing of two nodes with the hostile name in them is read, and it is
bare what it was. -/
theorem bare_of_restored_hostile :
    ∃ drawing element again,
      draw "flowchart TD\na --> ab".toList = .ok drawing
        ∧ readDrawing drawing = .ok element
        ∧ readDrawing (restore hostileLegend false element).write = .ok again
        ∧ again.bare = element.bare
        ∧ again.labels []
          = [{ role := "nodeLabel".toList, text := hostileName },
            { role := "nodeLabel".toList, text := '<' :: hostileName }] := by
  obtain ⟨drawing, element, hdraw, hread, hlabels⟩ := exists_drawn
    "flowchart TD\na --> ab".toList
    [{ role := "nodeLabel".toList, text := "a".toList },
      { role := "nodeLabel".toList, text := "ab".toList }]
    (by decide +kernel) (by decide +kernel)
  have hne : [] ∉ hostileLegend.ids := by decide
  have hlegal : ∀ entry ∈ hostileLegend.entries, Markup.isXmlText entry.2 = true := by decide
  obtain ⟨again, hagain⟩ := (readable_restore_iff hdraw hread hne false).2 <| by
    intro label _ name hput
    obtain ⟨id, hheld⟩ := hput.exists_id
    exact hlegal (id, name) (Legend.get?_eq_some_iff.1 hheld)
  obtain ⟨hbare, heq⟩ := bare_of_restored hdraw hread hostileLegend hagain
  refine ⟨drawing, element, again, hdraw, hread, hagain, hbare, ?_⟩
  obtain ⟨-, -, -, hrestored⟩ := Drawing.labels_of_draw hdraw hread hostileLegend false []
  have hname : hostileLegend.substitute "a".toList = hostileName :=
    Legend.substitute_id hne (by decide)
  have hname' : hostileLegend.substitute "ab".toList = '<' :: hostileName :=
    Legend.substitute_id hne (by decide)
  rw [heq, Element.labels_mapTexts, hrestored, hlabels]
  simp only [List.map_cons, List.map_nil, Label.map]
  have hkept : normalizeLineEnds "a".toList = "a".toList
      ∧ normalizeLineEnds "ab".toList = "ab".toList
      ∧ normalizeLineEnds hostileName = hostileName
      ∧ normalizeLineEnds ('<' :: hostileName) = '<' :: hostileName := by decide
  obtain ⟨ha, hab, hhostile, hhostile'⟩ := hkept
  rw [ha, hab, hname, hname', hhostile, hhostile']

end FreeLabel
