/-
What is drawn offline is not deep.

An element that is put together of others is one deeper than the deepest of
them (`depth_svg_le`), so the depth of a drawing is counted from its labels
outwards: a row of an entity stands in two groups, and the text of a node in
three groups and in the four elements of its label.
-/
import FreeLabel.Proofs.Drawing.Shown
import FreeLabel.Proofs.Markup.Depth

namespace FreeLabel.Drawing

open Markup (Attributes Content Element)

-- ============================================================== in a row

theorem depth_ofElements_le {n : Nat} {es : List Element} (h : ∀ e ∈ es, e.depth ≤ n) :
    (Content.ofElements es).depth ≤ n := by
  induction es with
  | nil => exact Nat.zero_le n
  | cons e es ih =>
      have hhead : e.depth ≤ n := h e List.mem_cons_self
      have htail := ih fun d hd => h d (List.mem_cons_of_mem e hd)
      exact Nat.max_le.2 ⟨hhead, htail⟩

theorem depth_svg_le {n : Nat} {base : String} {attrs : Attributes} {es : List Element}
    (h : ∀ e ∈ es, e.depth ≤ n) : (svg base attrs es).depth ≤ n + 1 :=
  Nat.succ_le_succ (depth_ofElements_le h)

-- ================================================================ layouts

theorem ErLayout.depth_markup_le (l : ErLayout) : l.markup.depth ≤ 4 := by
  have hcell : ∀ (cells : List Cell), ∀ e ∈ cells.map Cell.markup, e.depth ≤ 1 := by
    intro cells e he
    obtain ⟨c, -, rfl⟩ := List.mem_map.1 he
    exact Nat.le_refl 1
  refine depth_svg_le fun e he => ?_
  obtain rfl := List.mem_singleton.1 he
  refine depth_svg_le fun e he => ?_
  rcases List.mem_append.1 he with he | he
  · obtain ⟨b, -, rfl⟩ := List.mem_map.1 he
    exact depth_svg_le (List.forall_mem_cons.2 ⟨Nat.le_refl 1, hcell _⟩)
  · obtain ⟨p, -, rfl⟩ := List.mem_map.1 he
    exact depth_svg_le (List.forall_mem_cons.2 ⟨Nat.le_refl 1, hcell _⟩)

theorem depth_labelBox (x y : Nat) (label : Text) (role : String) :
    (labelBox x y label role).depth = 4 := rfl

theorem FlowLayout.depth_markup_le (l : FlowLayout) : l.markup.depth ≤ deepest := by
  have hnode : ∀ e ∈ l.nodes.map PlacedNode.markup, e.depth ≤ 5 := by
    intro e he
    obtain ⟨p, -, rfl⟩ := List.mem_map.1 he
    refine depth_svg_le fun e he => ?_
    rcases List.mem_cons.1 he with rfl | he
    · exact show 1 ≤ 4 by decide
    · obtain rfl := List.mem_singleton.1 he
      exact Nat.le_of_eq (depth_labelBox ..)
  have hedge : ∀ e ∈ l.edges.map PlacedEdge.markup, e.depth ≤ 5 := by
    intro e he
    obtain ⟨p, -, rfl⟩ := List.mem_map.1 he
    refine depth_svg_le fun e he => ?_
    obtain ⟨label, -, rfl⟩ := List.mem_map.1 he
    exact Nat.le_of_eq (depth_labelBox ..)
  refine depth_svg_le fun e he => ?_
  obtain rfl := List.mem_singleton.1 he
  refine depth_svg_le fun e he => ?_
  rcases List.mem_cons.1 he with rfl | he
  · exact depth_svg_le hnode
  · obtain rfl := List.mem_singleton.1 he
    exact depth_svg_le hedge

-- =============================================================== drawings

theorem depth_markup_le {diagram : Text} {mode : Mode} {e : Element}
    (h : markup diagram mode = .ok e) : e.depth ≤ deepest := by
  rcases exists_layout h with ⟨-, d, -, rfl⟩ | ⟨-, d, -, rfl⟩
  · exact Nat.le_trans d.layout.depth_markup_le (by decide)
  · exact d.layout.depth_markup_le

/-- What is read of an offline drawing is no deeper than offline drawings
are. -/
theorem depth_le_of_draw {diagram drawing : Text} {element : Element}
    (hdraw : draw diagram = .ok drawing) (hread : readDrawing drawing = .ok element) :
    element.depth ≤ deepest := by
  obtain ⟨e, hmarkup, rfl, hdrawn, -⟩ := exists_markup_of_draw hdraw
  obtain ⟨-, rfl⟩ := (readDrawing_write hdrawn).1 hread
  rw [Element.depth_mapTexts]
  exact depth_markup_le hmarkup

end FreeLabel.Drawing
