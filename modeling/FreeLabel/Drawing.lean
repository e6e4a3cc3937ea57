/-
Drawing a compiled diagram. The diagram is read into what it shows, that
is laid out, and the layout is written as markup; the first line that
says something decides which kind of diagram it is read as.
-/
import FreeLabel.Drawing.ErLayout
import FreeLabel.Drawing.FlowLayout
import FreeLabel.Markup.Writer
import FreeLabel.Compile

namespace FreeLabel.Drawing

open Markup (Element)

/-- The drawing of an entity-relationship diagram. -/
def erMarkup (diagram : Text) : Except Rejection Element :=
  (ErDrawing.ofDiagram diagram).map fun d => d.layout.markup

/-- The drawing of a flowchart. -/
def flowMarkup (diagram : Text) : Except Rejection Element :=
  (FlowDrawing.ofDiagram diagram).map fun d => d.layout.markup

/-- The kind that a compiled diagram is drawn as. -/
def modeOf (diagram : Text) : Mode :=
  match contentLines diagram with
  | (_, line) :: _ => if startsErDiagram line then .er else .flowchart
  | [] => .flowchart

/-- The drawing of a diagram of a kind. -/
def markup (diagram : Text) : Mode → Except Rejection Element
  | .er => erMarkup diagram
  | .flowchart => flowMarkup diagram

/-- What is drawn is the layout of what the diagram is read as. -/
theorem exists_layout {diagram : Text} {mode : Mode} {e : Element}
    (h : markup diagram mode = .ok e) :
    (mode = .er ∧ ∃ d, ErDrawing.ofDiagram diagram = .ok d ∧ e = d.layout.markup)
      ∨ mode = .flowchart ∧ ∃ d, FlowDrawing.ofDiagram diagram = .ok d
        ∧ e = d.layout.markup := by
  cases mode with
  | er =>
    rw [markup, erMarkup] at h
    cases hd : ErDrawing.ofDiagram diagram with
    | error why =>
      rw [hd] at h
      cases h
    | ok d =>
      rw [hd] at h
      cases h
      exact .inl ⟨rfl, d, rfl, rfl⟩
  | flowchart =>
    rw [markup, flowMarkup] at h
    cases hd : FlowDrawing.ofDiagram diagram with
    | error why =>
      rw [hd] at h
      cases h
    | ok d =>
      rw [hd] at h
      cases h
      exact .inr ⟨rfl, d, rfl, rfl⟩

/-- How many elements stand in one another in a drawing, at most: as many as
around the text of a node. -/
def deepest : Nat := 8

end FreeLabel.Drawing

namespace FreeLabel

/-- The drawing of a diagram of a kind, as text. -/
def drawAs (mode : Mode) (diagram : Text) : Except Drawing.Rejection Text :=
  (Drawing.markup diagram mode).map Markup.Element.write

theorem exists_markup_of_drawAs {mode : Mode} {diagram drawing : Text}
    (h : drawAs mode diagram = .ok drawing) :
    ∃ e, Drawing.markup diagram mode = .ok e ∧ drawing = e.write := by
  unfold drawAs at h
  cases hmarkup : Drawing.markup diagram mode with
  | error why =>
    rw [hmarkup] at h
    cases h
  | ok e =>
    rw [hmarkup] at h
    cases h
    exact ⟨e, rfl, rfl⟩

/-- The drawing of a diagram, as text. -/
def draw (diagram : Text) : Except Drawing.Rejection Text :=
  drawAs (Drawing.modeOf diagram) diagram

end FreeLabel
