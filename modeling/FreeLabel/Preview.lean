/-
Previewing a source: compile it, have it drawn, and put the names back.
A preview is made in two parts, because drawing is somebody else's work:
`draft` goes as far as the request for a drawing, if there is one, and
`finish` takes what came of it. So a drawing is asked for at most once,
and only of a source that compiled to a diagram without active content.

What is wrong with a source is shown in the place of a drawing. But there
are obstacles that nothing is shown for, and then no preview is made: the
engine is missing, what was drawn cannot be encoded to be read, or it has
more elements in one another than can be written.
-/
import FreeLabel.Blocked
import FreeLabel.Engine.Render
import FreeLabel.Restore.Drawing

namespace FreeLabel

/-- Why a source is not shown. -/
inductive Trouble
  /-- It did not compile. -/
  | notCompiled (why : Halt)
  /-- It has active content. -/
  | blocked (why : BlockedDiagram)
  /-- It was not drawn. -/
  | refused (why : Refusal)

namespace Trouble

/-- The line above a report. -/
def heading : Trouble → Text
  | notCompiled _ => "Compile error:\n".toList
  | blocked _ | refused _ => "Render error:\n".toList

/-- The text that reports a trouble. -/
def message : Trouble → Text
  | notCompiled why => why.message
  | blocked why => why.message
  | refused why => why.message

/-- The report of a trouble as it stands in a page. -/
def display (t : Trouble) : Text := t.heading ++ Markup.escapeText t.message

end Trouble

/-- What is shown for a source. -/
inductive Preview
  /-- The source says nothing. -/
  | placeholder
  /-- Something is wrong; what the source compiled to, if it did. -/
  | failed (compiled : Option Compiled) (trouble : Trouble)
  /-- A drawing with the names in it. -/
  | drawn (compiled : Compiled) (drawing : Text)

namespace Preview

/-- What is shown in the place of a drawing if there is no source. -/
def invitation : Text :=
  "Choose an example or start typing to see a live preview.".toList

/-- What the source compiled to. -/
def compiled? : Preview → Option Compiled
  | placeholder => none
  | failed compiled _ => compiled
  | drawn compiled _ => some compiled

/-- The drawing. -/
def drawing? : Preview → Option Text
  | drawn _ drawing => some drawing
  | _ => none

/-- The report of what is wrong. -/
def error? : Preview → Option Text
  | failed _ trouble => some trouble.display
  | _ => none

/-- The text in the place of a drawing. -/
def placeholder? : Preview → Option Text
  | placeholder => some invitation
  | _ => none

/-- What is said about a source that is not shown. -/
def remark (p : Preview) : Text := (p.error?.or p.placeholder?).getD []

-- ============================================================= in two parts

/-- A request for a drawing. -/
structure Request where
  /-- The diagram. -/
  diagram : Text
  /-- The direction that it asks for. -/
  direction : Option Direction

/-- A preview before anything is drawn. -/
inductive Draft
  /-- Nothing is to be drawn. -/
  | settled (p : Preview)
  /-- The diagram that the source compiled to is to be drawn. -/
  | awaiting (compiled : Compiled) (request : Request)

/-- The request of a draft. -/
def Draft.request? : Draft → Option Request
  | settled _ => none
  | awaiting _ request => some request

/-- A preview up to the request for a drawing. -/
def draft (source : Text) (strict : Bool) (padding : Int) : Draft :=
  if Text.trim source = [] then .settled .placeholder
  else
    match compile source strict padding with
    | .error why => .settled (.failed none (.notCompiled why))
    | .ok compiled =>
      match checkContent compiled.code with
      | .error why => .settled (.failed (some compiled) (.blocked why))
      | .ok diagram =>
        .awaiting compiled { diagram := diagram, direction := compiled.direction }

end Preview

-- =============================================================== obstacles

/-- What keeps a preview from being made. -/
inductive Obstacle
  /-- There is no engine, and nothing may stand in for it. -/
  | noEngine (why : Engine.Missing)
  /-- What was drawn is no text. -/
  | unencodable (why : Unencodable)
  /-- What was drawn is too deep to be written again. -/
  | tooDeep (why : Markup.TooDeep)
deriving DecidableEq, Repr

/-- The text that reports an obstacle. -/
def Obstacle.message : Obstacle → Text
  | noEngine why => why.message
  | unencodable why => why.message
  | tooDeep why => why.message

/-- The room that is left for writing, which depends on the calls that led to
it. A drawing that is made offline always fits. -/
structure Room where
  /-- How many elements may stand in one another. -/
  levels : Nat
  enough : Drawing.deepest ≤ levels

/-- The room that is left of a thousand calls in one another, which is how many
there may be if nothing else was settled. -/
def Room.usual : Room where
  levels := 990
  enough := by decide

-- ============================================================ the preview

/-- A preview from what came of the request for a drawing. -/
def Preview.finish (room : Room) (compiled : Compiled) (nowrap : Bool) :
    Except Refusal CodePoints → Except Obstacle Preview
  | .error why => .ok (.failed (some compiled) (.refused why))
  | .ok answer =>
    match Text.ofCodePoints answer with
    | .error why => .error (.unencodable why)
    | .ok drawing =>
      match readDrawing drawing with
      | .error why => .ok (.failed (some compiled) (.refused why))
      | .ok element =>
        match (restore compiled.legend nowrap element).writeWithin room.levels with
        | .error why => .error (.tooDeep why)
        | .ok shown => .ok (.drawn compiled shown)

/-- The preview of a source, drawn by `render`. -/
def preview (render : Engine.Renderer) (room : Room) (source : Text) (strict : Bool)
    (padding : Int) (nowrap : Bool) : Except Obstacle Preview :=
  match Preview.draft source strict padding with
  | .settled p => .ok p
  | .awaiting compiled request =>
    match render request.diagram (request.direction.map Direction.name) with
    | .error why => .error (.noEngine why)
    | .ok answer => Preview.finish room compiled nowrap answer

/-- What previews are made on. -/
structure Host where
  /-- What becomes of a job for the engine. -/
  engine : Engine.Job → Engine.Outcome
  /-- The room for writing. -/
  room : Room

/-- A host without an engine. -/
def Host.bare : Host where
  engine := fun _ => .missing
  room := .usual

/-- The preview of a source under settings. -/
def Settings.preview (s : Settings) (host : Host) (source : Text) :
    Except Obstacle Preview :=
  FreeLabel.preview (Engine.renderer s host.engine) host.room source s.strict s.padding s.nowrap

end FreeLabel
