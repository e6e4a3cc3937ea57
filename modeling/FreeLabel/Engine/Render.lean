/-
Drawing by the engine. The settings say whether a diagram goes to the
engine or is drawn offline; the offline drawing also stands in for an
engine that is missing, if the settings allow it. Nothing but a missing
engine with nothing to stand in for it keeps a diagram from being drawn
or refused.

What comes of a diagram here is a text. Of other renderers it is not known
what they hand over, so a renderer answers with code points.
-/
import FreeLabel.Drawing
import FreeLabel.Engine.Job
import FreeLabel.Refusal
import FreeLabel.Text.CodePoint

namespace FreeLabel.Engine

-- ============================================================== complaints

/-- How many characters of the engine's words are repeated. -/
def longestQuote : Nat := 2000

/-- A text cut to what is repeated of it. -/
def shorten (words : Text) : Text :=
  if longestQuote < words.length then words.take longestQuote ++ "...".toList
  else words

/-- What the engine said when it failed: its complaint, or its output if
it made none. -/
def lastWords (output complaint : Option Text) : Text :=
  Text.trim (if complaint.getD [] = [] then output.getD [] else complaint.getD [])

/-- The refusal of an engine that ended with an error. -/
def failure (status : Int) (output complaint : Option Text) : Refusal :=
  match lastWords output complaint with
  | [] => .exitedSilently status
  | words => .stated (shorten words)

-- ================================================================= drawing

/-- The offline drawing of a diagram. -/
def offline (diagram : Text) : Except Refusal Text :=
  (draw diagram).mapError .rejected

/-- The job for a diagram, unless it is drawn offline. -/
def job? (s : Settings) (diagram : Text) (direction : Option Text) : Option Job :=
  if s.isOffline then none
  else
    some
      { image := s.image, timeout := s.timeout, diagram := diagram
        options := Options.ofSettings s direction }

/-- There is no engine, and nothing may stand in for it. -/
structure Missing where
deriving DecidableEq, Repr

/-- The text that reports a missing engine. -/
def Missing.message : Missing → Text := fun _ => "docker".toList

/-- What came of a job: a drawing or a refusal, if anything. -/
def Outcome.answer (fallback : Bool) (job : Job) :
    Outcome → Except Missing (Except Refusal Text)
  | missing => if fallback then .ok (offline job.diagram) else .error {}
  | timedOut => .ok (.error (.timedOut job.timeout))
  | exited status output complaint => .ok (.error (failure status output complaint))
  | wroteNothing => .ok (.error .wroteNothing)
  | wrote file => .ok (.ok (Text.ofFile file))

/-- What comes of a diagram as the settings say. `run` is what becomes of a
job. -/
def drawUnder (s : Settings) (run : Job → Outcome) (diagram : Text)
    (direction : Option Text) : Except Missing (Except Refusal Text) :=
  match job? s diagram direction with
  | none => .ok (offline diagram)
  | some job => (run job).answer s.fallback job

/-- Something that draws a diagram in a direction, or refuses to. -/
abbrev Renderer := Text → Option Text → Except Missing (Except Refusal CodePoints)

/-- Drawing as the settings say. -/
def renderer (s : Settings) (run : Job → Outcome) : Renderer :=
  fun diagram direction =>
    (drawUnder s run diagram direction).map (Except.map Text.codePoints)

/-- Drawing offline, whatever the direction. -/
def offlineRenderer : Renderer :=
  fun diagram _ => .ok ((offline diagram).map Text.codePoints)

end FreeLabel.Engine
