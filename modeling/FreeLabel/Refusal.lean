/-
Why a compiled diagram is not shown: the offline drawing rejects it, the
engine fails, or what was drawn cannot be read. A refusal is shown as
text of a page, so the characters that begin markup are written as
references.
-/
import FreeLabel.Drawing.Rejection
import FreeLabel.Markup.Reader
import FreeLabel.Markup.Writer

namespace FreeLabel

/-- Why a diagram is not shown. -/
inductive Refusal
  /-- The offline drawing rejects it. -/
  | rejected (why : Drawing.Rejection)
  /-- The engine ended with an error and said nothing. -/
  | exitedSilently (status : Int)
  /-- The engine did not end within the given seconds. -/
  | timedOut (seconds : Int)
  /-- The engine left no drawing. -/
  | wroteNothing
  /-- What was drawn is not markup. -/
  | unreadable (document : Text) (flaw : Markup.Flaw)
  /-- The reason in the words of whatever drew. -/
  | stated (words : Text)
deriving DecidableEq, Repr

namespace Refusal

/-- The text that reports a refusal. -/
def message : Refusal → Text
  | rejected why => why.message
  | exitedSilently status =>
    "mermaid-cli exited with status ".toList ++ Text.ofInt status
  | timedOut seconds =>
    "mermaid-cli timed out after ".toList ++ Text.ofInt seconds ++ ['s']
  | wroteNothing => "mermaid-cli produced no output".toList
  | unreadable document flaw =>
    "Renderer produced invalid SVG: ".toList ++ flaw.message document
  | stated words => words

/-- The text that reports a refusal, as it stands in a page. -/
def display (r : Refusal) : Text := Markup.escapeText r.message

end Refusal

/-- The drawing that a text holds. Code points are encoded before they are read,
so those that are no text do not get here. -/
def readDrawing (drawing : Text) : Except Refusal Markup.Element :=
  let document := Markup.Document.ofText drawing
  (Markup.Element.ofDocument document).mapError (.unreadable document.text)

end FreeLabel
