/-
Lines that say nothing: blank lines and comments. They are inert for
every reader of diagram text, in sources and in compiled diagrams.
-/
import FreeLabel.Text.Blank

namespace FreeLabel

/-- What a comment begins with. -/
def commentMark : Text := "%%".toList

/-- Whether a trimmed line is blank or a comment. -/
def isInert (trimmed : Text) : Bool :=
  trimmed.isEmpty || Text.startsWith commentMark trimmed

/-- The lines of a text that say something, trimmed, with their numbers
in the text. -/
def contentLines (s : Text) : List (Nat × Text) :=
  ((Text.numberedLines s).map fun (n, line) => (n, Text.trim line)).filter
    fun (_, line) => !isInert line

end FreeLabel
