/-
Compiling a source: one pass over it, in the mode that its text calls
for. A source that names the entity-relationship diagram anywhere is one;
every other source is a flowchart.
-/
import FreeLabel.Er.Translate
import FreeLabel.Flow.Translate

namespace FreeLabel

/-- The kind of a diagram. -/
inductive Mode
  | er | flowchart
deriving DecidableEq, Repr

/-- The word that makes a source an entity-relationship diagram. -/
def erWord : Text := "erdiagram".toList

/-- The mode of a source. -/
def Mode.ofSource (source : Text) : Mode :=
  if Text.hasKeyword erWord source false then .er else .flowchart

/-- What a pass makes of a source. -/
structure Compiled where
  /-- The mode of the source. -/
  mode : Mode
  /-- The diagram with identifiers for names. -/
  code : Text
  /-- What the identifiers stand for. -/
  legend : Naming.Legend
  /-- The direction that an entity-relationship source asks for. -/
  direction : Option Direction
  /-- The lines that were not translated in full. -/
  diagnostics : List Diagnostic

/-- What a pass makes of a source in a mode. -/
def translate (source : Text) : Mode → Pass (Text × Option Direction)
  | .er => Er.translate source
  | .flowchart => return (← Flow.translate source, none)

/-- Compiles a source in a pass of its own. -/
def compile (source : Text) (strict : Bool) (padding : Int) :
    Except Halt Compiled :=
  let mode := Mode.ofSource source
  match (translate source mode).run { strict := strict, padding := padding } with
  | .ok (code, direction) c =>
    .ok
      { mode := mode, code := code, legend := c.legend, direction := direction
        diagnostics := c.diagnostics }
  | .error halt _ => .error halt

end FreeLabel
