/-
Why a compiled diagram is not drawn. A line that the grammar does not
admit is quoted together with what could have stood there.
-/
import FreeLabel.Text.Blank

namespace FreeLabel.Drawing

/-- What could have stood on a line. -/
inductive Expected
  /-- A row of an entity, or the end of its block. -/
  | rowOrEnd
  /-- An entity, with its block or without, or a relationship. -/
  | entity
  /-- A node. -/
  | node
deriving DecidableEq, Repr

/-- The names of what could have stood on a line. -/
def Expected.names : Expected → Text
  | rowOrEnd => "'ATTRIBUTE_WORD', 'BLOCK_STOP'".toList
  | entity => "'ENTITY_NAME', 'BLOCK_START', 'CARDINALITY'".toList
  | node => "'NODE_STRING', 'SQS', 'DIAMOND_START', 'PS'".toList

/-- Why a diagram is not drawn. -/
inductive Rejection
  /-- The text does not begin as an entity-relationship diagram. -/
  | noErDiagram
  /-- The text does not begin as a flowchart. -/
  | noFlowchart
  /-- A line is not what it should be. -/
  | unexpected (lineNo : Nat) (line : Text) (expected : Expected)
  /-- The block of an entity is not ended. -/
  | openBlock (entity : Text)
deriving DecidableEq, Repr

/-- The text that reports a rejection. -/
def Rejection.message : Rejection → Text
  | noErDiagram => "No diagram type detected: expected erDiagram".toList
  | noFlowchart => "No diagram type detected: expected flowchart or graph".toList
  | unexpected lineNo line expected =>
    "Parse error on line ".toList ++ Text.ofNat lineNo ++ ":\n".toList ++
      Text.trim line ++ "\nExpecting ".toList ++ expected.names
  | openBlock entity => "Unterminated entity block: ".toList ++ entity

end FreeLabel.Drawing
