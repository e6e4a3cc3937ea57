/-
Entity-relationship sources in the identifier syntax of diagrams. A line
is classified first, by its text and by whether it stands inside an
entity's block; what becomes of it follows from its kind alone. Names are
replaced by identifiers, which a drawing shows in the name's place until
the name is put back.

Two kinds of line may set the layout direction: the declaration of the
diagram and a statement of its own. The statement is not kept, and the
declaration has precedence whatever their order.
-/
import FreeLabel.Direction
import FreeLabel.Er.Record
import FreeLabel.Inert
import FreeLabel.Pass

namespace FreeLabel.Er

open Text (trim indent)

-- ============================================================ line kinds

/-- What a line of a source is. -/
inductive Line
  /-- Blank, or a comment. -/
  | inert
  /-- The declaration of the diagram, with a direction or without. -/
  | declaration (direction : Option Direction)
  /-- A statement of the direction. -/
  | direction (d : Direction)
  /-- The end of an entity's block. -/
  | blockEnd
  /-- A line inside a block. -/
  | attribute
  /-- The start of the block of the entity with this name. -/
  | blockStart (name : Text)
  /-- A relationship. -/
  | relationship
  /-- Anything else. -/
  | other
deriving DecidableEq, Repr

/-- The declaration on a trimmed line, with the direction it gives. -/
def declaration? (trimmed : Text) : Option (Option Direction) := do
  match ← Text.afterAnyCase? "erdiagram".toList trimmed with
  | [] => some none
  | rest => (← Text.afterBlanks? rest) |> Direction.ofName? |>.map some

/-- The direction stated on a trimmed line. -/
def directionStatement? (trimmed : Text) : Option Direction := do
  let rest ← Text.afterAnyCase? "direction".toList trimmed
  Direction.ofName? (← Text.afterBlanks? rest)

/-- The name of the entity whose block a trimmed line starts. -/
def blockStart? (trimmed : Text) : Option Text :=
  if trimmed.getLast? = some '{' && 2 ≤ trimmed.length then
    some (Text.unquoted (Text.trimRight trimmed.dropLast))
  else none

/-- What a line is, inside a block or outside. A block is started or
ended, and the diagram declared, in the same words in both places. -/
def Line.classify (inBlock : Bool) (line : Text) : Line :=
  let trimmed := trim line
  if isInert trimmed then .inert
  else
    match declaration? trimmed, directionStatement? trimmed with
    | some d, _ => .declaration d
    | none, some d => .direction d
    | none, none =>
      if trimmed = ['}'] then .blockEnd
      else if inBlock then .attribute
      else if (Cardinality.find? trimmed).isSome then .relationship
      else
        match blockStart? trimmed with
        | some name => .blockStart name
        | none => .other

-- ====================================================== translated lines

/-- The label of a relationship as a diagram spells it: in double quotes,
unless it begins with one or needs none. -/
def labelSpelling (label : Text) : Text :=
  let plain := label.all fun c => isIdentChar c || c == ' '
  if label.head? = some '"' || plain then label
  else ['"'] ++ label ++ ['"']

/-- An attribute line with an identifier for its name. The identifier
exceeds the name by the pass's padding. -/
def Attribute.translate (line : Text) (a : Attribute) : Pass Text := do
  let c ← get
  let id ← Pass.allocate a.name (a.name.length + c.padding).toNat
  let key := a.key.elim [] fun k => ' ' :: k
  let comment := a.comment.elim [] fun t => [' ', '"'] ++ t ++ ['"']
  pure (indent line ++ id ++ [' '] ++ a.type ++ key ++ comment)

/-- A line inside a block. One that holds no attribute is reported and
kept. -/
def translateAttribute (lineNo : Int) (line : Text) : Pass Text :=
  match Attribute.ofLine? line with
  | some a => a.translate line
  | none => do
    Pass.report lineNo line .incompleteAttribute
    pure line

/-- A relationship line with identifiers for its names. A line that holds
no operator is kept. -/
def translateRelationship (line : Text) : Pass Text :=
  match Relationship.ofLine? line with
  | none => pure line
  | some r => do
    let left ← Pass.allocate r.left 0
    let right ← Pass.allocate r.right 0
    let label :=
      match labelSpelling r.label with
      | [] => []
      | label => " : ".toList ++ label
    pure (indent line ++ left ++ [' '] ++ r.op.spelling ++ [' '] ++ right ++ label)

-- ============================================================ the source

/-- What the lines read so far tell about the ones to come and about the
whole. -/
structure Reading where
  /-- Whether a block is open. -/
  inBlock : Bool := false
  /-- The direction last given by a declaration. -/
  declared : Option Direction := none
  /-- The direction last given by a statement. -/
  stated : Option Direction := none
deriving DecidableEq, Repr

/-- The direction that a source asks for. -/
def Reading.direction (r : Reading) : Option Direction := r.declared <|> r.stated

/-- What a line of a kind changes for the lines behind it. -/
def Reading.next (r : Reading) : Line → Reading
  | .declaration (some d) => { r with declared := some d }
  | .direction d => { r with stated := some d }
  | .blockEnd => { r with inBlock := false }
  | .blockStart _ => { r with inBlock := true }
  | _ => r

/-- What becomes of a line of a kind; a statement of the direction leaves
none. -/
def translateLine (lineNo : Int) (line : Text) : Line → Pass (Option Text)
  | .declaration _ => pure (some "erDiagram".toList)
  | .direction _ => pure none
  | .attribute => some <$> translateAttribute lineNo line
  | .blockStart name => do
    let id ← Pass.allocate name 0
    pure (some (indent line ++ id ++ [' ', '{']))
  | .relationship => some <$> translateRelationship line
  | .inert | .blockEnd | .other => pure (some line)

/-- The lines of a diagram for numbered lines of a source, and what has
been read at their end. -/
def translateLines : Reading → List (Nat × Text) → Pass (List Text × Reading)
  | r, [] => pure ([], r)
  | r, (lineNo, line) :: rest => do
    let kind := Line.classify r.inBlock line
    let out ← translateLine lineNo line kind
    let (outs, last) ← translateLines (r.next kind) rest
    pure (out.toList ++ outs, last)

/-- The diagram for a source, and the direction that the source asks
for. -/
def translate (source : Text) : Pass (Text × Option Direction) := do
  let (lines, last) ← translateLines {} (Text.numberedLines source)
  pure (Text.joinLines lines, last.direction)

end FreeLabel.Er
