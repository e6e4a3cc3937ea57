/-
What a compiled entity-relationship diagram shows: its entities in the
order of first mention, each with the rows of all its blocks, and its
relationships in the order in which they stand. Reading yields this value
or says which line is no part of such a diagram.
-/
import FreeLabel.Drawing.Rejection
import FreeLabel.Er.Cardinality
import FreeLabel.Inert
import FreeLabel.Text.Quotes
import FreeLabel.Text.Word

namespace FreeLabel.Drawing

open Text (afterBlanks? after? cut? spanIdent trimLeft)

-- ============================================================= the value

/-- A row of an entity: the columns of an attribute. -/
structure Row where
  /-- The first column. -/
  first : Text
  /-- The second column. -/
  second : Text
  /-- The key, if one is given. -/
  key : Option Text
  /-- The remark, if one is given. -/
  comment : Option Text
deriving DecidableEq, Repr

/-- An entity with its rows. -/
structure Entity where
  /-- The identifier. -/
  name : Text
  /-- The rows, in order. -/
  rows : List Row := []
deriving DecidableEq, Repr

/-- A relationship between two entities. -/
structure Relation where
  /-- The identifier before the operator. -/
  left : Text
  /-- The operator. -/
  op : Er.Cardinality
  /-- The identifier behind the operator. -/
  right : Text
  /-- The label, empty if there is none. -/
  label : Text
deriving DecidableEq, Repr

/-- What an entity-relationship diagram shows. -/
structure ErDrawing where
  /-- The entities, in the order of first mention. -/
  entities : List Entity := []
  /-- The relationships, in order. -/
  relations : List Relation := []
deriving DecidableEq, Repr

namespace ErDrawing

/-- A drawing in which an entity is mentioned. -/
def mention (d : ErDrawing) (name : Text) : ErDrawing :=
  if d.entities.any (·.name = name) then d
  else { d with entities := d.entities ++ [{ name := name }] }

/-- A drawing with one more row for an entity. -/
def addRow (d : ErDrawing) (name : Text) (row : Row) : ErDrawing :=
  { d with
    entities := d.entities.map fun e =>
      if e.name = name then { e with rows := e.rows ++ [row] } else e }

/-- A drawing with one more relationship, whose entities are mentioned. -/
def addRelation (d : ErDrawing) (r : Relation) : ErDrawing :=
  let d := (d.mention r.left).mention r.right
  { d with relations := d.relations ++ [r] }

end ErDrawing

-- ================================================================= lines

/-- The identifier that a line begins with, and what follows it. -/
def ident? (s : Text) : Option (Text × Text) :=
  match spanIdent s with
  | ([], _) => none
  | (c :: cs, rest) => some (c :: cs, rest)

/-- The keys that a row may name. -/
def keyNames : List Text := ["PK".toList, "FK".toList, "UK".toList]

/-- The key behind blanks, if there is one, and what follows it. -/
def rowKey (s : Text) : Option Text × Text :=
  match (afterBlanks? s).bind fun t =>
      keyNames.findSome? fun k => (after? k t).map fun rest => (k, rest) with
  | some (k, rest) => (some k, rest)
  | none => (none, s)

/-- The remark in double quotes behind blanks, if there is one, and what
follows it. -/
def rowComment (s : Text) : Option Text × Text :=
  match (do cut? ['"'] (← after? ['"'] (← afterBlanks? s)) : Option (Text × Text)) with
  | some (t, rest) => (some t, rest)
  | none => (none, s)

/-- The row on a trimmed line. -/
def Row.ofLine? (line : Text) : Option Row := do
  let (first, s) ← ident? line
  let s ← afterBlanks? s
  let second := s.takeWhile fun c => !isBlank c
  let (key, s) := rowKey (s.dropWhile fun c => !isBlank c)
  let (comment, s) := rowComment s
  guard (second ≠ [] ∧ s = [])
  some { first := first, second := second, key := key, comment := comment }

/-- The identifier of the entity whose block a trimmed line starts. -/
def blockStart? (line : Text) : Option Text := do
  let (name, s) ← ident? line
  guard (trimLeft s = ['{'])
  some name

/-- The label at the end of a relationship's line: empty if the line is
at its end, else what stands behind a colon. -/
def relationLabel? (s : Text) : Option Text :=
  match s with
  | [] => some []
  | s => do
    let s ← after? [':'] (trimLeft s)
    guard (trimLeft s ≠ [])
    some (Text.peel (trimLeft s))

/-- The relationship on a trimmed line. -/
def Relation.ofLine? (line : Text) : Option Relation := do
  let (left, s) ← ident? line
  let (op, s) ← Er.Cardinality.read? (← afterBlanks? s)
  let (right, s) ← ident? (← afterBlanks? s)
  let label ← relationLabel? s
  some { left := left, op := op, right := right, label := label }

/-- The identifier that a trimmed line consists of. -/
def entity? (line : Text) : Option Text := do
  let (name, s) ← ident? line
  guard (s = [])
  some name

-- ============================================================ the diagram

/-- A line of a diagram, read into what the lines before it show. The
drawing comes with the entity whose block is open. -/
def ErDrawing.readLine (d : ErDrawing) (block : Option Text) (lineNo : Nat)
    (line : Text) : Except Rejection (ErDrawing × Option Text) :=
  match block with
  | some name =>
    if line = ['}'] then .ok (d, none)
    else
      match Row.ofLine? line with
      | some row => .ok (d.addRow name row, some name)
      | none => .error (.unexpected lineNo line .rowOrEnd)
  | none =>
    match blockStart? line, Relation.ofLine? line, entity? line with
    | some name, _, _ => .ok (d.mention name, some name)
    | none, some r, _ => .ok (d.addRelation r, none)
    | none, none, some name => .ok (d.mention name, none)
    | none, none, none => .error (.unexpected lineNo line .entity)

/-- The lines of a diagram behind its first. -/
def ErDrawing.readLines (d : ErDrawing) (block : Option Text) :
    List (Nat × Text) → Except Rejection ErDrawing
  | [] =>
    match block with
    | none => .ok d
    | some name => .error (.openBlock name)
  | (lineNo, line) :: rest => do
    let (d, block) ← d.readLine block lineNo line
    d.readLines block rest

/-- Whether a trimmed line begins an entity-relationship diagram. -/
def startsErDiagram (line : Text) : Bool :=
  Text.startsWith "erdiagram".toList (line.map Char.toLower)

/-- What an entity-relationship diagram shows. -/
def ErDrawing.ofDiagram (diagram : Text) : Except Rejection ErDrawing :=
  match contentLines diagram with
  | [] => .error .noErDiagram
  | (_, line) :: rest =>
    if startsErDiagram line then ErDrawing.readLines {} none rest
    else .error .noErDiagram

end FreeLabel.Drawing
