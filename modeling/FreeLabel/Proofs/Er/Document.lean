/-
Entity-relationship documents in the form that writers are told to use:
what stands in one, the source that it is, and the picture that it means.

# The form

A document is a list of items, each the block of an entity or a
relationship, in any order and with names repeated freely. What stands in
an item is a `Phrase`, a text that fills its place in a line: it is not
empty, it is trimmed, and its characters are none that the line is taken
apart at. So no document is ill-formed, and nothing further is assumed of
one.

# The picture

`Document.picture` says what is to be drawn without saying how it is
found: an entity for each name, in the order of first mention, with the
rows of all its blocks in order, and the relationships in order. It is the
picture of the document's display names; that of their identifiers is the
same picture under another naming.
-/
import FreeLabel.Drawing.Er
import FreeLabel.Er.Translate
import FreeLabel.Markup.Chars
import FreeLabel.Proofs.Text.Span

namespace FreeLabel.Er

open Text (trim)

-- ============================================================== phrases

/-- Whether a character may stand in a line of a document. -/
def isLineChar (c : Char) : Bool :=
  Markup.isXmlChar c && c != '\n' && c != '\r'

theorem newline_not_mem {t : Text} (h : ∀ c ∈ t, isLineChar c = true) : '\n' ∉ t :=
  fun hmem => absurd (h _ hmem) (by decide)

/-- A text that fills its place in a line, of characters of a kind. -/
structure Phrase (kind : Char → Bool) where
  text : Text
  nonempty : text ≠ []
  trimmed : trim text = text
  chars : ∀ c ∈ text, isLineChar c = true ∧ kind c = true

/-- Whether a character may stand in a name. -/
def isNameChar (c : Char) : Bool := !(['"', ',', ':', '{', '}'].contains c)

/-- Whether a character may stand in a type. -/
def isTypeChar (c : Char) : Bool := !isBlank c && c != ',' && c != '"'

/-- Whether a character may stand in a remark. -/
def isRemarkChar (c : Char) : Bool := c != '"'

/-- A display name, of an entity or of an attribute. -/
structure DisplayName extends Phrase isNameChar where
  uncommented : Text.startsWith commentMark text = false
  noOperator : ∀ op : Cardinality, ¬ op.spelling <:+: text

/-- The type of an attribute. -/
abbrev TypeName := Phrase isTypeChar

/-- The comment on an attribute, or the label of a relationship. -/
abbrev Remark := Phrase isRemarkChar

/-- A key, in any letter case. -/
structure Key where
  text : Text
  known : text.map Char.toUpper ∈ Drawing.keyNames

-- ============================================================ documents

/-- A line of a block. -/
structure Field where
  name : DisplayName
  type : TypeName
  key : Option Key
  comment : Option Remark

/-- The block of an entity, or a relationship. -/
inductive Item
  | block (name : DisplayName) (fields : List Field)
  | relation (left : DisplayName) (op : Cardinality) (right : DisplayName)
      (label : Option Remark)

/-- What stands behind the declaration of a diagram. -/
structure Document where
  items : List Item

/-- What follows the type in a line of a block. The third column is empty
if there is a comment and no key. -/
def Field.columns (f : Field) : Text :=
  match f.key, f.comment with
  | none, none => []
  | some key, none => [',', ' '] ++ key.text
  | none, some comment => [',', ' ', ',', ' ', '"'] ++ comment.text ++ ['"']
  | some key, some comment =>
    [',', ' '] ++ key.text ++ [',', ' ', '"'] ++ comment.text ++ ['"']

/-- A line of a block as it is written. -/
def Field.line (f : Field) : Text :=
  f.name.text ++ [',', ' '] ++ f.type.text ++ f.columns

/-- The line that starts the block of an entity. -/
def blockLine (name : Text) : Text := name ++ [' ', '{']

/-- A label in the spelling given, behind the relationship that it
belongs to. -/
def labelPart : Text → Text
  | [] => []
  | label => [' ', ':', ' '] ++ label

/-- The line of a relationship, with a label in the spelling given. -/
def relationLine (left : Text) (op : Cardinality) (right label : Text) : Text :=
  left ++ [' '] ++ op.spelling ++ [' '] ++ right ++ labelPart label

/-- The line of a relationship, as readers meet its parts. -/
theorem relationLine_eq (left : Text) (op : Cardinality) (right label : Text) :
    relationLine left op right label
      = left ++ ' ' :: (op.spelling ++ ' ' :: (right ++ labelPart label)) := by
  simp [relationLine]

/-- The text of a remark, empty if there is none. -/
def remarkText (remark : Option Remark) : Text := (remark.map (·.text)).getD []

/-- An item as it is written. -/
def Item.lines : Item → List Text
  | block name fields => blockLine name.text :: (fields.map Field.line ++ [['}']])
  | relation left op right label =>
    [relationLine left.text op right.text (remarkText label)]

/-- A document as it is written, line by line. -/
def Document.lines (d : Document) : List Text :=
  "erDiagram".toList :: d.items.flatMap Item.lines

/-- A document as it is written. -/
def Document.source (d : Document) : Text := Text.joinLines d.lines

-- ============================================================= pictures

/-- What a diagram tells in one go: the rows of a block, or a
relationship. -/
inductive Entry
  | block (name : Text) (rows : List Drawing.Row)
  | relation (r : Drawing.Relation)

namespace Entry

/-- The entities that an entry mentions, in order. -/
def names : Entry → List Text
  | block name _ => [name]
  | relation r => [r.left, r.right]

/-- The rows that an entry has for an entity. -/
def rowsOf (name : Text) : Entry → List Drawing.Row
  | block entity rows => if entity = name then rows else []
  | relation _ => []

/-- The relationship that an entry is. -/
def relation? : Entry → Option Drawing.Relation
  | block .. => none
  | relation r => some r

/-- What entries show together: each entity that is mentioned once, in
the order of first mention, with all its rows, and the relationships. -/
def picture (entries : List Entry) : Drawing.ErDrawing where
  entities := (entries.flatMap names).eraseDups.map fun name =>
    { name := name, rows := entries.flatMap (rowsOf name) }
  relations := entries.filterMap relation?

end Entry

-- ============================================================= diagrams

/-- A key behind the columns before it. -/
def keyPart (key : Option Text) : Text := key.elim [] fun k => ' ' :: k

/-- A comment behind the columns before it. -/
def commentPart (comment : Option Text) : Text :=
  comment.elim [] fun t => [' ', '"'] ++ t ++ ['"']

/-- The line of a row in a diagram. -/
def rowLine (row : Drawing.Row) : Text :=
  row.first ++ [' '] ++ row.second ++ keyPart row.key ++ commentPart row.comment

/-- The line of a row, as readers meet its parts. -/
theorem rowLine_eq (row : Drawing.Row) :
    rowLine row
      = row.first ++ ' ' :: (row.second ++ (keyPart row.key ++ commentPart row.comment)) := by
  simp [rowLine]

/-- The lines of an entry in a diagram. -/
def Entry.lines : Entry → List Text
  | block name rows => blockLine name :: (rows.map rowLine ++ [['}']])
  | relation r => [relationLine r.left r.op r.right (labelSpelling r.label)]

/-- The diagram of entries. -/
def Entry.diagram (es : List Entry) : Text :=
  Text.joinLines ("erDiagram".toList :: es.flatMap Entry.lines)

/-- Lines with their numbers, from `n`. -/
def number (n : Nat) (ls : List Text) : List (Nat × Text) :=
  (ls.zipIdx n).map fun (line, n) => (n, line)

theorem number_cons (n : Nat) (line : Text) (ls : List Text) :
    number n (line :: ls) = (n, line) :: number (n + 1) ls := by
  rw [number, List.zipIdx_cons, List.map_cons]
  rfl

-- ================================================================ names

/-- What is shown for names: for those of entities, and for those of
attributes. -/
structure NameMap where
  ofEntity : Text → Text
  ofAttribute : Text → Text

/-- The map under which names are shown as they are written. -/
def NameMap.plain : NameMap := { ofEntity := id, ofAttribute := id }

/-- A line of a block as a row. -/
def Field.row (ids : NameMap) (f : Field) : Drawing.Row where
  first := ids.ofAttribute f.name.text
  second := f.type.text
  key := f.key.map fun key => key.text.map Char.toUpper
  comment := f.comment.map (·.text)

/-- What an item tells. -/
def Item.entry (ids : NameMap) : Item → Entry
  | block name fields => .block (ids.ofEntity name.text) (fields.map (Field.row ids))
  | relation left op right label =>
    .relation
      { left := ids.ofEntity left.text, op := op, right := ids.ofEntity right.text
        label := remarkText label }

/-- What a document tells under a map of names. -/
def Document.entries (d : Document) (ids : NameMap) : List Entry :=
  d.items.map (Item.entry ids)

/-- What a document means: its names are shown as they are written. -/
def Document.picture (d : Document) : Drawing.ErDrawing :=
  Entry.picture (d.entries .plain)

end FreeLabel.Er
