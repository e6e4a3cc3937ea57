/-
What a line of an entity-relationship source says, in free text: an
attribute as fields between commas, its name first, or a relationship
between two named entities. Names are quoted or not, as the writer likes.
-/
import FreeLabel.Er.Cardinality
import FreeLabel.Er.Fields
import FreeLabel.Text.Fold
import FreeLabel.Text.Quotes

namespace FreeLabel.Er

open Text (trim unquoted cut?)

/-- An attribute of an entity. -/
structure Attribute where
  /-- The attribute's display name. -/
  name : Text
  /-- Its type. -/
  type : Text
  /-- The key that it is part of, in capitals. -/
  key : Option Text
  /-- A remark on it, not empty. -/
  comment : Option Text
deriving DecidableEq, Repr

/-- A relationship between two entities. -/
structure Relationship where
  /-- The display name of the entity before the operator. -/
  left : Text
  /-- The operator. -/
  op : Cardinality
  /-- The display name of the entity behind the operator. -/
  right : Text
  /-- What the relationship is called, empty if nothing. -/
  label : Text
deriving DecidableEq, Repr

/-- The key tags, in small letters: primary, foreign and unique. -/
def keyTags : List Text := ["pk".toList, "fk".toList, "uk".toList]

/-- The key that a field names, in capitals. -/
def key? (field : Text) : Option Text :=
  if keyTags.any fun tag => Text.afterAnyCase? tag field = some [] then
    some (field.map Char.toUpper)
  else none

/-- The comment made of the fields left for it. -/
def comment? (fields : List Text) : Option Text :=
  match unquoted (trim (", ".toList.intercalate fields)) with
  | [] => none
  | c :: cs => some (c :: cs)

/-- The attribute on a line: its name and type, a key or nothing as third
field, and a comment. A third field that is neither belongs to the
comment. A line of fewer than two fields holds no attribute. -/
def Attribute.ofLine? (line : Text) : Option Attribute :=
  match fields (trim line) with
  | name :: type :: third :: rest =>
    let key := key? third
    some
      { name := name, type := type, key := key
        comment :=
          comment? (if key.isSome || third.isEmpty then rest else third :: rest) }
  | [name, type] => some { name := name, type := type, key := none, comment := none }
  | _ => none

/-- The relationship on a line, if it holds an operator: the text before
the first operator, the text between it and the first colon, and the text
behind that colon. -/
def Relationship.ofLine? (line : Text) : Option Relationship :=
  (Cardinality.find? (trim line)).map fun (before, op, after) =>
    let (target, label) := (cut? [':'] (trim after)).getD (trim after, [])
    { left := unquoted (trim before), op := op
      right := unquoted (trim target), label := trim label }

end FreeLabel.Er
