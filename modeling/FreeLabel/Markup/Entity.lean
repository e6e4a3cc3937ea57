/-
What a document type declares. An entity is a text with a name, to be
referred to from content and from the values of attributes; its text may
also be elsewhere, or be no text at all, and then it is known by name
only. A rule for an attribute says how its value is read and which value
it has in a tag without it.

Of several declarations for one thing the first one holds. What is
declared elsewhere is never read. So after a reference to it later
declarations do not count either, unless the document declares that it
stands alone, and an entity that is not declared may have been declared
there.
-/
import FreeLabel.Markup.Scan

namespace FreeLabel.Markup

-- =============================================================== entities

/-- What the name of an entity stands for. -/
inductive Entity
  /-- A text, in which references are still to be read. -/
  | text (t : Text)
  /-- A text that is elsewhere. -/
  | external
  /-- Something else than text. -/
  | unparsed
deriving DecidableEq, Repr

/-- Entities by their names. -/
abbrev Entities := List (Text × Entity)

namespace Entities

/-- Entities with one more, unless its name is taken already. Five names
always are. -/
def add (es : Entities) (name : Text) (e : Entity) : Entities :=
  if (namedChar? name).isSome || (es.lookup name).isSome then es
  else es ++ [(name, e)]

/-- Entities but the one of a name. -/
def without (es : Entities) (name : Text) : Entities := es.filter (·.1 ≠ name)

/-- Going into an entity leaves fewer to go into. -/
theorem length_without_lt {es : Entities} {name : Text} {e : Entity}
    (h : es.lookup name = some e) : (es.without name).length < es.length := by
  have ⟨before, after, hes, _⟩ := List.lookup_eq_some_iff.1 h
  refine List.length_filter_lt_length_iff_exists.2 ⟨(name, e), ?_, by simp⟩
  rw [hes]
  simp

end Entities

-- ================================================================== rules

/-- What an attribute's value may be. -/
inductive ValueKind
  /-- Any text. -/
  | text
  /-- A word that names the element. -/
  | identifier
  /-- Words. -/
  | words
deriving DecidableEq, Repr

/-- A rule for the attribute of an element. -/
structure AttributeRule where
  /-- The spelling of the element's name. -/
  element : Text
  /-- The spelling of the attribute's name. -/
  name : Text
  /-- What its value may be. -/
  kind : ValueKind
  /-- The value in a tag without it. -/
  value? : Option Text
deriving DecidableEq, Repr

/-- Whether two rules are for the same attribute. -/
def AttributeRule.meets (r s : AttributeRule) : Bool :=
  r.element = s.element && r.name = s.name

-- =========================================================== declarations

/-- What has been declared in a document. -/
structure Declarations where
  /-- The entities. -/
  entities : Entities := []
  /-- The rules for attributes, in order. -/
  rules : List AttributeRule := []
  /-- Whether the document type names an external subset. -/
  hasExternal : Bool := false
  /-- Whether the document type refers to a parameter entity. -/
  hasSkipped : Bool := false
  /-- Whether the document declares that it stands alone. -/
  isAlone : Bool := false
deriving DecidableEq, Repr

namespace Declarations

/-- Whether there may be entities that are declared elsewhere. -/
def lenient (d : Declarations) : Bool := (d.hasExternal || d.hasSkipped) && !d.isAlone

/-- Whether a declaration that comes now counts. -/
def counts (d : Declarations) : Bool := !d.hasSkipped || d.isAlone

/-- The declarations with an entity added, if it counts. -/
def addEntity (d : Declarations) (name : Text) (e : Entity) : Declarations :=
  if d.counts then { d with entities := d.entities.add name e } else d

/-- The declarations with a rule added. One that gives a value, or says
that the value names the element, does not come after another for the
same attribute. -/
def addRule (d : Declarations) (r : AttributeRule) : Declarations :=
  if (r.value?.isSome || r.kind = .identifier) && d.rules.any r.meets then d
  else { d with rules := d.rules ++ [r] }

/-- The rules for the attributes of an element. -/
def rulesFor (d : Declarations) (element : Text) : List AttributeRule :=
  d.rules.filter (·.element = element)

end Declarations

/-- Whether the value of an attribute is one of words, by the first rule
for it. -/
def isWorded (rules : List AttributeRule) (name : Text) : Bool :=
  ((rules.find? (·.name = name)).map AttributeRule.kind).any (· ≠ .text)

end FreeLabel.Markup
