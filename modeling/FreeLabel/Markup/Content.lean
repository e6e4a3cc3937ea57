/-
Markup as a tree. Content is character data with elements in between:
some text, and then either nothing more or an element and the content
behind it. So every stretch of text has one place in the tree, two
stretches never meet, and a function on content recurses on its two
parts, what is inside an element and what comes after it.
-/
import FreeLabel.Text.Basic

namespace FreeLabel.Markup

/-- A name of an element or attribute: a word, in a namespace or in
none. -/
structure Name where
  /-- The address that names the namespace. -/
  space : Option Text := none
  /-- The word. -/
  base : Text
deriving DecidableEq, Repr

/-- The attributes of an element, in order. -/
abbrev Attributes := List (Name × Text)

/-- Character data with elements in between. -/
inductive Content
  /-- Text up to the end. -/
  | text (t : Text)
  /-- Text, an element with what is inside it, and what comes after. -/
  | element (before : Text) (tag : Name) (attrs : Attributes)
      (inner after : Content)
deriving DecidableEq, Repr

/-- An element. -/
structure Element where
  /-- Its name. -/
  tag : Name
  /-- Its attributes. -/
  attrs : Attributes := []
  /-- What is inside it. -/
  inner : Content := .text []
deriving DecidableEq, Repr

namespace Content

/-- The content that consists of an element and what comes after it. -/
def cons (e : Element) (after : Content) : Content :=
  .element [] e.tag e.attrs e.inner after

/-- The content that consists of elements in a row. -/
def ofElements (es : List Element) : Content := es.foldr cons (.text [])

/-- Content with `t` put before it. -/
def prepend (t : Text) : Content → Content
  | .text t' => .text (t ++ t')
  | .element before tag attrs inner after =>
    .element (t ++ before) tag attrs inner after

/-- The names in content, in document order: an element's own name, those
of its attributes, and then those inside it. -/
def names : Content → List Name
  | .text _ => []
  | .element _ tag attrs inner after =>
    tag :: attrs.map Prod.fst ++ inner.names ++ after.names

/-- How many elements stand in one another at the deepest place. -/
def depth : Content → Nat
  | .text _ => 0
  | .element _ _ _ inner after => max (inner.depth + 1) after.depth

end Content

/-- The names in an element, in document order. -/
def Element.names (e : Element) : List Name :=
  e.tag :: e.attrs.map Prod.fst ++ e.inner.names

/-- How many elements stand in one another at the deepest place, the element
itself being the first. -/
def Element.depth (e : Element) : Nat := e.inner.depth + 1

-- ============================================================ namespaces

/-- The namespace of drawings. -/
def svgSpace : Text := "http://www.w3.org/2000/svg".toList

/-- The namespace of labels made of hypertext. -/
def xhtmlSpace : Text := "http://www.w3.org/1999/xhtml".toList

/-- The namespace of what belongs to markup itself. -/
def xmlSpace : Text := "http://www.w3.org/XML/1998/namespace".toList

/-- A name in the namespace of drawings. -/
def svgName (base : String) : Name := { space := some svgSpace, base := base.toList }

/-- A name in the namespace of hypertext. -/
def xhtmlName (base : String) : Name := { space := some xhtmlSpace, base := base.toList }

/-- A name in no namespace. -/
def plainName (base : String) : Name := { base := base.toList }

end FreeLabel.Markup
