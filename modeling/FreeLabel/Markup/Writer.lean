/-
Markup as text. All namespaces that occur in an element are declared at
its start tag, sorted by their prefixes; well-known namespaces have fixed
prefixes, and others are numbered in the order in which they are met. The
namespace of drawings has the empty prefix, so names in it stand alone.

Character data and attribute values are escaped, so that what is written
for a text contains no character that could begin or end markup.

An element is written by a function that calls itself for what is inside,
so it takes as many calls in one another as elements are, and there is room
for a limited number. `writeWithin` writes in what room there is, and fails
if that ends; `write` is what is written when it does not.
-/
import FreeLabel.Markup.Content

namespace FreeLabel.Markup

-- =============================================================== escapes

/-- A character of text as it is written. -/
def escapeTextChar : Char → Text
  | '&' => "&amp;".toList
  | '<' => "&lt;".toList
  | '>' => "&gt;".toList
  | c => [c]

/-- A text as it is written between tags. -/
def escapeText (t : Text) : Text := t.flatMap escapeTextChar

/-- A character of an attribute value as it is written; line ends and
tabs are written so that reading does not make spaces of them. -/
def escapeValueChar : Char → Text
  | '"' => "&quot;".toList
  | '\r' => "&#13;".toList
  | '\n' => "&#10;".toList
  | '\t' => "&#09;".toList
  | c => escapeTextChar c

/-- An attribute value as it is written between double quotes. -/
def escapeValue (t : Text) : Text := t.flatMap escapeValueChar

-- ============================================================== prefixes

/-- Namespaces with the prefixes that stand for them. -/
abbrev Prefixes := List (Text × Text)

/-- The namespaces that have a prefix of their own. -/
def wellKnown : Prefixes :=
  [(svgSpace, []), (xhtmlSpace, "html".toList), (xmlSpace, "xml".toList),
    ("http://www.w3.org/1999/xlink".toList, "xlink".toList),
    ("http://www.w3.org/1999/02/22-rdf-syntax-ns#".toList, "rdf".toList),
    ("http://schemas.xmlsoap.org/wsdl/".toList, "wsdl".toList),
    ("http://www.w3.org/2001/XMLSchema".toList, "xs".toList),
    ("http://www.w3.org/2001/XMLSchema-instance".toList, "xsi".toList),
    ("http://purl.org/dc/elements/1.1/".toList, "dc".toList)]

/-- The prefixes with one for a namespace that may be new. Markup's own
namespace is never declared. -/
def addPrefix (ps : Prefixes) (space : Text) : Prefixes :=
  if space = xmlSpace || (ps.lookup space).isSome then ps
  else
    let fresh := "ns".toList ++ Text.ofNat ps.length
    ps ++ [(space, (wellKnown.lookup space).getD fresh)]

/-- The prefixes for names, in the order in which they are met. -/
def prefixesFor (names : List Name) : Prefixes :=
  (names.filterMap Name.space).foldl addPrefix []

/-- A name as it is written. -/
def writeName (ps : Prefixes) (n : Name) : Text :=
  match n.space with
  | none => n.base
  | some space =>
    match if space = xmlSpace then "xml".toList else (ps.lookup space).getD [] with
    | [] => n.base
    | pre => pre ++ [':'] ++ n.base

-- ================================================================ writing

/-- An attribute as it is written, with the space before it. -/
def writeAttribute (name value : Text) : Text :=
  [' '] ++ name ++ ['=', '"'] ++ escapeValue value ++ ['"']

/-- Attributes as they are written. -/
def writeAttributes (ps : Prefixes) (attrs : Attributes) : Text :=
  attrs.flatMap fun (name, value) => writeAttribute (writeName ps name) value

/-- An element as it is written, given what is written for its attributes
and for what is inside it. One with nothing inside is a single tag. -/
def writeElement (name attrs inner : Text) : Text :=
  match inner with
  | [] => ['<'] ++ name ++ attrs ++ " />".toList
  | _ => ['<'] ++ name ++ attrs ++ ['>'] ++ inner ++ ['<', '/'] ++ name ++ ['>']

/-- Content as it is written. -/
def Content.write (ps : Prefixes) : Content → Text
  | .text t => escapeText t
  | .element before tag attrs inner after =>
    escapeText before ++
      writeElement (writeName ps tag) (writeAttributes ps attrs) (inner.write ps) ++
      after.write ps

/-- The declaration of a namespace as it is written. -/
def writeDeclaration (space pre : Text) : Text :=
  writeAttribute
    ("xmlns".toList ++ match pre with | [] => [] | pre => ':' :: pre) space

/-- The declarations of namespaces as they are written. -/
def writeDeclarations (ps : Prefixes) : Text :=
  (ps.mergeSort fun a b => !decide (b.2 < a.2)).flatMap fun (space, pre) =>
    writeDeclaration space pre

/-- An element as it is written with the declarations it needs, if there is
room for it. -/
def Element.write (e : Element) : Text :=
  let ps := prefixesFor e.names
  writeElement (writeName ps e.tag) (writeDeclarations ps ++ writeAttributes ps e.attrs)
    (e.inner.write ps)

-- ========================================================= within limits

/-- There is no room for one more call inside those that write the elements
around. -/
structure TooDeep where
deriving DecidableEq, Repr

/-- The text that reports that there is no room for one more call. -/
def TooDeep.message : TooDeep → Text := fun _ => "maximum recursion depth exceeded".toList

/-- Content as it is written where `room` elements may stand in one
another. -/
def Content.writeWithin (ps : Prefixes) : Nat → Content → Except TooDeep Text
  | _, .text t => .ok (escapeText t)
  | 0, .element .. => .error {}
  | room + 1, .element before tag attrs inner after => do
    let inner ← inner.writeWithin ps room
    let after ← after.writeWithin ps (room + 1)
    return escapeText before ++
      writeElement (writeName ps tag) (writeAttributes ps attrs) inner ++ after

/-- An element as it is written with the declarations it needs, where `room`
elements may stand in one another. -/
def Element.writeWithin (e : Element) : Nat → Except TooDeep Text
  | 0 => .error {}
  | room + 1 => do
    let ps := prefixesFor e.names
    let inner ← e.inner.writeWithin ps room
    return writeElement (writeName ps e.tag) (writeDeclarations ps ++ writeAttributes ps e.attrs)
      inner

end FreeLabel.Markup
