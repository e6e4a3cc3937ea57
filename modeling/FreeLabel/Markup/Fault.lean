/-
Why a document is not read, and where. A fault is found at some place in
the document, given by the text that begins there; what is reported of it
is the number of the line and of the column.
-/
import FreeLabel.Text.Utf8

namespace FreeLabel.Markup

/-- What can be wrong with a document. -/
inductive Fault
  /-- The document ends before its element does. -/
  | noElement
  /-- Something stands where it may not. -/
  | syntaxError
  /-- A character stands where it may not. -/
  | invalidToken
  /-- A tag, comment or instruction is not ended. -/
  | unclosedToken
  /-- The document ends within a character. -/
  | partialCharacter
  /-- A section of character data is not ended. -/
  | unclosedSection
  /-- An end tag names another element than the one that is open. -/
  | mismatchedTag
  /-- Something follows the element of the document. -/
  | junk
  /-- An entity is not declared. -/
  | undefinedEntity
  /-- An entity has no text that was read. -/
  | unknownEntity (name : Text)
  /-- An entity's text leads back to the entity. -/
  | recursiveEntity
  /-- An entity's text begins or ends within an element. -/
  | asynchronousEntity
  /-- An entity is no text. -/
  | binaryEntity
  /-- The text of an entity in an attribute's value is elsewhere. -/
  | externalEntity
  /-- Entities make too much of a document. -/
  | amplification
  /-- A number stands for no character of documents. -/
  | badCharacterNumber
  /-- An element has an attribute twice. -/
  | duplicateAttribute
  /-- A prefix stands for no namespace. -/
  | unboundPrefix
  /-- A prefix is declared to stand for no namespace. -/
  | undeclaredPrefix
  /-- The prefix of markup's own namespace is given to another. -/
  | reservedXmlPrefix
  /-- The prefix of declarations is declared. -/
  | reservedDeclarationPrefix
  /-- A reserved namespace is given another prefix. -/
  | reservedNamespace
  /-- The declaration of the document is not at its head. -/
  | misplacedDeclaration
  /-- The declaration of the document says something unknown. -/
  | badDeclaration
  /-- A parameter entity is referred to within a declaration. -/
  | parameterEntity
  /-- A public name holds a character that it may not. -/
  | badPublicName
deriving DecidableEq, Repr

/-- A reference to an entity as far as a report shows it: a hundred bytes,
with a mark for a character that they cut in two. -/
def shownReference (name : Text) : Text :=
  Text.decode ['\uFFFD'] ((Text.encode ('&' :: name ++ [';'])).take 100)

/-- The words for a fault. -/
def Fault.words : Fault → Text
  | noElement => "no element found".toList
  | syntaxError => "syntax error".toList
  | invalidToken => "not well-formed (invalid token)".toList
  | unclosedToken => "unclosed token".toList
  | partialCharacter => "partial character".toList
  | unclosedSection => "unclosed CDATA section".toList
  | mismatchedTag => "mismatched tag".toList
  | junk => "junk after document element".toList
  | undefinedEntity => "undefined entity".toList
  | unknownEntity name => "undefined entity ".toList ++ shownReference name
  | recursiveEntity => "recursive entity reference".toList
  | asynchronousEntity => "asynchronous entity".toList
  | binaryEntity => "reference to binary entity".toList
  | externalEntity => "reference to external entity in attribute".toList
  | amplification =>
    "limit on input amplification factor (from DTD and entities) breached".toList
  | badCharacterNumber => "reference to invalid character number".toList
  | duplicateAttribute => "duplicate attribute".toList
  | unboundPrefix => "unbound prefix".toList
  | undeclaredPrefix => "must not undeclare prefix".toList
  | reservedXmlPrefix =>
    "reserved prefix (xml) must not be undeclared or bound to another namespace name".toList
  | reservedDeclarationPrefix =>
    "reserved prefix (xmlns) must not be declared or undeclared".toList
  | reservedNamespace =>
    "prefix must not be bound to one of the reserved namespace names".toList
  | misplacedDeclaration => "XML or text declaration not at start of entity".toList
  | badDeclaration => "XML declaration not well-formed".toList
  | parameterEntity => "illegal parameter entity reference".toList
  | badPublicName => "illegal character(s) in public id".toList

/-- A fault with the text of the document from its place on. -/
structure Flaw where
  /-- What is wrong. -/
  fault : Fault
  /-- What of the document begins there. -/
  place : Text
deriving DecidableEq, Repr

/-- A place in a text. -/
structure Position where
  /-- The line, from one. -/
  line : Nat := 1
  /-- The characters before it on its line. -/
  column : Nat := 0
deriving DecidableEq, Repr

/-- The position behind a text that begins at `p`. A carriage return ends
a line, together with the line feed behind it if there is one. -/
def Position.after (p : Position) : Text → Position
  | [] => p
  | '\r' :: '\n' :: s => Position.after { line := p.line + 1 } s
  | c :: s =>
    if c = '\n' || c = '\r' then Position.after { line := p.line + 1 } s
    else Position.after { p with column := p.column + 1 } s

/-- The text that reports a flaw in a document. -/
def Flaw.message (document : Text) (flaw : Flaw) : Text :=
  let read := document.take (document.length - flaw.place.length)
  let p := Position.after {} read
  flaw.fault.words ++ ": line ".toList ++ Text.ofNat p.line ++ ", column ".toList ++
    Text.ofNat p.column

end FreeLabel.Markup
