/-
The form of a document type and of the declarations in it. What is still
to come is a row of things that are due; a token stands for the first of
them if it may stand there, and may make others due in its place. So a
list of choices, a group of groups and the subset itself, which hold any
number of parts, are things that make themselves due again.

Tokens that declare something say so by an `Act`. Which of the acts count,
and whether a literal is a value, is decided by whoever performs them.
-/
import FreeLabel.Markup.Entity
import FreeLabel.Markup.Prolog.Token

namespace FreeLabel.Markup

-- =================================================================== acts

/-- What a token of a document type does. -/
inductive Act
  /-- Nothing. -/
  | pass
  /-- Names an external subset. -/
  | nameSubset
  /-- Refers to declarations that are elsewhere. -/
  | skip
  /-- Gives a public name. -/
  | publicName (l : Literal)
  /-- Gives the text of an entity; a parameter entity has no name that
  content could refer to. -/
  | entityText (name : Option Text) (l : Literal)
  /-- Declares an entity whose text is not given. -/
  | entity (name : Text) (e : Entity)
  /-- Declares an attribute, with the value in a tag without it. -/
  | rule (element name : Text) (kind : ValueKind) (value : Option Literal)
deriving DecidableEq, Repr

-- ================================================================ due

/-- What is due in a document type. -/
inductive Due
  /-- The name of the document type. -/
  | typeName
  /-- Where its external subset is, or its internal subset, or its end. -/
  | typeSource
  /-- The address of its external subset. -/
  | typeAddress
  /-- Its internal subset or its end. -/
  | subsetOrEnd
  /-- Another declaration, or the end of the internal subset. -/
  | subset
  /-- A public name. -/
  | publicName
  /-- An address. -/
  | address
  /-- The end of a declaration. -/
  | close
  /-- The name of an entity, or the sign that it is a parameter entity. -/
  | entityName
  /-- The name of a parameter entity. -/
  | parameterName
  /-- The text of an entity, or where it is. A parameter entity has no
  name. -/
  | definition (name : Option Text)
  /-- The end of the declaration of an entity that is elsewhere, or the
  word that says that it is no text. -/
  | entityEnd (name : Option Text)
  /-- The format of an entity that is no text. -/
  | entityFormat (name : Text)
  /-- The name of a format. -/
  | formatName
  /-- Where a format is described. -/
  | formatSource
  /-- The address of the description of a format, or the end of its
  declaration. -/
  | formatAddressOrEnd
  /-- The name of the element that attributes are declared for. -/
  | ruleElement
  /-- The name of another attribute, or the end of the declaration. -/
  | ruleName (element : Text)
  /-- What an attribute's value may be. -/
  | ruleKind (element name : Text)
  /-- The value in a tag without the attribute, or that there is none. -/
  | ruleDefault (element name : Text) (kind : ValueKind)
  /-- The only value that an attribute may have. -/
  | ruleFixed (element name : Text) (kind : ValueKind)
  /-- A group of names of formats. -/
  | formatGroup
  /-- A choice in a group; `isName` if it has to be a name. -/
  | choice (isName : Bool)
  /-- The end of a group of choices, or another one. -/
  | choiceEnd (isName : Bool)
  /-- The name of the element that is described. -/
  | modelElement
  /-- What may be in an element. -/
  | model
  /-- The first part of a group. -/
  | firstPart
  /-- A part of a group. -/
  | part
  /-- The end of a group, or another part. The parts are joined by the
  same token throughout. -/
  | partEnd (joint : Option PrologToken)
  /-- The end of a group that begins with text, or the first of the names
  of elements in it. -/
  | mixedEnd
  /-- The name of an element between text. -/
  | mixedName
  /-- The end of a group of text and elements, or another name. -/
  | mixedNameEnd
deriving DecidableEq, Repr

namespace Due

/-- What a token makes of what is due: what is due instead, and what is
done. -/
abbrev Taken := Option (List Due × Act)

/-- A token that makes other things due. -/
def next (ds : List Due) : Taken := some (ds, .pass)

/-- A token that does something. -/
def act (a : Act) : Taken := some ([], a)

/-- A word out of some, each of which makes other things due. -/
def choose (w : Text) (table : List (String × List Due)) : Taken :=
  (table.find? (·.1.toList = w)).map fun (_, ds) => (ds, .pass)

/-- The declarations of a subset. -/
def declarationKinds : List (String × List Due) :=
  [("ENTITY", [entityName, subset]), ("ATTLIST", [ruleElement, subset]),
    ("ELEMENT", [modelElement, subset]), ("NOTATION", [formatName, subset])]

/-- The words for what an attribute's value may be. -/
def valueKinds (element name : Text) : List (String × List Due) :=
  let rest := ruleDefault element name
  [("CDATA", [rest .text]), ("ID", [rest .identifier]), ("IDREF", [rest .words]),
    ("IDREFS", [rest .words]), ("ENTITY", [rest .words]), ("ENTITIES", [rest .words]),
    ("NMTOKEN", [rest .words]), ("NMTOKENS", [rest .words]),
    ("NOTATION", [formatGroup, rest .words])]

/-- What a token makes of what is due in the document type itself. -/
def takeType (d : Due) (t : PrologToken) : Taken :=
  match d, t with
  | typeName, .word _ | typeName, .qualified _ => next [typeSource]
  | typeSource, .word w =>
    choose w
      [("SYSTEM", [typeAddress, subsetOrEnd]),
        ("PUBLIC", [publicName, typeAddress, subsetOrEnd])]
  | typeSource, .openBracket | subsetOrEnd, .openBracket => next [subset, close]
  | typeSource, .close | subsetOrEnd, .close | close, .close => next []
  | typeAddress, .literal _ => act .nameSubset
  | subset, .comment | subset, .instruction .. => next [subset]
  | subset, .parameterEntity => some ([subset], .skip)
  | subset, .closeBracket => next []
  | subset, .declaration kind => choose kind declarationKinds
  | publicName, .literal l => act (.publicName l)
  | address, .literal _ => next []
  | _, _ => none

/-- What a token makes of what is due in the declaration of an entity or
of a format. -/
def takeEntity (d : Due) (t : PrologToken) : Taken :=
  match d, t with
  | entityName, .percent => next [parameterName]
  | entityName, .word w => next [definition (some w)]
  | parameterName, .word _ => next [definition none]
  | definition name, .literal l => some ([close], .entityText name l)
  | definition name, .word w =>
    choose w
      [("SYSTEM", [address, entityEnd name]),
        ("PUBLIC", [publicName, address, entityEnd name])]
  | entityEnd none, .close => next []
  | entityEnd (some name), .close => act (.entity name .external)
  | entityEnd (some name), .word w => choose w [("NDATA", [entityFormat name])]
  | entityFormat name, .word _ => some ([close], .entity name .unparsed)
  | formatName, .word _ => next [formatSource]
  | formatSource, .word w =>
    choose w
      [("SYSTEM", [address, close]), ("PUBLIC", [publicName, formatAddressOrEnd])]
  | formatAddressOrEnd, .literal _ => next [close]
  | formatAddressOrEnd, .close => next []
  | _, _ => none

/-- What a token makes of what is due in the declaration of attributes. -/
def takeRule (d : Due) (t : PrologToken) : Taken :=
  match d, t with
  | ruleElement, .word w | ruleElement, .qualified w => next [ruleName w]
  | ruleName e, .word w | ruleName e, .qualified w => next [ruleKind e w, ruleName e]
  | ruleName _, .close => next []
  | ruleKind e n, .word w => choose w (valueKinds e n)
  | ruleKind e n, .openGroup => next [choice false, ruleDefault e n .words]
  | ruleDefault e n k, .literal l | ruleFixed e n k, .literal l =>
    act (.rule e n k (some l))
  | ruleDefault e n k, .keyword w =>
    if w = "FIXED".toList then next [ruleFixed e n k]
    else if w = "IMPLIED".toList ∨ w = "REQUIRED".toList then act (.rule e n k none)
    else none
  | formatGroup, .openGroup => next [choice true]
  | choice isName, .word _ => next [choiceEnd isName]
  | choice false, .qualified _ | choice false, .loose => next [choiceEnd false]
  | choiceEnd isName, .bar => next [choice isName]
  | choiceEnd _, .closeGroup none => next []
  | _, _ => none

/-- What a token makes of a part of a group. Behind a group in the group
`rest` is due. -/
def takePart (rest : List Due) : PrologToken → Taken
  | .word _ | .qualified _ | .repeated => next rest
  | .openGroup => next (part :: partEnd none :: rest)
  | _ => none

/-- What a token makes of what is due in the description of an
element. -/
def takeModel (d : Due) (t : PrologToken) : Taken :=
  match d, t with
  | modelElement, .word _ | modelElement, .qualified _ => next [model]
  | model, .word w => choose w [("EMPTY", [close]), ("ANY", [close])]
  | model, .openGroup => next [firstPart, close]
  | firstPart, .keyword w => if w = "PCDATA".toList then next [mixedEnd] else none
  | firstPart, t => takePart [partEnd none] t
  | part, t => takePart [] t
  | partEnd _, .closeGroup _ => next []
  | partEnd joint, .comma => if joint = some .bar then none else next [part, partEnd (some .comma)]
  | partEnd joint, .bar => if joint = some .comma then none else next [part, partEnd (some .bar)]
  | mixedEnd, .closeGroup mark => if mark.all (· = '*') then next [] else none
  | mixedEnd, .bar | mixedNameEnd, .bar => next [mixedName]
  | mixedName, .word _ | mixedName, .qualified _ => next [mixedNameEnd]
  | mixedNameEnd, .closeGroup mark => if mark = some '*' then next [] else none
  | _, _ => none

/-- What a token makes of what is due. Space may stand before all that
is. -/
def take (d : Due) (t : PrologToken) : Taken :=
  if t = .space then next [d]
  else
    (takeType d t).or <| (takeEntity d t).or <| (takeRule d t).or (takeModel d t)

end Due

end FreeLabel.Markup
