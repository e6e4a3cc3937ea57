/-
Namespaces in scope, and what a start tag says once they are known. A tag
may declare prefixes; what it declares holds for its own name, for its
attributes and for all that is inside it. The empty prefix stands for the
namespace of elements without a prefix, and never for one of attributes.

The attributes of a tag are those that it spells and then those that rules
give to its element; a rule may also declare a prefix.
-/
import FreeLabel.Markup.Content
import FreeLabel.Markup.Tag
import FreeLabel.Markup.Value

namespace FreeLabel.Markup

-- ================================================================= scopes

/-- The namespaces that prefixes stand for, latest declaration first. The
empty address stands for no namespace. -/
abbrev Scope := List (Text × Text)

/-- What is in scope before anything is declared. -/
def Scope.initial : Scope := [("xml".toList, xmlSpace)]

/-- The namespace of a prefix. -/
def Scope.find? (scope : Scope) (pre : Text) : Option Text :=
  (scope.lookup pre).filter fun space => !space.isEmpty

/-- The word that declares namespaces. -/
def declarationWord : Text := "xmlns".toList

/-- The namespace of declarations. -/
def declarationSpace : Text := "http://www.w3.org/2000/xmlns/".toList

/-- The prefix that an attribute of a name declares: the empty one if it
declares the namespace of elements without a prefix. -/
def declaredPrefix? (name : RawName) : Option Text :=
  match name.pre with
  | none => if name.base = declarationWord then some [] else none
  | some pre => if pre = declarationWord then some name.base else none

/-- What is wrong with declaring that a prefix stands for a namespace. A
brace could not be told from those that set off the namespace of a
name. -/
def declarationFault? (pre space : Text) : Option Fault :=
  let isXml := pre = "xml".toList
  if space.isEmpty && !pre.isEmpty then some .undeclaredPrefix
  else if pre = declarationWord then some .reservedDeclarationPrefix
  else if space.elem '}' then some .syntaxError
  else if isXml && space ≠ xmlSpace then some .reservedXmlPrefix
  else if !isXml && space = xmlSpace || space = declarationSpace then
    some .reservedNamespace
  else none

-- ============================================================= attributes

/-- Attributes as a tag has them, before their prefixes are looked up. -/
abbrev PlainAttributes := List (RawName × Text)

/-- What an attribute with a value adds to the attributes of a tag and to
the scope of what is inside it: one that declares a namespace adds to the
scope only. `tag` is the document from the tag on. -/
def addAttribute (tag : Text) (name : RawName) (value : Text)
    (plain : PlainAttributes) (scope : Scope) : Except Flaw (PlainAttributes × Scope) :=
  match declaredPrefix? name with
  | none => .ok (plain ++ [(name, value)], scope)
  | some pre =>
    match declarationFault? pre value with
    | some fault => .error { fault := fault, place := tag }
    | none => .ok (plain, (pre, value) :: scope)

/-- What the attributes of a tag add to those before them, which `seen`
names. The rules are those for the element. -/
def readAttributes (w : Surroundings) (rules : List AttributeRule) (tag : Text)
    (seen : List RawName) (b : Budget) (plain : PlainAttributes) (scope : Scope) :
    List RawAttribute → Except Flaw (PlainAttributes × Scope × Budget)
  | [] => .ok (plain, scope, b)
  | a :: attrs =>
    if a.name ∈ seen then .error { fault := .duplicateAttribute, place := a.place }
    else do
      let (value, b) ← a.value.value w b tag (isWorded rules a.name.spelling)
      let (plain, scope) ← addAttribute tag a.name value plain scope
      readAttributes w rules tag (a.name :: seen) b plain scope attrs

/-- What rules add to the attributes that a tag has, which `seen`
names. -/
def readDefaults (tag : Text) (seen : List RawName) (plain : PlainAttributes)
    (scope : Scope) : List AttributeRule → Except Flaw (PlainAttributes × Scope)
  | [] => .ok (plain, scope)
  | r :: rules =>
    let name := RawName.ofSpelling r.name
    match r.value? with
    | some value =>
      if name ∈ seen then readDefaults tag seen plain scope rules
      else do
        let (plain, scope) ← addAttribute tag name value plain scope
        readDefaults tag seen plain scope rules
    | none => readDefaults tag seen plain scope rules

/-- Attributes with the namespaces of their prefixes. `seen` holds the
names in namespaces before them. -/
def resolveAttributes (tag : Text) (scope : Scope) (seen : List Name) :
    PlainAttributes → Except Flaw Attributes
  | [] => .ok []
  | (name, value) :: attrs =>
    match name.pre with
    | none =>
      (resolveAttributes tag scope seen attrs).map (({ base := name.base }, value) :: ·)
    | some pre =>
      match scope.find? pre with
      | none => .error { fault := .unboundPrefix, place := tag }
      | some space =>
        let name : Name := { space := some space, base := name.base }
        if name ∈ seen then .error { fault := .duplicateAttribute, place := tag }
        else
          (resolveAttributes tag scope (name :: seen) attrs).map ((name, value) :: ·)

/-- The name of an element with the namespace of its prefix. -/
def resolveTag (tag : Text) (scope : Scope) (name : RawName) : Except Flaw Name :=
  match name.pre with
  | none => .ok { space := scope.find? [], base := name.base }
  | some pre =>
    match scope.find? pre with
    | none => .error { fault := .unboundPrefix, place := tag }
    | some space => .ok { space := some space, base := name.base }

/-- What a start tag says. -/
structure Tag where
  /-- The name of the element. -/
  name : Name
  /-- Its attributes. -/
  attrs : Attributes
  /-- What is in scope inside it. -/
  scope : Scope
deriving DecidableEq, Repr

/-- What a start tag says in a scope. `place` is the document from the
tag on. -/
def RawTag.resolve (w : Surroundings) (b : Budget) (place : Text) (scope : Scope)
    (tag : RawTag) : Except Flaw (Tag × Budget) := do
  let rules := w.declarations.rulesFor tag.name.spelling
  let (plain, scope, b) ← readAttributes w rules place [] b [] scope tag.attrs
  let (plain, scope) ← readDefaults place (tag.attrs.map (·.name)) plain scope rules
  let attrs ← resolveAttributes place scope [] plain
  let name ← resolveTag place scope tag.name
  .ok ({ name := name, attrs := attrs, scope := scope }, b)

end FreeLabel.Markup
