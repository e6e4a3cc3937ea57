/-
What stands around the element of a document: its declaration, space,
comments, instructions and a document type. A document type may declare
entities and rules for attributes in an internal subset; it may also name
an external subset, which is not read.
-/
import FreeLabel.Markup.Prolog.Due
import FreeLabel.Markup.Prolog.Head
import FreeLabel.Markup.Value

namespace FreeLabel.Markup

/-- How far a prolog has been read. -/
inductive Stage
  /-- Nothing has been read. -/
  | head
  /-- No document type has been read. -/
  | beforeType
  /-- A document type has been begun, and some things are due in it. -/
  | inType (due : List Due)
deriving DecidableEq, Repr

namespace Stage

/-- Whether the element of the document may begin. -/
def mayBegin : Stage → Bool
  | head | beforeType | inType [] => true
  | inType (_ :: _) => false

/-- What a token makes of a stage, and what it does. -/
def next? : Stage → PrologToken → Option (Stage × Act)
  | head, .space | head, .comment | head, .instruction .. => some (beforeType, .pass)
  | beforeType, .space | beforeType, .comment | beforeType, .instruction .. =>
    some (beforeType, .pass)
  | head, .declaration kind | beforeType, .declaration kind =>
    if kind = "DOCTYPE".toList then some (inType [.typeName], .pass) else none
  | inType [], .space | inType [], .comment | inType [], .instruction .. =>
    some (inType [], .pass)
  | inType (d :: due), t => (d.take t).map fun (ds, act) => (inType (ds ++ due), act)
  | _, _ => none

end Stage

/-- What has been read of a prolog. -/
structure PrologState where
  /-- Where it is read. -/
  source : Source
  /-- How far it has been read. -/
  stage : Stage := .head
  /-- What it has declared. -/
  declarations : Declarations := {}
  /-- The text of entities that has been gone through. -/
  budget : Budget
deriving DecidableEq, Repr

namespace PrologState

/-- A prolog with other declarations. -/
def declaring (p : PrologState) (f : Declarations → Declarations) : PrologState :=
  { p with declarations := f p.declarations }

/-- What an instruction for the reader itself does at the head of a
document, and why it stands nowhere else. The body's places are places in
the document, of which `behind` follows the body. -/
def declare (p : PrologState) (place body behind : Text) : Except Flaw PrologState :=
  if p.stage ≠ .head then .error { fault := .misplacedDeclaration, place := place }
  else
    match readDeclaration body with
    | .ok alone =>
      .ok ({ p with stage := .beforeType }.declaring ({ · with isAlone := alone }))
    | .error rest => .error { fault := .badDeclaration, place := rest ++ behind }

/-- What an act does to what has been read. The literals of declarations
that do not count are not looked into, except for public names. `place` is
the document from the token on, and `rest` what follows it. -/
def perform (p : PrologState) (place rest : Text) : Act → Except Flaw PrologState
  | .pass => .ok p
  | .nameSubset => .ok (p.declaring ({ · with hasExternal := true }))
  | .skip => .ok (p.declaring ({ · with hasSkipped := true }))
  | .publicName l => l.publicNameFlaw?.elim (.ok p) .error
  | .entity name e => .ok (p.declaring (·.addEntity name e))
  | .entityText name l =>
    if p.declarations.counts then do
      let t ← l.entityText
      .ok (name.elim p fun name => p.declaring (·.addEntity name (.text t)))
    else .ok p
  | .rule element name kind value =>
    if p.declarations.counts then do
      let (value?, budget) ← read kind value
      let rule := { element := element, name := name, kind := kind, value? := value? }
      .ok ({ p with budget := budget }.declaring (·.addRule rule))
    else .ok p
where
  /-- The value that a rule gives. -/
  read (kind : ValueKind) : Option Literal → Except Flaw (Option Text × Budget)
    | none => .ok (none, p.budget)
    | some l =>
      let w := Surroundings.ofDeclarations p.source p.declarations p.budget rest
      (l.value w p.budget place (kind ≠ .text)).map fun (t, b) => (some t, b)

/-- What has been read behind a token that goes on to the end of the
document. It takes up a byte that is left over there, but half a character
leaves it without an end. -/
def atEnd (p : PrologState) (place : Text) : Except Flaw PrologState :=
  if p.source.tail = .halfCharacter then
    .error { fault := .partialCharacter, place := place }
  else .ok { p with source := p.source.withoutOddByte }

/-- What a token does to what has been read. -/
def step (p : PrologState) (place rest : Text) (t : PrologToken) :
    Except Flaw PrologState :=
  match t with
  | .instruction target body _ =>
    if target = declarationTarget then
      p.declare place body (place.drop (place.length - rest.length - 2))
    else next p t
  | t =>
    if rest = [] ∧ t.isOpenEnded then (p.atEnd place).bind (next · t) else next p t
where
  /-- The state behind a token at the stage. -/
  next (p : PrologState) (t : PrologToken) : Except Flaw PrologState :=
    match p.stage.next? t with
    | some (stage, act) => { p with stage := stage }.perform place rest act
    | none =>
      .error
        { fault := if t = .parameterEntity then .parameterEntity else .syntaxError
          place := place }

end PrologState

end FreeLabel.Markup
