/-
What literals stand for: the value of an attribute, the text of an
entity, a public name. In the value of an attribute the references are
read, and with them the text of the entities that they name; in the text
of an entity only those to numbers are, and the others are kept for the
places where the entity is referred to.

An entity that is being gone through is not gone into again, which bounds
the reading. It does not bound what is read: entities of entities multiply
it, so there is a budget for the text of entities, which grows with what
has been read of the document.
-/
import FreeLabel.Markup.Entity
import FreeLabel.Markup.Fault

namespace FreeLabel.Markup

-- ================================================================= budget

/-- How much text of entities has been gone through. -/
structure Budget where
  /-- How the document is encoded. -/
  encoding : Encoding
  /-- How many bytes the document has. -/
  size : Nat
  /-- How many bytes of text of entities have been gone through. -/
  spent : Nat := 0
deriving DecidableEq, Repr

namespace Budget

/-- What is read of a document and its entities is not limited below this
many bytes. -/
def allowance : Nat := 8388608

/-- Above the allowance, this many bytes may be read for each byte of the
document. -/
def factor : Nat := 100

/-- The budget of a document of which nothing has been read. -/
def ofDocument (document : Document) : Budget :=
  { encoding := document.encoding, size := document.encoding.size document.text }

/-- How many bytes of the document have been read before `behind`. -/
def read (b : Budget) (behind : Text) : Nat := b.size - b.encoding.size behind

/-- The budget after going through the text `t` of an entity, unless that
is too much for what has been read of the document. -/
def spend? (b : Budget) (read : Thunk Nat) (t : Text) : Option Budget :=
  let spent := b.spent + Encoding.utf8.size t
  if b.size + spent < allowance || read.get + spent < allowance ||
      read.get + spent ≤ factor * read.get then
    some { b with spent := spent }
  else none

end Budget

-- ============================================================= references

/-- What a reference depends on. -/
structure Surroundings where
  /-- Where it is read. -/
  source : Source
  /-- What is declared. -/
  declarations : Declarations
  /-- The entities that are not being gone through. -/
  closed : Entities
  /-- How many bytes of the document have been read. They are counted only
  where it matters, and once for all the entities of a reference. -/
  read : Thunk Nat

namespace Surroundings

/-- The surroundings in a document before `rest`. -/
def ofDeclarations (source : Source) (d : Declarations) (b : Budget) (rest : Text) :
    Surroundings :=
  { source := source, declarations := d, closed := d.entities
    read := Thunk.mk fun _ => b.read rest }

/-- The surroundings before `rest`. Inside an entity no more of the
document is read. -/
def before (w : Surroundings) (b : Budget) (rest : Text) : Surroundings :=
  match w.source with
  | .document .. => { w with read := Thunk.mk fun _ => b.read rest }
  | .entity => w

theorem closed_before (w : Surroundings) (b : Budget) (rest : Text) :
    (w.before b rest).closed = w.closed := by
  unfold before
  split <;> rfl

/-- The surroundings inside the text of an entity. -/
def inside (w : Surroundings) (name : Text) : Surroundings :=
  { w with source := .entity, closed := w.closed.without name }

/-- The entity of a name. There is none if it may be declared
elsewhere. -/
def find (w : Surroundings) (name : Text) : Except Fault (Option Entity) :=
  match w.closed.lookup name with
  | some e => .ok (some e)
  | none =>
    if (w.declarations.entities.lookup name).isSome then .error .recursiveEntity
    else if w.declarations.lenient then .ok none
    else .error .undefinedEntity

theorem length_closed_inside_lt {w : Surroundings} {name : Text} {e : Entity}
    (h : w.find name = .ok (some e)) :
    (w.inside name).closed.length < w.closed.length := by
  unfold find at h
  split at h
  · next he => exact Entities.length_without_lt he
  · split at h
    · cases h
    · split at h <;> cases h

end Surroundings

-- ================================================================= values

/-- A fault in a value. -/
structure ValueFlaw where
  /-- What is wrong. -/
  fault : Fault
  /-- What of the value begins there, if it is found at a place in the
  value. -/
  place? : Option Text := none
deriving DecidableEq, Repr

/-- Reads the text of a value behind what `read` holds of it, latest
character first. Every line end and tab in it is a space. -/
def readValue (w : Surroundings) (b : Budget) (read : Text) :
    Text → Except ValueFlaw (Text × Budget)
  | [] => .ok (read, b)
  | c :: s =>
    if c = '<' then .error { fault := .invalidToken, place? := some (c :: s) }
    else if c = '&' then
      match _h : scanReference s with
      | .found (.char (some ch)) rest => readValue w b (ch :: read) rest
      | .found (.char none) _ =>
        .error { fault := .badCharacterNumber, place? := some (c :: s) }
      | .found (.entity name) rest =>
        match namedChar? name with
        | some ch => readValue w b (ch :: read) rest
        | none =>
          match _hf : w.find name with
          | .error fault => .error { fault := fault }
          | .ok none => readValue w b read rest
          | .ok (some .external) =>
            .error { fault := .externalEntity, place? := some (c :: s) }
          | .ok (some .unparsed) =>
            .error { fault := .binaryEntity, place? := some (c :: s) }
          | .ok (some (.text t)) =>
            match b.spend? w.read t with
            | none => .error { fault := .amplification }
            | some b =>
              match readValue (w.inside name) b read t with
              | .error flaw => .error { flaw with place? := none }
              | .ok (read, b) => readValue w b read rest
      | .invalid place => .error { fault := .invalidToken, place? := some place }
      | _ => .error { fault := .invalidToken, place? := some (c :: s) }
    else if c = '\r' && w.source.hasReturns then
      readValue w b (' ' :: read) (dropLineFeed s)
    else readValue w b ((if isXmlSpace c then ' ' else c) :: read) s
termination_by s => (w.closed.length, s.length)
decreasing_by
  · exact Prod.Lex.right _ (length_lt_of_scanReference _h)
  · exact Prod.Lex.right _ (length_lt_of_scanReference _h)
  · exact Prod.Lex.right _ (length_lt_of_scanReference _h)
  · exact Prod.Lex.left _ _ (Surroundings.length_closed_inside_lt _hf)
  · exact Prod.Lex.right _ (length_lt_of_scanReference _h)
  · exact Prod.Lex.right _ (Nat.lt_succ_of_le (length_dropLineFeed_le s))
  · exact Prod.Lex.right _ (by simp)

/-- A text without the spaces around its words, and with one between two
of them. -/
def joinWords (t : Text) : Text :=
  [' '].intercalate ((t.splitOn ' ').filter (· ≠ []))

/-- The value of an attribute that a literal spells. `place` is where a
fault of the value as a whole is reported. -/
def Literal.value (w : Surroundings) (b : Budget) (place : Text) (isWorded : Bool)
    (l : Literal) : Except Flaw (Text × Budget) :=
  match readValue w b [] l.body with
  | .ok (read, b) =>
    let t := read.reverse
    .ok (if isWorded then joinWords t else t, b)
  | .error flaw =>
    .error
      { fault := flaw.fault
        place := (flaw.place?.map (· ++ l.behind)).getD place }

-- ======================================================= texts of entities

/-- Reads the text of an entity behind what `read` holds of it, latest
character first. Every line end in it is a line feed. -/
def readEntityText (read : Text) : Text → Except Flaw Text
  | [] => .ok read.reverse
  | c :: s =>
    if c = '%' then
      match scanPercent s with
      | .found .reference _ => .error { fault := .parameterEntity, place := c :: s }
      | .found .sign rest => .error { fault := .invalidToken, place := rest }
      | .invalid place => .error { fault := .invalidToken, place := place }
      | _ => .error { fault := .invalidToken, place := c :: s }
    else if c = '&' then
      match _h : scanReference s with
      | .found (.char (some ch)) rest => readEntityText (ch :: read) rest
      | .found (.char none) _ =>
        .error { fault := .badCharacterNumber, place := c :: s }
      | .found (.entity name) rest =>
        readEntityText (('&' :: name ++ [';']).reverse ++ read) rest
      | .invalid place => .error { fault := .invalidToken, place := place }
      | _ => .error { fault := .invalidToken, place := c :: s }
    else if c = '\r' then readEntityText ('\n' :: read) (dropLineFeed s)
    else readEntityText (c :: read) s
termination_by s => s.length
decreasing_by
  · exact length_lt_of_scanReference _h
  · exact length_lt_of_scanReference _h
  · exact Nat.lt_succ_of_le (length_dropLineFeed_le s)
  · simp

/-- The text of an entity that a literal spells. -/
def Literal.entityText (l : Literal) : Except Flaw Text :=
  (readEntityText [] l.body).mapError fun flaw =>
    { flaw with place := flaw.place ++ l.behind }

-- =========================================================== public names

/-- Whether a character may stand in a public name. -/
def isPublicChar (c : Char) : Bool :=
  c.isAlphanum || " \r\n-'()+,./:=?;!*#@$_%".toList.elem c

/-- The fault of a literal as a public name. -/
def Literal.publicNameFlaw? (l : Literal) : Option Flaw :=
  match l.body.dropWhile isPublicChar with
  | [] => none
  | s => some { fault := .badPublicName, place := s ++ l.behind }

end FreeLabel.Markup
