/-
Reading a document: its prolog, its element, and what follows. The
element is read tag by tag. For every element that is open there is a
frame with what has been read of it; an end tag closes the innermost
frame and hands its element to the one around it, until the outermost
closes. Comments and instructions leave no trace, so the text before and
behind them becomes one text.

A reference to an entity is read by reading the text of the entity where
it stands. What is opened there is also closed there, and what goes wrong
there is reported at the reference, whatever entities lie between.

Every step takes up some of the text, or goes into an entity and leaves
fewer to go into; that ends the reading.
-/
import FreeLabel.Markup.Prolog
import FreeLabel.Markup.Scope

namespace FreeLabel.Markup

-- ================================================================= frames

/-- An element that is open. -/
structure Frame where
  /-- The spelling of its name. -/
  spelling : Text
  /-- Its name. -/
  tag : Name
  /-- Its attributes. -/
  attrs : Attributes
  /-- What is in scope inside it. -/
  scope : Scope
  /-- The elements read inside it, each with the text before it; latest
  first. -/
  children : List (Text × Element) := []
  /-- The characters read behind those, latest first. -/
  text : Text := []

namespace Frame

/-- The frame of an element whose start tag has been read. -/
def ofTag (spelling : Text) (t : Tag) : Frame :=
  { spelling := spelling, tag := t.name, attrs := t.attrs, scope := t.scope }

/-- A frame with one more character read. -/
def push (f : Frame) (c : Char) : Frame := { f with text := c :: f.text }

/-- A frame with more characters read. -/
def pushAll (f : Frame) (t : Text) : Frame := { f with text := t.reverse ++ f.text }

/-- A frame with one more element read. -/
def add (f : Frame) (e : Element) : Frame :=
  { f with children := (f.text.reverse, e) :: f.children, text := [] }

/-- The content that children and the text behind them make up. -/
def content (children : List (Text × Element)) (last : Text) : Content :=
  children.foldl (fun after (before, e) => .element before e.tag e.attrs e.inner after)
    (.text last)

/-- The element that a frame has become. -/
def close (f : Frame) : Element :=
  { tag := f.tag, attrs := f.attrs, inner := content f.children f.text.reverse }

end Frame

/-- The fault of a document that ends too soon, if nothing is left behind
its last character. -/
def Tail.fault : Tail → Fault → Fault
  | nothing, fault => fault
  | oddByte, _ => .unclosedToken
  | halfCharacter, _ => .partialCharacter

/-- The flaw in a part that begins at `place`, if its end was not
found. -/
def Scan.flaw (tail : Tail) (place : Text) : Scan α → Flaw
  | invalid there => { fault := .invalidToken, place := there }
  | unclosedSection there =>
    if tail = .halfCharacter then { fault := .partialCharacter, place := [] }
    else { fault := .unclosedSection, place := there }
  | _ => { fault := tail.fault .unclosedToken, place := place }

/-- How far an element has been read. -/
inductive Progress
  /-- The innermost open element, and those around it. -/
  | inside (f : Frame) (outer : List Frame)
  /-- The element is at its end. -/
  | closed (f : Frame)

/-- What closing an element makes of those around it. -/
def Progress.close (f : Frame) : List Frame → Progress
  | [] => .closed f
  | g :: outer => .inside (g.add f.close) outer

/-- What a start tag does. The elements around it begin with the
innermost, in whose scope it stands. -/
def Progress.enter (w : Surroundings) (b : Budget) (place : Text) (outer : List Frame)
    (tag : RawTag) : Except Flaw (Progress × Budget) := do
  let scope := (outer.head?.map Frame.scope).getD Scope.initial
  let (t, b) ← tag.resolve w b place scope
  let f := Frame.ofTag tag.name.spelling t
  .ok (if tag.isWhole then .close f outer else .inside f outer, b)

/-- What a piece of markup does in the innermost open element. In the text
of an entity no element is closed that was open before. `place` is the
text from the piece on. -/
def Progress.step (w : Surroundings) (b : Budget) (f : Frame) (outer : List Frame)
    (place : Text) : Bracketed → Except Flaw (Progress × Budget)
  | .comment => .ok (.inside f outer, b)
  | .instruction target =>
    if target = declarationTarget then
      .error { fault := .misplacedDeclaration, place := place }
    else .ok (.inside f outer, b)
  | .characters t => .ok (.inside (f.pushAll t) outer, b)
  | .endTag spelling name =>
    if w.source = .entity ∧ outer.isEmpty then
      .error { fault := .asynchronousEntity, place := place }
    else if spelling = f.spelling then .ok (.close f outer, b)
    else .error { fault := .mismatchedTag, place := name }
  | .startTag tag => Progress.enter w b place (f :: outer) tag

-- ================================================================ content

/-- What a reference in content stands for. -/
inductive Referent
  /-- A character. -/
  | char (c : Char)
  /-- The text of an entity, and the budget behind it. -/
  | text (name t : Text) (b : Budget)

/-- What a reference in content stands for, or why it stands for
nothing. -/
def Surroundings.referent (w : Surroundings) (b : Budget) :
    Reference → Except Fault Referent
  | .char (some c) => .ok (.char c)
  | .char none => .error .badCharacterNumber
  | .entity name =>
    match namedChar? name with
    | some c => .ok (.char c)
    | none =>
      match w.find name with
      | .error fault => .error fault
      | .ok (some (.text t)) =>
        match b.spend? w.read t with
        | some b => .ok (.text name t b)
        | none => .error .amplification
      | .ok (some .unparsed) => .error .binaryEntity
      | .ok _ => .error (.unknownEntity name)

/-- Only an entity that is not being gone through is gone into. -/
theorem Surroundings.find_of_referent {w : Surroundings} {b b' : Budget}
    {r : Reference} {name t : Text} (h : w.referent b r = .ok (.text name t b')) :
    w.find name = .ok (some (.text t)) := by
  fun_cases referent w b r <;> simp_all [referent]

/-- What the end of the text in an element is, of which `last` has not been
read: the end of an entity, if all that it opened is closed. A byte that
is left over counts only if nothing else is. -/
def Frame.atEnd (source : Source) (outer : List Frame) (last : Text) (f : Frame) :
    Except Flaw Frame :=
  match source, outer with
  | .document _ tail, _ =>
    let tail := if last ≠ [] && tail = .oddByte then .nothing else tail
    let place := if last = ['\r'] && tail = .nothing then last else []
    .error { fault := tail.fault .noElement, place := place }
  | .entity, [] => .ok (f.pushAll last)
  | .entity, _ :: _ => .error { fault := .asynchronousEntity, place := [] }

/-- Reads content in an element up to the end of the element, or of the
entity that it stands in, and yields what follows. -/
def readContent (w : Surroundings) (b : Budget) (f : Frame) (outer : List Frame) :
    Text → Except Flaw (Frame × Text × Budget)
  | [] => (f.atEnd w.source outer []).map fun f => (f, [], b)
  | [']'] => (f.atEnd w.source outer [']']).map fun f => (f, [], b)
  | [']', ']'] => (f.atEnd w.source outer [']', ']']).map fun f => (f, [], b)
  | ']' :: ']' :: '>' :: s => .error { fault := .invalidToken, place := '>' :: s }
  | c :: s =>
    if c = '<' then
      match _h : scanBracketed w.source s with
      | .found m rest =>
        match Progress.step (w.before b rest) b f outer (c :: s) m with
        | .error flaw => .error flaw
        | .ok (.closed f, b) => .ok (f, rest, b)
        | .ok (.inside f outer, b) => readContent w b f outer rest
      | unread => .error (unread.flaw w.source.tail (c :: s))
    else if c = '&' then
      match _h : scanReference s with
      | .found r rest =>
        match _hr : (w.before b rest).referent b r with
        | .error fault => .error { fault := fault, place := c :: s }
        | .ok (.char ch) => readContent w b (f.push ch) outer rest
        | .ok (.text name t spent) =>
          match readContent ((w.before b rest).inside name) spent f [] t with
          | .error flaw => .error { flaw with place := c :: s }
          | .ok (f, _, b) => readContent w b f outer rest
      | unread => .error (unread.flaw w.source.tail (c :: s))
    else if !isXmlChar c then .error { fault := .invalidToken, place := c :: s }
    else if c = '\r' && w.source.hasReturns then
      if s = [] then
        (f.atEnd w.source outer [c]).map fun f => (f, [], b)
      else readContent w b (f.push '\n') outer (dropLineFeed s)
    else readContent w b (f.push c) outer s
termination_by s => (w.closed.length, s.length)
decreasing_by
  · have := scanBracketed_within w.source s
    rw [_h] at this
    exact Prod.Lex.right _ (by simp [Scan.Within] at this ⊢; omega)
  · exact Prod.Lex.right _ (length_lt_of_scanReference _h)
  · have := Surroundings.length_closed_inside_lt (Surroundings.find_of_referent _hr)
    rw [w.closed_before] at this
    exact Prod.Lex.left _ _ this
  · exact Prod.Lex.right _ (length_lt_of_scanReference _h)
  · exact Prod.Lex.right _ (Nat.lt_succ_of_le (length_dropLineFeed_le s))
  · exact Prod.Lex.right _ (by simp)

/-- Reads the element that a document goes on with. -/
def readElement (source : Source) (d : Declarations) (b : Budget) (s : Text) :
    Except Flaw (Element × Text) :=
  match scanStartTag s.tail with
  | .found tag rest => do
    let w := Surroundings.ofDeclarations source d b rest
    match ← Progress.enter w b s [] tag with
    | (.closed f, _) => .ok (f.close, rest)
    | (.inside f outer, b) =>
      let (f, rest, _) ← readContent w b f outer rest
      .ok (f.close, rest)
  | unread => .error (unread.flaw source.tail s)

-- ============================================================== documents

/-- Reads the prolog of a document up to its element. -/
def readProlog (p : PrologState) (s : Text) : Except Flaw (PrologState × Text) :=
  if startsElement p.source.encoding s then
    if p.stage.mayBegin then .ok (p, s)
    else .error { fault := .syntaxError, place := s }
  else
    match s with
    | [] => .error { fault := p.source.tail.fault .noElement, place := [] }
    | c :: s =>
      match _h : scanProlog p.source.encoding (c :: s) with
      | .found t rest =>
        match p.step (c :: s) rest t with
        | .ok p => readProlog p rest
        | .error flaw => .error flaw
      | unread => .error (unread.flaw p.source.tail (c :: s))
termination_by s.length
decreasing_by
  exact length_lt_of_scanProlog _h

/-- Whether a token may follow the element of a document. -/
def PrologToken.mayFollow : PrologToken → Bool
  | .space | .comment => true
  | .instruction target _ _ => target ≠ declarationTarget
  | _ => false

/-- Reads what follows the element of a document. -/
def readEpilog (source : Source) (s : Text) : Except Flaw Unit :=
  if startsElement source.encoding s then .error { fault := .junk, place := s }
  else
    match s with
    | [] =>
      if source.tail = .nothing then .ok ()
      else .error { fault := source.tail.fault .junk, place := [] }
    | c :: s =>
      match _h : scanProlog source.encoding (c :: s) with
      | .found t rest =>
        if t.mayFollow then readEpilog source rest
        else .error { fault := .junk, place := c :: s }
      | unread => .error (unread.flaw source.tail (c :: s))
termination_by s.length
decreasing_by
  exact length_lt_of_scanProlog _h

/-- A document without the byte order mark that it may begin with. -/
def dropByteOrderMark : Text → Text
  | '\uFEFF' :: s => s
  | s => s

/-- The element of a document. -/
def Element.ofDocument (document : Document) : Except Flaw Element := do
  let p : PrologState := { source := document.source, budget := .ofDocument document }
  let (p, s) ← readProlog p (dropByteOrderMark document.text)
  let (e, rest) ← readElement p.source p.declarations p.budget s
  readEpilog document.source rest
  .ok e

end FreeLabel.Markup
