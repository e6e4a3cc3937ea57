/-
One compile pass: what it owns and how it ends early. A pass issues
identifiers, remembers which flowchart label has which, and collects
diagnostics; it belongs to one source and to the drawing made of it.

A line that cannot be translated in full is reported. A strict pass stops
at the first report; a lenient one notes it and goes on. Stopping keeps
what the pass owned at that moment.
-/
import FreeLabel.Naming.Allocator
import FreeLabel.Text.Blank

namespace FreeLabel

-- ============================================================== reports

/-- Why a line is not translated in full. -/
inductive Complaint
  /-- An attribute line has a single field. -/
  | incompleteAttribute
  /-- Characters of a flowchart line begin no token and are dropped. -/
  | strayText (dropped : Text)
  /-- A reason in the words of whoever reports it. -/
  | remark (words : Text)
deriving DecidableEq, Repr

/-- The text of a complaint. -/
def Complaint.message : Complaint → Text
  | incompleteAttribute =>
    "attribute needs at least a name and a type".toList
  | strayText dropped =>
    "unrecognized text dropped: ".toList ++ Text.quoted dropped
  | remark words => words

/-- A complaint about a line of the source. -/
structure Diagnostic where
  /-- The number of the line; a source's lines are numbered from one. -/
  lineNo : Int
  /-- The line as it stands in the source. -/
  line : Text
  /-- What is wrong with it. -/
  complaint : Complaint
deriving DecidableEq, Repr

/-- Why a pass stops. -/
inductive Halt
  /-- A strict pass met a line that it cannot translate in full. -/
  | malformed (d : Diagnostic)
  /-- An identifier was to be given a second name. -/
  | conflict (c : Naming.Conflict)
deriving DecidableEq, Repr

/-- The text that reports why a pass stopped. -/
def Halt.message : Halt → Text
  | malformed d =>
    "Line ".toList ++ Text.ofInt d.lineNo ++ ": ".toList ++ d.complaint.message ++
      ": ".toList ++ Text.quoted (Text.trim d.line)
  | conflict c => c.message

-- ============================================================= the pass

/-- What a pass owns. -/
structure Context where
  /-- By how much an attribute's identifier exceeds its name in length, so
  that a column drawn for the identifier has room for the name. -/
  padding : Int := 2
  /-- Whether the first report stops the pass. -/
  strict : Bool := false
  /-- The identifiers issued so far. -/
  allocator : Naming.Allocator := {}
  /-- The reports so far, oldest first. -/
  diagnostics : List Diagnostic := []
  /-- The identifier of each flowchart label, in order of first mention. -/
  nodes : List (Text × Text) := []

/-- What the pass's identifiers stand for. -/
def Context.legend (c : Context) : Naming.Legend := c.allocator.legend

/-- A step of a pass. -/
abbrev Pass := EStateM Halt Context

namespace Pass

/-- Issues an identifier of at least `minLength` characters for `name`. -/
def allocate (name : Text) (minLength : Nat) : Pass Text := do
  let c ← get
  let (answer, allocator) := c.allocator.allocate name minLength
  set { c with allocator := allocator }
  match answer with
  | .ok id => pure id
  | .error conflict => throw (.conflict conflict)

/-- Reports a line: a strict pass stops, a lenient one notes it. -/
def report (lineNo : Int) (line : Text) (complaint : Complaint) : Pass Unit := do
  let d : Diagnostic := { lineNo := lineNo, line := line, complaint := complaint }
  let c ← get
  if c.strict then throw (.malformed d)
  else set { c with diagnostics := c.diagnostics ++ [d] }

end Pass

end FreeLabel
