/-
Active content that a compiled diagram may not carry: directives that
reconfigure the renderer, elements that load or run something, and
script addresses. A diagram is checked without its carriage returns, so
that none can hide a word.
-/
import FreeLabel.Text.Blank
import FreeLabel.Text.Fold

namespace FreeLabel

open Text (afterAnyCase? after? trimLeft)

/-- What a diagram may not carry. -/
inductive ActiveContent
  | initDirective | script | iframe | image | scriptAddress
deriving DecidableEq, Repr

namespace ActiveContent

/-- Every kind, in the order in which they are named. -/
def all : List ActiveContent := [initDirective, script, iframe, image, scriptAddress]

/-- The name of a kind. -/
def label : ActiveContent → Text
  | initDirective => "init".toList
  | script => "<script>".toList
  | iframe => "<iframe>".toList
  | image => "<img>".toList
  | scriptAddress => "javascript URI".toList

/-- Whether the element `name` is opened at the head of `s`. -/
def opensElement (name s : Text) : Bool :=
  ((after? ['<'] s).bind fun s => afterAnyCase? name (trimLeft s)).isSome

/-- Whether a kind begins at the head of `s`. -/
def beginsAt (s : Text) : ActiveContent → Bool
  | initDirective =>
    (do
      let s ← after? "%%".toList s
      let s ← after? ['{'] (trimLeft s)
      afterAnyCase? "init".toList (trimLeft s)).isSome
  | script => opensElement "script".toList s
  | iframe => opensElement "iframe".toList s
  | image => opensElement "img".toList s
  | scriptAddress => (afterAnyCase? "javascript:".toList s).isSome

/-- Whether a kind occurs in a text. -/
def occurs (k : ActiveContent) : Text → Bool
  | [] => false
  | c :: s => beginsAt (c :: s) k || occurs k s

end ActiveContent

/-- A diagram that was refused for what it carries. -/
structure BlockedDiagram where
  /-- The diagram as it was checked. -/
  checked : Text
  /-- What it carries. -/
  found : List ActiveContent
deriving DecidableEq, Repr

/-- The text that reports a refused diagram. -/
def BlockedDiagram.message (b : BlockedDiagram) : Text :=
  "Diagram contains blocked directives: ".toList ++
    ", ".toList.intercalate (b.found.map ActiveContent.label)

/-- A text without its carriage returns. -/
def dropReturns (s : Text) : Text := s.filter (· != '\r')

/-- The diagram as it may be drawn, if it carries no active content. -/
def checkContent (diagram : Text) : Except BlockedDiagram Text :=
  let checked := dropReturns diagram
  match ActiveContent.all.filter fun k => k.occurs checked with
  | [] => .ok checked
  | found => .error { checked := checked, found := found }

end FreeLabel
