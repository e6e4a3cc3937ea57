/-
Flowchart sources in the identifier syntax of diagrams. A label is
replaced by a node with an identifier and that label; one label has one
identifier, so that naming it on several lines names one node.

Headers, comments and statements about subgraphs and styles pass
unchanged. Of any other line the tokens are kept and written with single
spaces between them.
-/
import FreeLabel.Flow.Token
import FreeLabel.Inert
import FreeLabel.Pass
import FreeLabel.Text.Fold

namespace FreeLabel.Flow

open Text (trim indent)

-- ============================================================ statements

/-- The words that begin a flowchart, in small letters; they are read in
any letter case. -/
def headerWords : List Text := ["flowchart".toList, "graph".toList]

/-- The words around a subgraph, in small letters. A source may write
them in any letter case. -/
def subgraphWords : List Text := ["subgraph".toList, "end".toList]

/-- The words that begin a statement about looks or links. -/
def styleWords : List Text :=
  ["classDef".toList, "class".toList, "style".toList, "click".toList,
    "linkStyle".toList]

/-- Whether a trimmed line begins with one of `words` in any letter
case. -/
def startsWithAnyCase (words : List Text) (trimmed : Text) : Bool :=
  words.any fun w => (Text.afterKeyword? w trimmed).isSome

/-- Whether a trimmed line begins with one of `words` as it is
spelled. -/
def startsWithWord (words : List Text) (trimmed : Text) : Bool :=
  words.any fun w => ((Text.after? w trimmed).filter Text.atWordEnd).isSome

/-- Whether a trimmed line is kept as it is. -/
def isKept (trimmed : Text) : Bool :=
  isInert trimmed || startsWithAnyCase headerWords trimmed ||
    startsWithAnyCase subgraphWords trimmed || startsWithWord styleWords trimmed

-- ============================================================ line layout

/-- The identifier of a label: the one it already has, or a new one. -/
def nodeId (label : Text) : Pass Text := do
  match (← get).nodes.lookup label with
  | some id => pure id
  | none =>
    let id ← Pass.allocate label 0
    modify fun c => { c with nodes := c.nodes ++ [(label, id)] }
    pure id

/-- A token as a diagram spells it. -/
def Token.translate : Token → Pass Text
  | .arrow spelling => pure spelling
  | .reference spelling => pure spelling
  | .node shape label => do
    let id ← nodeId label
    pure (id ++ shape.bracket.enclose label)

/-- Spelled tokens in a row, with a space on either side of an arrow and
between two nodes. A spelling comes with whether it is an arrow's;
`afterNode` tells whether a node stands before the row. -/
def layOut (afterNode : Bool) : List (Bool × Text) → Text
  | [] => []
  | (true, arrow) :: rest => [' '] ++ arrow ++ [' '] ++ layOut false rest
  | (false, node) :: rest =>
    (if afterNode then [' '] else []) ++ node ++ layOut true rest

/-- A text with every run of spaces made one space. -/
def squeeze : Text → Text
  | ' ' :: ' ' :: s => squeeze (' ' :: s)
  | c :: s => c :: squeeze s
  | [] => []

/-- Tokens as one line of a diagram. -/
def translateTokens (ts : List Token) : Pass Text := do
  let spelled ← ts.mapM fun t => return (t.isArrow, ← t.translate)
  pure (squeeze (layOut false spelled))

/-- A line of a source as a line of a diagram. Characters that begin no
token are reported and dropped. -/
def translateLine (lineNo : Int) (line : Text) : Pass Text := do
  match strays (trim line) with
  | [] => pure ()
  | dropped => Pass.report lineNo line (.strayText dropped)
  return indent line ++ (← translateTokens (tokens (trim line)))

/-- The diagram for a source. -/
def translate (source : Text) : Pass Text := do
  let lines ← (Text.numberedLines source).mapM fun (lineNo, line) =>
    if isKept (trim line) then pure line else translateLine lineNo line
  pure (Text.joinLines lines)

end FreeLabel.Flow
