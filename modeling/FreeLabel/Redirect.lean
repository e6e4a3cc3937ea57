/-
Setting the layout direction of a source in place. Only the words that
set it are changed, and at most one line of each kind: the first
direction statement of an entity-relationship diagram is taken out, and
the first declaration gets the direction behind it. A flowchart has it
behind the word that begins it, and only where one stands already.
-/
import FreeLabel.Compile

namespace FreeLabel.Redirect

open Text (skipGap afterGap? trimLeft)

/-- What follows a direction statement that a line begins with. -/
def afterStatement? (line : Text) : Option Text := do
  let s ← Text.afterAnyCase? "direction".toList (skipGap line)
  let (_, s) ← Direction.read? (← afterGap? s)
  some (skipGap s)

/-- Lines without their first direction statement. A line that holds
nothing else goes with it, unless it is the last. -/
def dropStatement : List Text → List Text
  | [] => []
  | line :: rest =>
    match afterStatement? line with
    | none => line :: dropStatement rest
    | some [] => if rest.isEmpty then [[]] else rest
    | some left => left :: rest

/-- A line up to where `rest` begins. -/
def upTo (rest line : Text) : Text := line.take (line.length - rest.length)

/-- A direction behind a word. -/
def shorthand : Option Direction → Text
  | none => []
  | some d => ' ' :: d.name

/-- What follows the direction that stands behind a declaration, or
everything if none does. -/
def afterShorthand (s : Text) : Text :=
  match (afterGap? s).bind Direction.read? with
  | some (_, rest) => if Text.atWordEnd rest then rest else s
  | none => s

/-- A declaration line with the direction set. -/
def declaration? (d : Option Direction) (line : Text) : Option Text := do
  let s ← Text.afterKeyword? erWord (trimLeft line)
  some (upTo s line ++ shorthand d ++ afterShorthand s)

/-- The header line of a flowchart with the direction set, if it has
one. -/
def header? (d : Direction) (line : Text) : Option Text :=
  Flow.headerWords.findSome? fun word => do
    let s ← Text.afterAnyCase? word (trimLeft line)
    let (_, rest) ← Direction.read? (← afterGap? s)
    some (upTo s line ++ shorthand (some d) ++ rest)

/-- Lines with the first that `change?` applies to changed by it. -/
def changeFirst (change? : Text → Option Text) : List Text → List Text
  | [] => []
  | line :: rest =>
    match change? line with
    | some changed => changed :: rest
    | none => line :: changeFirst change? rest

end FreeLabel.Redirect

namespace FreeLabel

/-- A source with its layout direction set. Without a direction the
layout is automatic: an entity-relationship diagram loses the one it
has, and a flowchart is left alone. -/
def redirect (source : Text) (d : Option Direction) : Text :=
  let lines := Text.lines source
  match Mode.ofSource source, d with
  | .er, _ =>
    Text.joinLines
      (Redirect.changeFirst (Redirect.declaration? d) (Redirect.dropStatement lines))
  | .flowchart, some d => Text.joinLines (Redirect.changeFirst (Redirect.header? d) lines)
  | .flowchart, none => source

/-- A flowchart whose layout is to be automatic is left alone. -/
theorem redirect_automatic {source : Text} (hmode : Mode.ofSource source = .flowchart) :
    redirect source none = source := by
  unfold redirect
  rw [hmode]

/-- A flowchart has its direction set in the first of its headers. -/
theorem redirect_flowchart {source : Text} (hmode : Mode.ofSource source = .flowchart)
    (d : Direction) :
    redirect source (some d)
      = Text.joinLines (Redirect.changeFirst (Redirect.header? d) (Text.lines source)) := by
  unfold redirect
  rw [hmode]

end FreeLabel
