/-
Putting names into a drawing. Two kinds of text show identifiers: plain
labels, which are elements `text` and `tspan` with nothing but text in
them, and labels made of hypertext, which stand inside foreign objects.
Every text inside a foreign object is a label's, whatever surrounds it;
one that stands inside several is a label's of each of them, and names
are put into it as often.

On request labels are kept from being wrapped or clipped, because a name
may be longer than the identifier that a label was measured for.
-/
import FreeLabel.Markup.Content
import FreeLabel.Restore.Substitution
import FreeLabel.Text.Blank

namespace FreeLabel.Restore

open Markup (Attributes Content Element Name)

-- ================================================================= labels

/-- Whether an element is a foreign object. -/
def isForeign (tag : Name) : Bool := tag.base = "foreignObject".toList

/-- Whether an element is a plain label, if it holds nothing but text. -/
def isPlainLabel (tag : Name) : Bool :=
  tag.base = "text".toList || tag.base = "tspan".toList

/-- Whether an element lays out a label made of hypertext. -/
def isLabelPart (tag : Name) : Bool :=
  tag.base = "div".toList || tag.base = "span".toList || tag.base = "p".toList

/-- Applies `f` to a value `n` times. -/
def times (f : α → α) : Nat → α → α
  | 0, a => a
  | n + 1, a => times f n (f a)

-- ================================================================== names

/-- How often names are put into the text at the beginning of an element
that stands inside `depth` foreign objects. -/
def leadCount (depth : Nat) (tag : Name) (inner : Content) : Nat :=
  match inner with
  | .text _ => if depth = 0 && isPlainLabel tag then 1 else depth
  | .element .. => depth

/-- How many foreign objects surround what is inside an element that
stands inside `depth` of them. -/
def depthInside (depth : Nat) (tag : Name) : Nat :=
  if isForeign tag then depth + 1 else depth

/-- Content inside `depth` foreign objects with `f` applied to the texts
of its labels; `lead` is how often to the text that it begins with. -/
def mapLabels (f : Text → Text) (depth lead : Nat) : Content → Content
  | .text t => .text (times f lead t)
  | .element before tag attrs inner after =>
    .element (times f lead before) tag attrs
      (mapLabels f (depthInside depth tag) (leadCount depth tag inner) inner)
      (mapLabels f depth depth after)

/-- An element with `f` applied to the texts of its labels. -/
def mapElementLabels (f : Text → Text) (e : Element) : Element :=
  { e with
    inner := mapLabels f (depthInside 0 e.tag) (leadCount 0 e.tag e.inner) e.inner }

-- ================================================================= styles

/-- Attributes with one set: in the place that it had, or at the end. -/
def setAttribute (attrs : Attributes) (name : Name) (value : Text) : Attributes :=
  if (attrs.lookup name).isSome then
    attrs.map fun a => if a.1 = name then (name, value) else a
  else attrs ++ [(name, value)]

/-- The name of the style attribute. -/
def styleName : Name := Markup.plainName "style"

/-- A style with one more declaration behind it. -/
def extendStyle (style declaration : Text) : Text :=
  let style := Text.trim style
  let ended :=
    if style = [] || style.getLast? = some ';' then style else style ++ [';']
  Text.trim (ended ++ [' '] ++ declaration ++ [';'])

/-- Attributes with one more declaration in their style. -/
def addStyle (declaration : String) (attrs : Attributes) : Attributes :=
  setAttribute attrs styleName
    (extendStyle ((attrs.lookup styleName).getD []) declaration.toList)

/-- The attributes of an element inside `depth` foreign objects, so that
its label is neither wrapped nor clipped. -/
def unwrap (depth : Nat) (tag : Name) (attrs : Attributes) : Attributes :=
  if isForeign tag then addStyle "overflow: visible" attrs
  else if isLabelPart tag then times (addStyle "white-space: nowrap") depth attrs
  else attrs

/-- Content inside `depth` foreign objects, with its labels neither
wrapped nor clipped. -/
def unwrapContent (depth : Nat) : Content → Content
  | .text t => .text t
  | .element before tag attrs inner after =>
    .element before tag (unwrap depth tag attrs)
      (unwrapContent (depthInside depth tag) inner) (unwrapContent depth after)

/-- An element with its labels neither wrapped nor clipped. -/
def unwrapElement (e : Element) : Element :=
  { e with
    attrs := unwrap 0 e.tag e.attrs
    inner := unwrapContent (depthInside 0 e.tag) e.inner }

end FreeLabel.Restore

namespace FreeLabel

/-- A drawing with the names of a legend for its identifiers, and with
labels neither wrapped nor clipped if `nowrap` is set. Without names to
put in, the drawing is left as it is. -/
def restore (legend : Naming.Legend) (nowrap : Bool) (drawing : Markup.Element) :
    Markup.Element :=
  if legend.entries.isEmpty then drawing
  else
    let named := Restore.mapElementLabels legend.substitute drawing
    if nowrap then Restore.unwrapElement named else named

end FreeLabel
