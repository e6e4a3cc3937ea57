/-
Paths as they are written: the parts between slashes. Nothing and a
single dot say nothing between slashes and are left out; two dots are
kept, since what they lead to depends on the files.
-/
import FreeLabel.Text.Basic

namespace FreeLabel

/-- A path. -/
structure Path where
  /-- Whether it begins at the root, and not at the working directory. -/
  absolute : Bool := false
  /-- Its parts; none is empty or a single dot. -/
  parts : List Text := []
deriving DecidableEq, Repr

namespace Path

/-- Whether a part leads anywhere. -/
def isPart (part : Text) : Bool := part ≠ [] && part ≠ ['.']

/-- The path that a text writes. -/
def ofText (t : Text) : Path where
  absolute := t.head? = some '/'
  parts := (t.splitOn '/').filter isPart

/-- The text of a path. -/
def toText (p : Path) : Text :=
  let parts := ['/'].intercalate p.parts
  if p.absolute then '/' :: parts
  else if p.parts = [] then ['.']
  else parts

/-- A path that goes on from another, unless it begins at the root. -/
def join (p q : Path) : Path :=
  if q.absolute then q else { p with parts := p.parts ++ q.parts }

/-- The path without its last part. -/
def parent (p : Path) : Path := { p with parts := p.parts.dropLast }

/-- What stands before the last point of a name, if something stands on
either side of it; the whole name otherwise. -/
def stemOf (name : Text) : Text :=
  let behind := (name.reverse.takeWhile (· ≠ '.')).reverse
  let before := (name.reverse.dropWhile (· ≠ '.')).drop 1 |>.reverse
  if behind = [] || before = [] then name else before

/-- The last part without its suffix. -/
def stem (p : Path) : Text := stemOf (p.parts.getLast?.getD [])

/-- The path with the suffix of its last part replaced, if there is one. -/
def withSuffix? (p : Path) (suffix : Text) : Option Path :=
  p.parts.getLast?.map fun name =>
    { p with parts := p.parts.dropLast ++ [stemOf name ++ suffix] }

end Path

end FreeLabel
