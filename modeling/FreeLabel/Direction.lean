/-
Layout directions. A diagram is laid out top down, bottom up, or from
either side; in a source the two-letter name of a direction may stand in
any letter case.
-/
import FreeLabel.Text.Blank
import FreeLabel.Text.Fold

namespace FreeLabel

/-- Where a diagram's layout runs. `td` and `tb` are two names of one
layout, and the name that was given is kept. -/
inductive Direction
  | td | tb | bt | lr | rl
deriving DecidableEq, Repr

/-- A direction that a source may not ask for. -/
structure UnknownDirection where
  /-- The name as it was given. -/
  given : Text
deriving DecidableEq, Repr

/-- The text that reports an unknown direction. -/
def UnknownDirection.message (e : UnknownDirection) : Text :=
  "Unknown direction: ".toList ++ e.given

namespace Direction

/-- The five directions. -/
def all : List Direction := [td, tb, bt, lr, rl]

/-- The name of a direction, in capitals. -/
def name : Direction → Text
  | td => "TD".toList
  | tb => "TB".toList
  | bt => "BT".toList
  | lr => "LR".toList
  | rl => "RL".toList

/-- The name of a direction, in small letters. -/
def smallName : Direction → Text
  | td => "td".toList
  | tb => "tb".toList
  | bt => "bt".toList
  | lr => "lr".toList
  | rl => "rl".toList

/-- The direction that `s` begins with, in any letter case, and what
follows it. -/
def read? (s : Text) : Option (Direction × Text) :=
  all.findSome? fun d => (Text.afterAnyCase? d.smallName s).map (d, ·)

/-- The direction that `s` is the name of. -/
def ofName? (s : Text) : Option Direction :=
  match read? s with
  | some (d, []) => some d
  | _ => none

/-- The direction asked for by `given`: none if nothing is given, and an
error if it names no direction. -/
def ofRequest (given : Text) : Except UnknownDirection (Option Direction) :=
  if given = [] then .ok none
  else
    match ofName? (Text.trim given) with
    | some d => .ok (some d)
    | none => .error { given := given }

end Direction

end FreeLabel
