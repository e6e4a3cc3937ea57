/-
The allocator issues an identifier for each display name of a diagram,
and enters what it issues in a legend. It tries the name's own identifier
first, padded to the length asked for, and then that identifier with the
numbers from two on behind it. A candidate is free for a name if it was
never issued, or if it already stands for that very name.

Only an issued identifier can be refused and no two candidates are equal,
so one candidate more than there are issued identifiers is enough: that
bounds the search.
-/
import FreeLabel.Naming.Identifier
import FreeLabel.Naming.Legend

namespace FreeLabel.Naming

/-- The identifiers issued so far, and what they stand for. -/
structure Allocator where
  /-- What each identifier stands for. -/
  legend : Legend := .empty
  /-- The identifiers issued or taken from the outset. -/
  used : List Text := []

namespace Allocator

/-- An allocator that leaves alone what a legend already holds. -/
def ofLegend (l : Legend) : Allocator := { legend := l, used := l.ids }

/-- Whether `id` may be issued for `name`. -/
def isFreeFor (a : Allocator) (name id : Text) : Bool :=
  id ∉ a.used || a.legend.get? id = some name

/-- `s` with low lines behind it up to the length asked for. -/
def padTo (width : Nat) (s : Text) : Text :=
  s ++ List.replicate (width - s.length) '_'

/-- The candidates for a base: itself, then itself with two, three and so
on behind it. -/
def candidate (base : Text) : Nat → Text
  | 0 => base
  | k + 1 => base ++ Text.ofNat (k + 2)

/-- The first free candidate from the `k`-th on; the one after `tries`
refusals is taken unseen. -/
def firstFree (free : Text → Bool) (base : Text) : (tries k : Nat) → Text
  | 0, k => candidate base k
  | tries + 1, k =>
    if free (candidate base k) then candidate base k
    else firstFree free base tries (k + 1)

/-- The identifier that is due to `name`. -/
def choose (a : Allocator) (name : Text) (minLength : Nat) : Text :=
  firstFree (a.isFreeFor name) (padTo minLength (identifier name))
    a.used.length 0

/-- The allocator after `id` has been issued. -/
def markUsed (a : Allocator) (id : Text) : Allocator :=
  if id ∈ a.used then a else { a with used := a.used ++ [id] }

/-- Issues an identifier of at least `minLength` characters for `name`.
The identifier counts as issued even if the legend refuses it. -/
def allocate (a : Allocator) (name : Text) (minLength : Nat) :
    Except Conflict Text × Allocator :=
  let id := a.choose name minLength
  match a.legend.assign id name with
  | .ok l => (.ok id, { a.markUsed id with legend := l })
  | .error c => (.error c, a.markUsed id)

/-- Enters a pair in the legend without issuing the identifier. -/
def assign (a : Allocator) (id name : Text) : Except Conflict Unit × Allocator :=
  match a.legend.assign id name with
  | .ok l => (.ok (), { a with legend := l })
  | .error c => (.error c, a)

end Allocator

end FreeLabel.Naming
