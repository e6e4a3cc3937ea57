/-
A turn of the scheduler: one pass from the end of its delay to the end of
its render, with nothing in between but what the render itself asks of the
scheduler.
-/
import FreeLabel.Scheduler.Basic

namespace FreeLabel.Scheduler

/-- What a render may ask of the scheduler. -/
inductive Request
  | schedule (source : Text)
  | cancel
  | close
deriving DecidableEq, Repr

/-- The steps of a request. Closing takes two. -/
def Request.actions : Request → List (Action ρ)
  | schedule source => [.schedule source]
  | cancel => [.cancel]
  | close => [.cancel, .shut]

/-- What a render does. -/
structure Rendering (ρ : Type) where
  /-- What it asks of the scheduler, in order. -/
  requests : List Request := []
  /-- What it ends with, unless it fails. -/
  result : Option ρ
deriving Repr

/-- Whether somebody was turned away. -/
def Event.isTurnedAway : Event ρ → Bool
  | turnedAway _ => true
  | _ => false

/-- How a pass ends. A render that is turned away fails. -/
def lastAction (g : Nat) (meanwhile : List (Event ρ)) : Option ρ → Action ρ
  | none => .fail g
  | some result => if meanwhile.any Event.isTurnedAway then .fail g else .finish g result

/-- One pass, if its delay can end now. -/
def turn (s : Scheduler) (render : Text → Rendering ρ) (g : Nat) :
    Option (Scheduler × List (Event ρ)) := do
  let (s, begun) ← s.run [.wake g, .start g]
  match begun with
  | [.rendering _ source] =>
    let rendering := render source
    let (s, meanwhile) ← s.run (rendering.requests.flatMap Request.actions)
    let (s, ended) ← s.run [lastAction g meanwhile rendering.result]
    some (s, begun ++ meanwhile ++ ended)
  | _ => some (s, begun)

/-- The passes with the given numbers one after another; those that are
not possible are left out. -/
def turns (s : Scheduler) (render : Text → Rendering ρ) :
    List Nat → Scheduler × List (Event ρ)
  | [] => (s, [])
  | g :: gs =>
    match s.turn render g with
    | none => s.turns render gs
    | some (s, seen) =>
      let (s, more) := s.turns render gs
      (s, seen ++ more)

end FreeLabel.Scheduler
