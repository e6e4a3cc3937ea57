/-
When previews are made. Every edit schedules a pass, which starts when no
other edit has come for a while. Passes are numbered, and only the newest
one counts: scheduling cancels the timer of the pass before it, and a pass
that is superseded while it renders is dropped when it ends.

What happens is cut into steps, each of which takes place at once. A pass
renders between two steps, so whatever the scheduler is asked meanwhile,
by the render or by anybody else, comes in between as steps of its own.
-/
import FreeLabel.Text.Basic

namespace FreeLabel

-- ================================================================= timers

/-- How far a timer has come. -/
inductive Stage
  /-- Its delay is not over. -/
  | waiting
  /-- Its delay is over, and its pass has not looked at the scheduler. -/
  | awake
  /-- Its pass renders. -/
  | rendering
  /-- Its pass is over. -/
  | over
deriving DecidableEq, Repr

/-- The timer of a pass. -/
structure Timer where
  /-- The number of the pass. -/
  generation : Nat
  /-- What the pass is to render. -/
  source : Text
  /-- Whether the timer has been cancelled. -/
  cancelled : Bool := false
  /-- How far it has come. -/
  stage : Stage := .waiting
deriving DecidableEq, Repr

namespace Timer

/-- The name of a timer. -/
def name (t : Timer) : Text := "preview-pass-".toList ++ Text.ofNat t.generation

/-- Whether a timer has yet to run its pass. -/
def isLive (t : Timer) : Bool := !t.cancelled && t.stage = .waiting

end Timer

-- ============================================================ the scheduler

/-- A scheduler of passes. -/
structure Scheduler where
  /-- Every timer that was made, oldest first. -/
  timers : List Timer := []
  /-- The pass whose timer is cancelled next. -/
  held : Option Nat := none
  /-- The number of the newest pass; cancelling takes up a number too. -/
  generation : Nat := 0
  /-- Whether no more passes are taken. -/
  closed : Bool := false
deriving DecidableEq, Repr

/-- A pass was scheduled after closing. -/
structure SchedulerClosed where
deriving DecidableEq, Repr

/-- The text that reports that the scheduler is closed. -/
def SchedulerClosed.message : SchedulerClosed → Text :=
  fun _ => "PreviewScheduler is closed".toList

namespace Scheduler

/-- The timer of a pass. -/
def timer? (s : Scheduler) (g : Nat) : Option Timer :=
  s.timers.find? fun t => t.generation = g

/-- The scheduler with the timer of a pass changed by `f`. -/
def modifyTimer (s : Scheduler) (g : Nat) (f : Timer → Timer) : Scheduler :=
  { s with timers := s.timers.map fun t => if t.generation = g then f t else t }

/-- The scheduler with the timer of a pass at a stage. -/
def setStage (s : Scheduler) (g : Nat) (stage : Stage) : Scheduler :=
  s.modifyTimer g fun t => { t with stage := stage }

/-- The scheduler with the timer that it holds cancelled. -/
def cancelHeld (s : Scheduler) : Scheduler :=
  match s.held with
  | none => s
  | some g => s.modifyTimer g fun t => { t with cancelled := true }

/-- Whether a pass is the newest one and the scheduler is open. -/
def isCurrent (s : Scheduler) (g : Nat) : Bool := !s.closed && g = s.generation

/-- Schedules a pass, in the place of the one that has not started yet;
with it comes its number. -/
def schedule (s : Scheduler) (source : Text) : Except SchedulerClosed (Scheduler × Nat) :=
  if s.closed then .error {}
  else
    let g := s.generation + 1
    .ok
      ({ s.cancelHeld with
          timers := s.cancelHeld.timers ++ [{ generation := g, source := source }]
          held := some g
          generation := g }, g)

/-- Cancels the pass that has not started yet, and drops those that have. -/
def cancel (s : Scheduler) : Scheduler :=
  { s.cancelHeld with held := none, generation := s.generation + 1 }

/-- Takes no more passes. -/
def shut (s : Scheduler) : Scheduler := { s with closed := true }

/-- The passes whose timers are live, oldest first. -/
def live (s : Scheduler) : List Nat := (s.timers.filter Timer.isLive).map Timer.generation

-- ================================================================== steps

/-- What can happen next to a scheduler. -/
inductive Action (ρ : Type)
  /-- Somebody schedules a source. -/
  | schedule (source : Text)
  /-- Somebody cancels; closing begins with it too. -/
  | cancel
  /-- Somebody ends closing. -/
  | shut
  /-- The delay of a pass is over. It may have been cancelled since. -/
  | wake (g : Nat)
  /-- A pass looks at the scheduler and renders if it is current. -/
  | start (g : Nat)
  /-- The render of a pass ends with a result. -/
  | finish (g : Nat) (result : ρ)
  /-- The render of a pass fails. -/
  | fail (g : Nat)

/-- What can be seen of a step. -/
inductive Event (ρ : Type)
  /-- A pass was scheduled. -/
  | scheduled (g : Nat)
  /-- A pass was not scheduled, because the scheduler is closed. -/
  | turnedAway (source : Text)
  /-- A pass began to render a source. -/
  | rendering (g : Nat) (source : Text)
  /-- The result of a pass was delivered. -/
  | delivered (g : Nat) (result : ρ)
deriving DecidableEq, Repr

/-- One step, if the action is possible, with what can be seen of it. -/
def step (s : Scheduler) : Action ρ → Option (Scheduler × List (Event ρ))
  | .schedule source =>
    match s.schedule source with
    | .ok (s, g) => some (s, [.scheduled g])
    | .error _ => some (s, [.turnedAway source])
  | .cancel => some (s.cancel, [])
  | .shut => some (s.shut, [])
  | .wake g => do
    let t ← s.timer? g
    if t.stage = .waiting then some (s.setStage g .awake, []) else none
  | .start g => do
    let t ← s.timer? g
    if t.stage ≠ .awake then none
    else if s.isCurrent g then some (s.setStage g .rendering, [.rendering g t.source])
    else some (s.setStage g .over, [])
  | .finish g result => do
    let t ← s.timer? g
    if t.stage ≠ .rendering then none
    else
      some (s.setStage g .over, if s.isCurrent g then [.delivered g result] else [])
  | .fail g => do
    let t ← s.timer? g
    if t.stage = .rendering then some (s.setStage g .over, []) else none

/-- Several steps in a row, with what can be seen of them. -/
def run (s : Scheduler) : List (Action ρ) → Option (Scheduler × List (Event ρ))
  | [] => some (s, [])
  | a :: as => do
    let (s, seen) ← s.step a
    let (s, more) ← s.run as
    some (s, seen ++ more)

end Scheduler

end FreeLabel
