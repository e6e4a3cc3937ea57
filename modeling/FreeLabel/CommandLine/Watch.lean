/-
Watching a file. Now and then the file is looked at, and if it was
written since, a preview is scheduled; when the delay of a preview is
over, it is made and delivered.
-/
import FreeLabel.CommandLine.Plan
import FreeLabel.Scheduler.Turn

namespace FreeLabel.CommandLine

/-- What watching keeps in mind. -/
structure Watch (τ : Type) where
  /-- The previews to be made. -/
  scheduler : Scheduler := {}
  /-- When the file was written, as far as is known. -/
  seen : Option τ := none

namespace Watch

/-- Looks at the file: `written` is when it was written, and `source` what
is in it. -/
def look [DecidableEq τ] (w : Watch τ) (written : τ) (source : Text) : Watch τ :=
  if w.seen = some written then w
  else
    let scheduler :=
      match w.scheduler.schedule source with
      | .ok (scheduler, _) => scheduler
      | .error _ => w.scheduler
    { scheduler := scheduler, seen := some written }

/-- A render for the scheduler: it asks nothing of it, and fails if
no preview can be made. -/
def render (s : Settings) (host : Host) (source : Text) : Scheduler.Rendering Preview where
  result := (s.preview host source).toOption

/-- The previews that were delivered. -/
def delivered (seen : List (Scheduler.Event Preview)) : List Preview :=
  seen.filterMap fun
    | .delivered _ p => some p
    | _ => none

/-- Makes the previews whose delay is over. -/
def fire (w : Watch τ) (s : Settings) (host : Host) (due : List Nat) :
    Watch τ × List Preview :=
  let (scheduler, seen) := w.scheduler.turns (render s host) due
  ({ w with scheduler := scheduler }, delivered seen)

end Watch

end FreeLabel.CommandLine
