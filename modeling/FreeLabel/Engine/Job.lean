/-
A job for the engine. The engine is a program that runs in a container of
its own: it finds the diagram and its options in a directory that it
shares with the caller, and leaves the drawing there.
-/
import FreeLabel.Settings.Basic
import FreeLabel.Text.Utf8

namespace FreeLabel.Engine

-- ================================================================= options

/-- What the engine is told about how to draw. -/
structure Options where
  theme : Text
  layout : Text
  /-- The direction that entity-relationship diagrams are laid out in. -/
  direction : Text
deriving DecidableEq, Repr

/-- The direction that an entity-relationship diagram is laid out in if it
asks for none. -/
def usualDirection : Text := "TB".toList

/-- The options for a drawing. -/
def Options.ofSettings (s : Settings) (direction : Option Text) : Options where
  theme := s.theme
  layout := s.layout
  direction := if direction.getD [] = [] then usualDirection else direction.getD []

/-- Options as the engine reads them: words and truth values under names,
in groups. -/
inductive Config
  | word (t : Text)
  | truth (b : Bool)
  | group (members : List (Text × Config))
deriving Repr

/-- The configuration that tells options. Drawings keep the size that they
come out with, and a flowchart's labels are made of hypertext, which the
engine shows only if it trusts the diagram. -/
def Options.config (o : Options) : Config :=
  .group
    [("theme".toList, .word o.theme),
      ("layout".toList, .word o.layout),
      ("securityLevel".toList, .word "loose".toList),
      ("er".toList,
        .group
          [("useMaxWidth".toList, .truth false),
            ("layoutDirection".toList, .word o.direction)]),
      ("flowchart".toList,
        .group [("useMaxWidth".toList, .truth false), ("htmlLabels".toList, .truth true)])]

-- ==================================================================== jobs

/-- What the engine is asked to do. -/
structure Job where
  /-- The image that it runs from. -/
  image : Text
  /-- For how many seconds it may run. -/
  timeout : Int
  /-- The diagram. -/
  diagram : Text
  /-- How to draw it. -/
  options : Options
deriving DecidableEq, Repr

/-- The command that runs a job. `directory` is the shared directory. -/
def Job.command (job : Job) (directory : Text) : List Text :=
  ["docker".toList, "run".toList, "--rm".toList, "-v".toList,
    directory ++ ":/data".toList, "-w".toList, "/data".toList, job.image,
    "-i".toList, "input.mmd".toList, "-o".toList, "output.svg".toList,
    "-c".toList, "config.json".toList]

/-- What became of a job. -/
inductive Outcome
  /-- There is no engine to run it. -/
  | missing
  /-- The engine did not end in time. -/
  | timedOut
  /-- The engine ended with an error, and said something about it. -/
  | exited (status : Int) (output complaint : Option Text)
  /-- The engine ended and left no drawing. -/
  | wroteNothing
  /-- The engine left a drawing. -/
  | wrote (file : Text.Bytes)
deriving DecidableEq, Repr

end FreeLabel.Engine
