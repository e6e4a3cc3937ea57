/-
A run of the program, on files and on a host that are given. What is
wrong with a command line is found before anything is done; what goes
wrong later leaves what has been done as it is.
-/
import FreeLabel.CommandLine.Command
import FreeLabel.CommandLine.Watch

namespace FreeLabel.CommandLine

-- ================================================================ the ending

/-- What cuts a run short. -/
inductive Breakdown
  /-- Something cannot be done with the files. -/
  | files (why : FileError)
  /-- The preview of the source cannot be made. -/
  | unmade (why : Obstacle)
deriving DecidableEq, Repr

/-- How a run ends. -/
inductive Ending
  /-- All is done. -/
  | done
  /-- The source cannot be compiled or drawn. -/
  | refused
  /-- The command line is not understood. -/
  | misused
  /-- The run is cut short. -/
  | brokenOff (why : Breakdown)
deriving DecidableEq, Repr

/-- The status that the program ends with. -/
def Ending.status : Ending → Nat
  | done => 0
  | refused => 1
  | misused => 2
  | brokenOff _ => 1

/-- What a run leaves. -/
structure Report where
  session : Session
  ending : Ending

/-- Performs acts and ends as given, unless one of them fails. -/
def conclude (session : Session) (acts : List Act) (ending : Ending) : Report :=
  match session.performAll acts with
  | (session, none) => { session := session, ending := ending }
  | (session, some why) => { session := session, ending := .brokenOff (.files why) }

/-- Carries out a plan. -/
def Plan.carryOut (p : Plan) (session : Session) : Report :=
  conclude session p.acts (if p.succeeds then .done else .refused)

-- ================================================================= watching

/-- What happens while watching sleeps. -/
structure Moment where
  /-- Whether the delay of the previews is over before anything else. -/
  delayEnds : Bool := false
  /-- A file that is written, with its content. -/
  edit : Option (Path × Text.Bytes) := none

/-- What becomes of the session and of what watching keeps in mind in a
moment, up to what goes wrong. -/
def live (s : Settings) (host : Host) (name : Text) (m : Moment) (w : Watch Nat)
    (session : Session) : Watch Nat × Session × Option FileError :=
  let (w, previews) := w.fire s host (if m.delayEnds then w.scheduler.live else [])
  match session.performAll (previews.flatMap (deliver s name)) with
  | (session, some why) => (w, session, some why)
  | (session, none) =>
    match m.edit with
    | none => (w, session, none)
    | some (p, content) =>
      match session.files.write p content with
      | .ok fs => (w, { session with files := fs }, none)
      | .error why => (w, session, some why)

/-- Watches a file for some moments, and ends when it is interrupted after
the last. -/
def watchFor (s : Settings) (host : Host) (file : Path) (name : Text) :
    List Moment → Watch Nat → Session → Report
  | moments, w, session =>
    match session.files.stamp? file, session.files.read file with
    | some stamp, .ok content =>
      let w := w.look stamp (Text.ofFile content)
      match moments with
      | [] => { session := session, ending := .done }
      | m :: moments =>
        match live s host name m w session with
        | (w, session, none) => watchFor s host file name moments w session
        | (_, session, some why) =>
          { session := session, ending := .brokenOff (.files why) }
    | _, _ => { session := session, ending := .brokenOff (.files .notFound) }

-- ================================================================= the run

/-- Runs a command on a source. -/
def runOn (s : Settings) (host : Host) (moments : List Moment) (command : Command)
    (source : Text) (session : Session) : Report :=
  match command.task s host source with
  | .plan p => p.carryOut session
  | .watch name _ => watchFor s host (Path.ofText command.file) name moments {} session
  | .misused _ => { session := session, ending := .misused }
  | .unmade why => { session := session, ending := .brokenOff (.unmade why) }

/-- Runs a command line. -/
def run (s : Settings) (host : Host) (moments : List Moment) (args : List Text)
    (files : FileSystem) : Report :=
  let session : Session := { files := files }
  let misused : Report := { session := session, ending := .misused }
  match read? args with
  | none => misused
  | some command =>
    match files.find? command.file with
    | some (.file content _) => runOn s host moments command (Text.ofFile content) session
    | _ => misused

end FreeLabel.CommandLine
