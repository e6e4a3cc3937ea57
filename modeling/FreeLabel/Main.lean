/-
The program: it reads the command line, the environment and the files,
and does what the commands plan. There is no engine to be run from here,
so drawings are made offline, if the settings allow it.
-/
import FreeLabel.CommandLine.Run
import FreeLabel.Settings.Load

namespace FreeLabel.Main

open CommandLine

-- =============================================================== settings

/-- What the names of settings begin with in the environment. -/
def environmentHead : Text := "FRIENDLY_MERMAID_".toList

/-- The name of a setting in the environment. -/
def environmentName (k : Setting) : Text := environmentHead ++ k.name.map Char.toUpper

/-- The settings of the environment. -/
def readEnvironment : IO (List (Text × Text)) :=
  Setting.all.filterMapM fun k => do
    let value ← IO.getEnv (String.ofList (environmentName k))
    return value.map fun v => (k.name, v.toList)

/-- The line about a setting that does not fit. -/
def misfitLine (k : Setting) (why : Settings.Misfit) : String :=
  String.ofList (environmentName k ++ ": ".toList ++ why.name)

-- ================================================================== files

/-- The text of a file. -/
def readSource (file : Text) : IO Text := do
  let bytes ← IO.FS.readBinFile (String.ofList file)
  return Text.ofFile bytes.toList

/-- Whether there is a file of that name. -/
def isFile (file : Text) : IO Bool := do
  if file = [] then return false
  let place := (← IO.currentDir) / String.ofList file
  return (← place.pathExists) && !(← place.isDir)

/-- Performs one act. -/
def perform : Act → IO Unit
  | .makeDirectory p => IO.FS.createDirAll (String.ofList p.toText)
  | .write p t =>
    IO.FS.writeBinFile (String.ofList p.toText) ⟨(Text.encode t).toArray⟩
  | .print line => do
    IO.println (String.ofList line)
    (← IO.getStdout).flush
  | .complain line => IO.eprintln (String.ofList line)
  | .giveUp _ => throw (IO.userError "the result has no name")

/-- Carries out a plan, and gives the status to end with. -/
def carryOut (p : Plan) : IO UInt32 := do
  p.acts.forM perform
  return if p.succeeds then 0 else 1

-- =============================================================== watching

/-- A number of seconds in thousandths. -/
def milliseconds (seconds : Float) : Nat := (seconds * 1000).toUInt32.toNat

/-- Watches a file until the program is interrupted. `due` is when the
delay of the newest preview is over. -/
partial def watchOn (s : Settings) (file : Path) (name : Text) (interval : Nat)
    (w : Watch Int) (due : Option Nat) : IO Unit := do
  let place := (← IO.currentDir) / String.ofList file.toText
  let modified := (← place.metadata).modified
  let written := modified.sec * 1000000000 + (modified.nsec.toNat : Int)
  let now ← IO.monoMsNow
  let looked := w.look written (← readSource file.toText)
  let due :=
    if looked.scheduler.generation = w.scheduler.generation then due
    else some (now + milliseconds s.delay)
  match due with
  | some t =>
    if t ≤ now then
      let (next, previews) := looked.fire s .bare looked.scheduler.live
      (previews.flatMap (deliver s name)).forM perform
      watchOn s file name interval next none
    else
      IO.sleep (min interval (t - now)).toUInt32
      watchOn s file name interval looked due
  | none =>
    IO.sleep interval.toUInt32
    watchOn s file name interval looked none

-- ================================================================ commands

/-- Does what a command says. -/
def execute (s : Settings) (command : Command) : IO UInt32 := do
  let file := Path.ofText command.file
  match command.task s .bare (← readSource file.toText) with
  | .plan p => carryOut p
  | .watch name interval =>
    watchOn s file name (milliseconds interval) {} none
    return 0
  | .misused why =>
    IO.eprintln (String.ofList why.message)
    return 2
  | .unmade why => throw (IO.userError (String.ofList why.message))

/-- How the program is used. -/
def usage : String :=
  "usage: freelabel [-v] compile FILE [--show-mapping] [--strict]\n" ++
  "       freelabel [-v] render FILE [--output-name NAME]\n" ++
  "       freelabel [-v] set-direction FILE DIRECTION\n" ++
  "       freelabel [-v] watch FILE [--output-name NAME] [--interval SECONDS]"

/-- Runs the program on its arguments. -/
def run (args : List String) : IO UInt32 := do
  match Settings.load [] (← readEnvironment) with
  | .error misfits =>
    misfits.forM fun (k, why) => IO.eprintln (misfitLine k why)
    return 1
  | .ok s =>
    match CommandLine.read? (args.map String.toList) with
    | none =>
      IO.eprintln usage
      return 2
    | some command =>
      if ← isFile command.file then
        try execute s command
        catch e =>
          IO.eprintln s!"{e}"
          return 1
      else
        IO.eprintln s!"no such file: {String.ofList command.file}"
        return 2

end FreeLabel.Main

/-- The program. -/
def main (args : List String) : IO UInt32 := FreeLabel.Main.run args
