/-
The commands of the program and how they are written. What stands before
the name of a command concerns the whole program; the only option there
asks for more messages.
-/
import FreeLabel.CommandLine.Arguments
import FreeLabel.CommandLine.Seconds

namespace FreeLabel.CommandLine

/-- What the program is to do. Files are named as they were written. -/
inductive Command
  /-- Print what a source compiles to. -/
  | compile (file : Text) (showLegend strict : Bool)
  /-- Write the drawing of a source. -/
  | render (file : Text) (outputName : Option Text)
  /-- Set the layout direction of a source. -/
  | setDirection (file direction : Text)
  /-- Write the drawing of a source whenever it changes. -/
  | watch (file : Text) (outputName : Option Text) (interval : Float)

/-- The file that a command is about. -/
def Command.file : Command → Text
  | compile file .. | render file .. | setDirection file .. | watch file .. => file

/-- For how many seconds watching sleeps if it is not told. -/
def usualInterval : Float := 0.5

-- ================================================================ commands

/-- Reads the arguments of `compile`. -/
def readCompile? (args : List Text) : Option Command := do
  let table : OptionTable := { flags := ["--show-mapping".toList, "--strict".toList] }
  let a ← sortOut table {} args
  match a.operands with
  | [file] => some (.compile file (a.has "--show-mapping") (a.has "--strict"))
  | _ => none

/-- Reads the arguments of `render`. -/
def readRender? (args : List Text) : Option Command := do
  let a ← sortOut { valued := ["--output-name".toList] } {} args
  match a.operands with
  | [file] => some (.render file (a.value? "--output-name"))
  | _ => none

/-- Reads the arguments of `set-direction`. -/
def readSetDirection? (args : List Text) : Option Command := do
  let a ← sortOut {} {} args
  match a.operands with
  | [file, direction] => some (.setDirection file direction)
  | _ => none

/-- Reads the arguments of `watch`. -/
def readWatch? (args : List Text) : Option Command := do
  let table : OptionTable :=
    { valued := ["--output-name".toList, "--interval".toList] }
  let a ← sortOut table {} args
  let interval ←
    match a.value? "--interval" with
    | none => some usualInterval
    | some t => readSeconds? t
  match a.operands with
  | [file] => some (.watch file (a.value? "--output-name") interval)
  | _ => none

-- ============================================================== the program

/-- Whether an argument asks for more messages. -/
def isVerbose (arg : Text) : Bool :=
  arg = "--verbose".toList ||
    match arg with
    | '-' :: 'v' :: more => more.all (· = 'v')
    | _ => false

/-- What stands from the name of the command on. -/
def commandPart? : List Text → Option (List Text)
  | [] => some []
  | arg :: args =>
    if arg = "--".toList then some args
    else if !isOption arg then some (arg :: args)
    else if isVerbose arg then commandPart? args
    else none

/-- Reads a command line. -/
def read? (args : List Text) : Option Command := do
  match ← commandPart? args with
  | [] => none
  | name :: args =>
    match String.ofList name with
    | "compile" => readCompile? args
    | "render" => readRender? args
    | "set-direction" => readSetDirection? args
    | "watch" => readWatch? args
    | _ => none

end FreeLabel.CommandLine
