/-
The arguments of a command line. Options begin with a hyphen and may
stand anywhere among the other arguments; a value follows its option, or
stands behind an equals sign in the same argument. Two hyphens end the
options.
-/
import FreeLabel.Text.Basic

namespace FreeLabel.CommandLine

/-- The options that a command has. -/
structure OptionTable where
  /-- Those without a value. -/
  flags : List Text := []
  /-- Those with a value. -/
  valued : List Text := []

/-- Arguments sorted out. -/
structure Arguments where
  /-- Those that belong to no option. -/
  operands : List Text := []
  /-- The options without a value that are there. -/
  flags : List Text := []
  /-- The options with their values, the last one first. -/
  values : List (Text × Text) := []

namespace Arguments

/-- Whether an option is there. -/
def has (a : Arguments) (flag : String) : Bool := a.flags.contains flag.toList

/-- The value of an option, if it is there. What is given last counts. -/
def value? (a : Arguments) (option : String) : Option Text := a.values.lookup option.toList

end Arguments

/-- Whether an argument is an option. -/
def isOption (arg : Text) : Bool := arg.head? = some '-' && 1 < arg.length

/-- An option and the value that is attached to it. -/
def splitOption (arg : Text) : Text × Option Text :=
  match Text.cut? ['='] arg with
  | some (name, value) => (name, some value)
  | none => (arg, none)

/-- Sorts out arguments. There is no answer if an option is unknown, lacks
its value, or has one that it does not take. `a` is what is sorted out
already. -/
def sortOut (table : OptionTable) (a : Arguments) : List Text → Option Arguments
  | [] => some a
  | arg :: args =>
    if arg = "--".toList then some { a with operands := a.operands ++ args }
    else if !isOption arg then
      sortOut table { a with operands := a.operands ++ [arg] } args
    else
      match splitOption arg with
      | (name, attached) =>
        if table.valued.contains name then
          match attached, args with
          | some value, args =>
            sortOut table { a with values := (name, value) :: a.values } args
          | none, value :: args =>
            sortOut table { a with values := (name, value) :: a.values } args
          | none, [] => none
        else if table.flags.contains name && attached.isNone then
          sortOut table { a with flags := a.flags ++ [name] } args
        else none

end FreeLabel.CommandLine
