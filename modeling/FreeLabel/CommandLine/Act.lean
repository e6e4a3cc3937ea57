/-
What a command does to the world outside, one act after another, and the
world as far as acts can change it: the files, and what has been printed.
-/
import FreeLabel.Files.FileSystem

namespace FreeLabel.CommandLine

/-- Something that a command does. -/
inductive Act
  /-- Makes a directory if it is not there. -/
  | makeDirectory (p : Path)
  /-- Writes a file. -/
  | write (p : Path) (t : Text)
  /-- Prints a line. -/
  | print (line : Text)
  /-- Prints a line among the messages. -/
  | complain (line : Text)
  /-- Gives up. -/
  | giveUp (why : FileError)
deriving DecidableEq, Repr

/-- Files, and what has been printed. -/
structure Session where
  files : FileSystem
  printed : Text := []
  complaints : Text := []
deriving DecidableEq, Repr

namespace Session

/-- Performs one act. -/
def perform (s : Session) : Act → Except FileError Session
  | .makeDirectory p => (s.files.ensureDirectory p).map fun fs => { s with files := fs }
  | .write p t => (s.files.write p (Text.encode t)).map fun fs => { s with files := fs }
  | .print line => .ok { s with printed := s.printed ++ line ++ ['\n'] }
  | .complain line => .ok { s with complaints := s.complaints ++ line ++ ['\n'] }
  | .giveUp why => .error why

/-- Performs acts up to the first that fails, and tells why it failed. -/
def performAll (s : Session) : List Act → Session × Option FileError
  | [] => (s, none)
  | a :: as =>
    match s.perform a with
    | .ok s => s.performAll as
    | .error why => (s, some why)

end Session

end FreeLabel.CommandLine
