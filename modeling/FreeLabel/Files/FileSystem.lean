/-
Files and directories. A path is followed part by part, and every part
but the last has to lead to a directory. Each file remembers when it was
written, counted in writes, so that a change shows even if the content is
the same.
-/
import FreeLabel.Files.Path
import FreeLabel.Text.Utf8

namespace FreeLabel

-- ================================================================= content

/-- The names of the directories down to a place, and its own. -/
abbrev Location := List Text

/-- What is at a place. -/
inductive Entry
  | file (content : Text.Bytes) (stamp : Nat)
  | directory
deriving DecidableEq, Repr

/-- Files and directories, and where paths begin. -/
structure FileSystem where
  /-- What is where. The root itself is not listed. -/
  entries : List (Location × Entry) := []
  /-- The working directory. -/
  here : Location := []
  /-- How often something was written. -/
  writes : Nat := 0
deriving DecidableEq, Repr

/-- Why something cannot be done with files. -/
inductive FileError
  /-- There is nothing at a path. -/
  | notFound
  /-- There is something at a path already. -/
  | exists
  /-- A path leads through something that is not a directory. -/
  | notADirectory
  /-- There is a directory where a file should be. -/
  | isADirectory
  /-- A name is too long. -/
  | overlongName
  /-- A path has no last part that could be given a suffix. -/
  | noName
deriving DecidableEq, Repr

namespace FileSystem

/-- What is at a place. -/
def at? (fs : FileSystem) (there : Location) : Option Entry :=
  if there = [] then some .directory else fs.entries.lookup there

/-- The files and directories with something put at a place. -/
def put (fs : FileSystem) (there : Location) (e : Entry) : FileSystem :=
  if (fs.entries.lookup there).isSome then
    { fs with entries := fs.entries.map fun x => if x.1 = there then (there, e) else x }
  else { fs with entries := fs.entries ++ [(there, e)] }

-- =================================================================== paths

/-- How many bytes a name may have. -/
def longestName : Nat := 255

/-- Follows parts from a place. -/
def follow (fs : FileSystem) (there : Location) : List Text → Except FileError Location
  | [] => .ok there
  | part :: parts =>
    match fs.at? there with
    | none => .error .notFound
    | some (.file ..) => .error .notADirectory
    | some .directory =>
      if longestName < (Text.encode part).length then .error .overlongName
      else if part = "..".toList then fs.follow there.dropLast parts
      else fs.follow (if Path.isPart part then there ++ [part] else there) parts

/-- The place that a text names. What is between its slashes is followed
even where it says nothing, so a slash at the end asks for a directory. -/
def locate (fs : FileSystem) (t : Text) : Except FileError Location :=
  if t = [] then .error .notFound
  else fs.follow (if t.head? = some '/' then [] else fs.here) (t.splitOn '/')

/-- The place that a path leads to. -/
def locatePath (fs : FileSystem) (p : Path) : Except FileError Location :=
  fs.locate p.toText

/-- What a text names, if anything. -/
def find? (fs : FileSystem) (t : Text) : Option Entry :=
  match fs.locate t with
  | .ok there => fs.at? there
  | .error _ => none

-- ============================================================== operations

/-- The content of a file. -/
def read (fs : FileSystem) (p : Path) : Except FileError Text.Bytes := do
  match fs.at? (← fs.locatePath p) with
  | some (.file content _) => pure content
  | some .directory => throw .isADirectory
  | none => throw .notFound

/-- When a file was written. -/
def stamp? (fs : FileSystem) (p : Path) : Option Nat :=
  match fs.find? p.toText with
  | some (.file _ stamp) => some stamp
  | _ => none

/-- Writes a file, in the place of one that is there. -/
def write (fs : FileSystem) (p : Path) (content : Text.Bytes) :
    Except FileError FileSystem := do
  let there ← fs.locatePath p
  match fs.at? there with
  | some .directory => throw .isADirectory
  | _ =>
    let stamp := fs.writes + 1
    pure { fs.put there (.file content stamp) with writes := stamp }

/-- Makes a directory. -/
def makeDirectory (fs : FileSystem) (p : Path) : Except FileError FileSystem := do
  let there ← fs.locatePath p
  match fs.at? there with
  | some _ => throw .exists
  | none => pure (fs.put there .directory)

/-- Whether a path leads to a directory. -/
def isDirectory (fs : FileSystem) (p : Path) : Bool :=
  fs.find? p.toText = some .directory

/-- The answer of making a directory that may be there already. -/
def settle (fs : FileSystem) (p : Path) (e : FileError) : Except FileError FileSystem :=
  if fs.isDirectory p then .ok fs else .error e

/-- Makes a directory if it is not there, and those above it first. -/
def ensureDirectory (fs : FileSystem) (p : Path) : Except FileError FileSystem :=
  match fs.makeDirectory p with
  | .ok fs => .ok fs
  | .error .notFound =>
    if p.parts = [] then .error .notFound
    else do
      let fs ← fs.ensureDirectory p.parent
      match fs.makeDirectory p with
      | .ok fs => .ok fs
      | .error .notFound => .error .notFound
      | .error e => fs.settle p e
  | .error e => fs.settle p e
termination_by p.parts.length
decreasing_by
  have := List.length_pos_iff.2 ‹_›
  simp only [Path.parent, List.length_dropLast]
  omega

/-- The files below the working directory, by their paths from it. -/
def listing (fs : FileSystem) : List (Text × Text.Bytes) :=
  fs.entries.filterMap fun (there, e) =>
    match e with
    | .directory => none
    | .file content _ =>
      if fs.here.isPrefixOf there then
        some (['/'].intercalate (there.drop fs.here.length), content)
      else none

end FileSystem

end FreeLabel
