/-
What each command does, given the source that it is about. Results go
into the output directory as two files of one name: the compiled diagram
and its drawing. All commands but watching are settled with that; watching
makes a plan whenever the source changes.
-/
import FreeLabel.CommandLine.Act
import FreeLabel.CommandLine.Command
import FreeLabel.Naming.Listing
import FreeLabel.Preview
import FreeLabel.Redirect

namespace FreeLabel.CommandLine

/-- What a command does, and whether it succeeds if all of it can be
done. -/
structure Plan where
  acts : List Act
  succeeds : Bool

-- ================================================================ compiling

/-- The message about a line that was not translated in full. -/
def warning (d : Diagnostic) : Text :=
  "warning: line ".toList ++ Text.ofInt d.lineNo ++ ": ".toList ++ d.complaint.message

/-- What compiling does. -/
def compilePlan (s : Settings) (showLegend strict : Bool) (source : Text) : Plan :=
  match compile source (strict || s.strict) s.padding with
  | .error why => { acts := [.complain why.message], succeeds := false }
  | .ok c =>
    { acts :=
        [.print c.code] ++ (if showLegend then [.print c.legend.json] else []) ++
          c.diagnostics.map fun d => .complain (warning d)
      succeeds := true }

-- ================================================================== drawing

/-- The name that results have if none is given: that of the source
without its suffix. -/
def resultName (file : Path) (outputName : Option Text) : Text :=
  if outputName.getD [] = [] then file.stem else outputName.getD []

/-- Where the compiled diagram and its drawing go. -/
def outputPaths? (outputDir name : Text) : Option (Path × Path) := do
  let base := (Path.ofText outputDir).join (Path.ofText name)
  return (← base.withSuffix? ".mmd".toList, ← base.withSuffix? ".svg".toList)

/-- Writes a drawing and the diagram that it is of. `announce` is what is
printed about the path of the drawing. -/
def publish (s : Settings) (name : Text) (announce : Text → Text) (c : Compiled)
    (drawing : Text) : List Act :=
  .makeDirectory (Path.ofText s.outputDir) ::
    match outputPaths? s.outputDir name with
    | none => [.giveUp .noName]
    | some (diagram, picture) =>
      [.write diagram c.code, .write picture drawing, .print (announce picture.toText)]

/-- Writes a preview, or says why there is none. -/
def present (s : Settings) (name : Text) (announce : Text → Text) : Preview → List Act
  | .drawn c drawing => publish s name announce c drawing
  | p => [.complain p.remark]

/-- What rendering does with a preview. -/
def renderPlan (s : Settings) (name : Text) (p : Preview) : Plan where
  acts := present s name id p
  succeeds := p.drawing?.isSome

/-- What watching does with a preview. -/
def deliver (s : Settings) (name : Text) (p : Preview) : List Act :=
  present s name ("rendered ".toList ++ ·) p

-- ================================================================ direction

/-- The direction that an argument asks for. -/
def directionArgument (t : Text) : Except UnknownDirection (Option Direction) :=
  if t.map Char.toLower = "auto".toList then .ok none else Direction.ofRequest t

/-- What setting the direction does. -/
def setDirectionPlan (file : Path) (d : Option Direction) (source : Text) : Plan where
  acts := [.write file (redirect source d)]
  succeeds := true

-- ================================================================= commands

/-- What is to be done for a command. -/
inductive Task
  /-- A plan is to be carried out. -/
  | plan (p : Plan)
  /-- The source is to be watched, and its results are called by a name. -/
  | watch (name : Text) (interval : Float)
  /-- The command asks for a direction that there is not. -/
  | misused (why : UnknownDirection)
  /-- The preview of the source cannot be made. -/
  | unmade (why : Obstacle)

/-- What is to be done for a command on a source. -/
def Command.task (s : Settings) (host : Host) (source : Text) : Command → Task
  | .compile _ showLegend strict => .plan (compilePlan s showLegend strict source)
  | .render file outputName =>
    match s.preview host source with
    | .ok p => .plan (renderPlan s (resultName (Path.ofText file) outputName) p)
    | .error why => .unmade why
  | .setDirection file direction =>
    match directionArgument direction with
    | .ok d => .plan (setDirectionPlan (Path.ofText file) d source)
    | .error why => .misused why
  | .watch file outputName interval =>
    .watch (resultName (Path.ofText file) outputName) interval

end FreeLabel.CommandLine
