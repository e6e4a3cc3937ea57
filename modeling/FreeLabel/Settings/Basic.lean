/-
The settings: where results go, which engine draws, and how sources are
compiled and shown.
-/
import FreeLabel.Text.Basic

namespace FreeLabel

/-- What a run of the program depends on besides its sources. -/
structure Settings where
  /-- The directory that results are written into. -/
  outputDir : Text := "outputs".toList
  /-- The name of what draws compiled diagrams. -/
  engine : Text := "docker".toList
  /-- The image that the engine runs from. -/
  image : Text := "minlag/mermaid-cli".toList
  /-- For how many seconds the engine may run. -/
  timeout : Int := 60
  /-- Whether the offline drawing stands in for a missing engine. -/
  fallback : Bool := true
  /-- The theme that the engine draws in. -/
  theme : Text := "default".toList
  /-- The layout that the engine uses. -/
  layout : Text := "dagre".toList
  /-- By how much an attribute's identifier exceeds its name in length. -/
  padding : Int := 2
  /-- Whether compiling stops at a line that cannot be translated. -/
  strict : Bool := false
  /-- For how many seconds a preview waits for the next edit. -/
  delay : Float := 0.4
  /-- Whether labels are kept from being wrapped. -/
  nowrap : Bool := true
  /-- From which level on messages are logged. -/
  logLevel : Text := "INFO".toList

namespace Settings

/-- The engine's name for drawing offline. -/
def offlineName : Text := "preview".toList

/-- Whether diagrams are drawn offline. -/
def isOffline (s : Settings) : Bool := s.engine = offlineName

end Settings

/-- One of the settings. -/
inductive Setting
  | outputDir | engine | image | timeout | fallback | theme | layout | padding
  | strict | delay | nowrap | logLevel
deriving DecidableEq, Repr

namespace Setting

/-- The settings. -/
def all : List Setting :=
  [outputDir, engine, image, timeout, fallback, theme, layout, padding, strict,
    delay, nowrap, logLevel]

/-- The name by which a setting is given. -/
def name : Setting → Text
  | outputDir => "output_dir".toList
  | engine => "mermaid_renderer".toList
  | image => "mermaid_renderer_image".toList
  | timeout => "render_timeout".toList
  | fallback => "allow_preview_fallback".toList
  | theme => "theme".toList
  | layout => "layout".toList
  | padding => "attribute_padding".toList
  | strict => "strict_mode".toList
  | delay => "debounce_seconds".toList
  | nowrap => "nowrap_labels".toList
  | logLevel => "log_level".toList

end Setting

end FreeLabel
