/-
Making settings from what is given. A value may be given by the caller or
by the environment; the caller's is taken where both are there, and the
environment's is then not looked at. What is not given keeps its default.
All values that do not fit are reported together.
-/
import FreeLabel.Settings.Basic
import FreeLabel.Settings.Given

namespace FreeLabel.Settings

/-- Settings with one of them changed to what is given. -/
def put (s : Settings) (g : Given) : Setting → Except Misfit Settings
  | .outputDir => g.toText.map fun v => { s with outputDir := v }
  | .engine => g.toText.map fun v => { s with engine := v }
  | .image => g.toText.map fun v => { s with image := v }
  | .timeout => g.toWhole.map fun v => { s with timeout := v }
  | .fallback => g.toTruth.map fun v => { s with fallback := v }
  | .theme => g.toText.map fun v => { s with theme := v }
  | .layout => g.toText.map fun v => { s with layout := v }
  | .padding => g.toWhole.map fun v => { s with padding := v }
  | .strict => g.toTruth.map fun v => { s with strict := v }
  | .delay => g.toReal.map fun v => { s with delay := v }
  | .nowrap => g.toTruth.map fun v => { s with nowrap := v }
  | .logLevel => g.toText.map fun v => { s with logLevel := v }

/-- The value of one of the settings, as it could be given. -/
def value (s : Settings) : Setting → Given
  | .outputDir => .text s.outputDir
  | .engine => .text s.engine
  | .image => .text s.image
  | .timeout => .whole s.timeout
  | .fallback => .truth s.fallback
  | .theme => .text s.theme
  | .layout => .text s.layout
  | .padding => .whole s.padding
  | .strict => .truth s.strict
  | .delay => .real s.delay
  | .nowrap => .truth s.nowrap
  | .logLevel => .text s.logLevel

/-- Giving a setting the value that it has changes nothing. -/
theorem put_value (s : Settings) (k : Setting) : s.put (s.value k) k = .ok s := by
  cases k <;> rfl

/-- Whether a setting may have the value that it has: neither the padding
nor the delay may be negative. -/
def inRange (s : Settings) : Setting → Bool
  | .padding => 0 ≤ s.padding
  | .delay => !(s.delay < 0)
  | _ => true

/-- Settings with one of them changed to what is given, if it may have
that value. -/
def assign (s : Settings) (k : Setting) (g : Given) : Except Misfit Settings := do
  let s ← s.put g k
  if s.inRange k then pure s else throw .negative

/-- The value that is given for a setting. Names in the environment are in
any letter case. -/
def given? (caller : List (Text × Given)) (environment : List (Text × Text))
    (k : Setting) : Option Given :=
  (caller.lookup k.name).or <|
    (environment.find? fun e => e.1.map Char.toLower = k.name).map fun e => .text e.2

/-- The settings made from what is given, and what of it does not fit. -/
def collect (given? : Setting → Option Given) :
    List Setting → Settings → Settings × List (Setting × Misfit)
  | [], s => (s, [])
  | k :: ks, s =>
    match given? k with
    | none => collect given? ks s
    | some g =>
      match s.assign k g with
      | .ok s => collect given? ks s
      | .error why =>
        let (s, more) := collect given? ks s
        (s, (k, why) :: more)

/-- The settings made from what is given, or all that does not fit. -/
def load (caller : List (Text × Given)) (environment : List (Text × Text)) :
    Except (List (Setting × Misfit)) Settings :=
  match collect (given? caller environment) Setting.all {} with
  | (s, []) => .ok s
  | (_, misfits) => .error misfits

end FreeLabel.Settings
