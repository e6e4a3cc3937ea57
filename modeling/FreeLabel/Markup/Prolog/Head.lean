/-
The declaration at the head of a document, which is an instruction for its
reader: a version, and then perhaps an encoding and whether the document
stands alone.
-/
import FreeLabel.Markup.Scan
import FreeLabel.Text.Word

namespace FreeLabel.Markup

/-- A setting in the declaration of a document: its name, its value, and
what begins at each. -/
structure Setting where
  /-- The name. -/
  name : Text
  /-- The declaration from the name on. -/
  namePlace : Text
  /-- The value. -/
  value : Text
  /-- The declaration from the value on. -/
  valuePlace : Text
deriving DecidableEq, Repr

/-- Whether a character may stand in the value of a setting. -/
def isSettingChar (c : Char) : Bool :=
  isAsciiAlnum c || c == '.' || c == '-' || c == '_'

/-- Reads a setting behind space. There is none if only space is left;
the error is what of the declaration begins where it goes wrong. -/
def readSetting (s : Text) : Except Text (Option (Setting × Text)) :=
  match skipSpace s with
  | [] => .ok none
  | t =>
    if t.length = s.length then .error s
    else
      let ends (c : Char) : Bool := c == '=' || isXmlSpace c || 0x80 ≤ c.toNat
      let name := t.takeWhile fun c => !ends c
      match skipSpace (t.dropWhile fun c => !ends c) with
      | '=' :: rest =>
        match name, skipSpace rest with
        | [], _ => .error t
        | _, q :: rest =>
          if q = '"' || q = '\'' then
            match rest.dropWhile isSettingChar with
            | c :: after =>
              if c = q then
                .ok (some
                  ({ name := name, namePlace := t, valuePlace := rest
                     value := rest.takeWhile isSettingChar }, after))
              else .error (c :: after)
            | [] => .error []
          else .error (q :: rest)
        | _, [] => .error []
      | rest => .error rest

/-- The settings that a declaration may have behind its version: an
encoding and whether the document stands alone, both optional. The answer
tells whether it does. -/
def readDeclaration (body : Text) : Except Text Bool := do
  match ← readSetting body with
  | none => .error body
  | some (version, rest) =>
    if version.name ≠ "version".toList then .error version.namePlace
    else
      match ← readSetting rest with
      | none => .ok false
      | some (second, rest) =>
        if second.name = "encoding".toList then
          if !second.value.head?.any isAsciiLetter then .error second.valuePlace
          else
            match ← readSetting rest with
            | none => .ok false
            | some (third, rest) => standalone third rest
        else standalone second rest
where
  /-- Whether the document stands alone, by the last setting. -/
  standalone (s : Setting) (rest : Text) : Except Text Bool :=
    if s.name ≠ "standalone".toList then .error s.namePlace
    else if s.value ≠ "yes".toList ∧ s.value ≠ "no".toList then .error s.valuePlace
    else if skipSpace rest ≠ [] then .error (skipSpace rest)
    else .ok (s.value = "yes".toList)

end FreeLabel.Markup
