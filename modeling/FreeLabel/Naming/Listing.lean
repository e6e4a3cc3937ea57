/-
The legend as a JSON object, an entry on each line. Characters outside
ASCII stand for themselves.
-/
import FreeLabel.Naming.Legend

namespace FreeLabel.Naming

/-- The spelling of one character in a JSON string. -/
def jsonSpelling (c : Char) : Text :=
  if c == '"' || c == '\\' then ['\\', c]
  else if c == '\n' then "\\n".toList
  else if c == '\r' then "\\r".toList
  else if c == '\t' then "\\t".toList
  else if c == '\x08' then "\\b".toList
  else if c == '\x0c' then "\\f".toList
  else if c.toNat < 0x20 then "\\u".toList ++ Text.hex 4 c.toNat
  else [c]

/-- A text as a JSON string. -/
def jsonString (s : Text) : Text := ['"'] ++ s.flatMap jsonSpelling ++ ['"']

/-- The legend as a JSON object. -/
def Legend.json (l : Legend) : Text :=
  let line (e : Text × Text) :=
    "\n  ".toList ++ jsonString e.1 ++ ": ".toList ++ jsonString e.2
  match l.entries with
  | [] => ['{', '}']
  | entries => ['{'] ++ [','].intercalate (entries.map line) ++ ['\n', '}']

end FreeLabel.Naming
