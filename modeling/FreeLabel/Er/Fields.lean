/-
Fields between commas, for lines in which a comma between double quotes
belongs to its field. Quotes are kept in the fields; one that is never
closed keeps the rest of the line in one field.
-/
import FreeLabel.Text.Blank

namespace FreeLabel.Er

/-- The pieces of a text between the commas that stand outside double
quotes. `quoted` tells whether the text begins between quotes. -/
def pieces (quoted : Bool) : Text → List Text
  | [] => [[]]
  | c :: s =>
    if c = ',' && !quoted then [] :: pieces quoted s
    else (pieces (if c = '"' then !quoted else quoted) s).modifyHead (c :: ·)

/-- The fields of a line, trimmed. -/
def fields (line : Text) : List Text := (pieces false line).map Text.trim

end FreeLabel.Er
