/-
Double quotes around a text, as a source may or may not put them. A quote
is taken off either end by itself, except where `peel` asks for both.
-/
import FreeLabel.Text.Blank

namespace FreeLabel.Text

/-- A text without one double quote at its head. -/
def dropOpeningQuote : Text → Text
  | '"' :: s => s
  | s => s

/-- A text without one double quote at its end. -/
def dropClosingQuote (s : Text) : Text :=
  if s.getLast? = some '"' then s.dropLast else s

/-- A text without one double quote at either end. Of a text that is one
double quote, nothing is left. -/
def dropQuotes (s : Text) : Text := dropClosingQuote (dropOpeningQuote s)

/-- A text without one double quote at either end, and then trimmed. -/
def unquoted (s : Text) : Text := trim (dropQuotes s)

/-- A trimmed text without the double quotes around it, if it has both. -/
def peel (s : Text) : Text :=
  match trim s with
  | '"' :: inner =>
    if inner.getLast? = some '"' then inner.dropLast else '"' :: inner
  | t => t

end FreeLabel.Text
