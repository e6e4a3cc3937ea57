/-
Identifiers: what a free-text name becomes in a diagram's grammar. An
identifier is one or more words of ASCII letters and digits, joined by
single low lines, and starts with a letter.

A name is taken apart rather than repaired: letters with an established
ASCII digraph are spelled out, the words are what lies between the other
characters, and the words are joined. So no run of low lines and none at
an end has to be removed afterwards.
-/
import FreeLabel.Text.Word

namespace FreeLabel.Naming

/-- A letter in ASCII, where a digraph for it is established; any other
character stands for itself. -/
def digraph (c : Char) : Text :=
  match c with
  | 'ä' | 'æ' => "ae".toList
  | 'Ä' | 'Æ' => "Ae".toList
  | 'ö' | 'ø' | 'œ' => "oe".toList
  | 'Ö' | 'Ø' | 'Œ' => "Oe".toList
  | 'ü' => "ue".toList
  | 'Ü' => "Ue".toList
  | 'å' => "aa".toList
  | 'Å' => "Aa".toList
  | 'ß' => "ss".toList
  | c => [c]

/-- The words of a name: its longest runs of ASCII letters and digits
once the digraphs are spelled out. -/
def words (name : Text) : List Text :=
  ((name.flatMap digraph).splitOnP fun c => !isAsciiAlnum c).filter
    fun word => !word.isEmpty

/-- What stands for a name that has no word. -/
def unnamed : Text := "unnamed".toList

/-- The identifier of a name. A leading digit is put behind a letter,
because the grammar does not let a name begin with one. -/
def identifier (name : Text) : Text :=
  match ['_'].intercalate (words name) with
  | [] => unnamed
  | c :: cs => if c.isDigit then 'n' :: c :: cs else c :: cs

/-- The identifier of a name that may be missing, which is then read as
the empty one. -/
def identifierOf (name? : Option Text) : Text := identifier (name?.getD [])

end FreeLabel.Naming
