/-
Putting names in the place of identifiers. A text is scanned once: where
an identifier begins, the longest that does is replaced by its name, and
the scan goes on behind it; a name that has been put in is not looked at
again. Between, one character is copied at a time.

The empty identifier, if there is one, begins everywhere; its name is put
in wherever no other identifier begins, and at the end.
-/
import FreeLabel.Naming.Legend

namespace FreeLabel.Restore

/-- The entries of a legend in the order in which they are tried: a
longer identifier before a shorter. -/
abbrev Entries := List (Text × Text)

/-- The name of the first entry whose identifier is not empty and begins
at the head of `s`, with what follows the identifier. -/
def firstAt? (entries : Entries) (s : Text) : Option (Text × Text) :=
  entries.findSome? fun (id, name) =>
    if id = [] then none else (Text.after? id s).map (name, ·)

theorem length_lt_of_firstAt? {entries : Entries} {s name rest : Text}
    (h : firstAt? entries s = some (name, rest)) : rest.length < s.length := by
  obtain ⟨⟨id, n⟩, -, h⟩ := List.exists_of_findSome?_eq_some h
  simp only at h
  split at h
  · simp at h
  · next hid =>
    obtain ⟨r, hr, heq⟩ := Option.map_eq_some_iff.1 h
    simp only [Prod.mk.injEq] at heq
    obtain ⟨rfl, rfl⟩ := heq
    rw [Text.after?_eq_some_iff.1 hr]
    have := List.length_pos_iff.2 hid
    simp
    omega

/-- A text with names for identifiers. `gap` is what is put where no
identifier begins. -/
def substitute (entries : Entries) (gap s : Text) : Text :=
  match _h : firstAt? entries s with
  | some (name, rest) => name ++ substitute entries gap rest
  | none =>
    match s with
    | [] => gap
    | c :: s => gap ++ c :: substitute entries gap s
termination_by s.length
decreasing_by
  · exact length_lt_of_firstAt? ‹_›
  · simp

end FreeLabel.Restore

namespace FreeLabel

/-- A text with the names of a legend for its identifiers. An empty text
stays empty. -/
def Naming.Legend.substitute (l : Naming.Legend) (s : Text) : Text :=
  if s = [] then []
  else Restore.substitute l.longestFirst ((l.get? []).getD []) s

end FreeLabel
