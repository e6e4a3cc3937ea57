/-
The brackets that draw a node's outline, around a label in double quotes.
A label in brackets reads the same way wherever it occurs, so its reader
stands here and serves sources and compiled diagrams alike.
-/
import FreeLabel.Text.Basic

namespace FreeLabel.Flow

/-- A pair of brackets around a quoted label. -/
inductive Bracket
  | square | curly | round | stadium | subroutine
deriving DecidableEq, Repr

namespace Bracket

/-- The five pairs. -/
def all : List Bracket := [square, curly, round, stadium, subroutine]

/-- The bracket before the label. -/
def opening : Bracket → Text
  | square => ['[']
  | curly => ['{']
  | round => ['(']
  | stadium => ['(', '[']
  | subroutine => ['[', '[']

/-- The bracket after the label. -/
def closing : Bracket → Text
  | square => [']']
  | curly => ['}']
  | round => [')']
  | stadium => [']', ')']
  | subroutine => [']', ']']

/-- A label in quotes and brackets. -/
def enclose (b : Bracket) (label : Text) : Text :=
  b.opening ++ ['"'] ++ label ++ ['"'] ++ b.closing

/-- The label in brackets `b` at the head of `s`, and what follows it. A
label holds no double quote. -/
def label? (b : Bracket) (s : Text) : Option (Text × Text) := do
  let s ← Text.after? (b.opening ++ ['"']) s
  let (label, s) ← Text.cut? ['"'] s
  let s ← Text.after? b.closing s
  some (label, s)

theorem eq_enclose_of_label? {b : Bracket} {s label rest : Text}
    (h : b.label? s = some (label, rest)) : s = b.enclose label ++ rest := by
  simp only [label?, Option.bind_eq_bind, Option.bind_eq_some_iff,
    Option.some.injEq, Prod.mk.injEq, Prod.exists] at h
  obtain ⟨s₁, h₁, l, s₂, h₂, s₃, h₃, rfl, rfl⟩ := h
  rw [Text.after?_eq_some_iff.1 h₁, Text.cut?_eq_some h₂,
    Text.after?_eq_some_iff.1 h₃]
  simp [enclose]

/-- The label in any brackets at the head of `s`, and what follows it. -/
def anyLabel? (s : Text) : Option (Bracket × Text × Text) :=
  all.findSome? fun b => (b.label? s).map fun (label, rest) => (b, label, rest)

theorem eq_enclose_of_anyLabel? {s label rest : Text} {b : Bracket}
    (h : anyLabel? s = some (b, label, rest)) :
    s = b.enclose label ++ rest := by
  obtain ⟨b', -, h⟩ := List.exists_of_findSome?_eq_some h
  obtain ⟨⟨l, r⟩, hl, heq⟩ := Option.map_eq_some_iff.1 h
  simp only [Prod.mk.injEq] at heq
  obtain ⟨rfl, rfl, rfl⟩ := heq
  exact eq_enclose_of_label? hl

end Bracket

end FreeLabel.Flow
