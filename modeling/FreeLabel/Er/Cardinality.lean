/-
The operator of a relationship: how many of each entity take part, and
whether the line between them is drawn dotted. An operator has one
spelling of six characters, and it is found wherever it stands in a line.
-/
import FreeLabel.Text.Basic

namespace FreeLabel.Er

/-- How many of the entity at one end take part. -/
structure Ending where
  /-- More than one may. -/
  many : Bool
  /-- None may. -/
  optional : Bool
deriving DecidableEq, Repr

/-- The operator between two entities. -/
structure Cardinality where
  /-- The end at the entity before the operator. -/
  left : Ending
  /-- Whether the line is dotted. -/
  dotted : Bool
  /-- The end at the entity behind the operator. -/
  right : Ending
deriving DecidableEq, Repr

namespace Cardinality

/-- The character for whether none may take part. -/
def least (e : Ending) : Char := if e.optional then 'o' else '|'

/-- The spelling of an operator. -/
def spelling (c : Cardinality) : Text :=
  [if c.left.many then '}' else '|', least c.left] ++
    (if c.dotted then ['.', '.'] else ['-', '-']) ++
    [least c.right, if c.right.many then '{' else '|']

/-- Whether a character tells that none may take part. -/
def least? : Char → Option Bool
  | 'o' => some true
  | '|' => some false
  | _ => none

/-- Whether a character before an operator's line tells of many. -/
def leftMost? : Char → Option Bool
  | '}' => some true
  | '|' => some false
  | _ => none

/-- Whether a character behind an operator's line tells of many. -/
def rightMost? : Char → Option Bool
  | '{' => some true
  | '|' => some false
  | _ => none

/-- Whether two characters draw a dotted line. -/
def line? : Char → Char → Option Bool
  | '.', '.' => some true
  | '-', '-' => some false
  | _, _ => none

/-- The operator that `s` begins with, and what follows it. -/
def read? : Text → Option (Cardinality × Text)
  | a :: b :: c :: d :: e :: f :: rest => do
    let leftMany ← leftMost? a
    let leftOptional ← least? b
    let dotted ← line? c d
    let rightOptional ← least? e
    let rightMany ← rightMost? f
    some
      ({ left := { many := leftMany, optional := leftOptional }
         dotted := dotted
         right := { many := rightMany, optional := rightOptional } }, rest)
  | _ => none

/-- The first operator in `s`, between what stands before and behind
it. -/
def find? : Text → Option (Text × Cardinality × Text)
  | [] => none
  | ch :: s =>
    match read? (ch :: s) with
    | some (op, rest) => some ([], op, rest)
    | none =>
      (find? s).map fun (before, op, rest) => (ch :: before, op, rest)

theorem eq_spelling_of_read? {s rest : Text} {op : Cardinality}
    (h : read? s = some (op, rest)) : s = op.spelling ++ rest := by
  fun_cases read? s
  next a b c d e f r =>
    simp only [read?, Option.bind_eq_bind, Option.bind_eq_some_iff,
      Option.some.injEq, Prod.mk.injEq] at h
    obtain ⟨lm, hlm, lo, hlo, dt, hdt, ro, hro, rm, hrm, rfl, rfl⟩ := h
    have h₁ : a = if lm then '}' else '|' := by
      unfold leftMost? at hlm; split at hlm <;> simp_all
    have h₂ : b = if lo then 'o' else '|' := by
      unfold least? at hlo; split at hlo <;> simp_all
    have h₃ : [c, d] = if dt then ['.', '.'] else ['-', '-'] := by
      unfold line? at hdt; split at hdt <;> simp_all
    have h₄ : e = if ro then 'o' else '|' := by
      unfold least? at hro; split at hro <;> simp_all
    have h₅ : f = if rm then '{' else '|' := by
      unfold rightMost? at hrm; split at hrm <;> simp_all
    simp [spelling, least, ← h₁, ← h₂, ← h₃, ← h₄, ← h₅]
  next hshort => simp [read?] at h

end Cardinality

end FreeLabel.Er
