/-
Arrows: a shaft of dashes, equals signs or dots, with or without a head,
and behind it an optional label between bars. As with brackets, sources
and compiled diagrams spell them alike, and one reader serves both.

An arrow is read as far as it goes: `shaft?` takes the whole run of its
line characters, and `read?` a label if its second bar is there.
-/
import FreeLabel.Text.Basic

namespace FreeLabel.Flow

/-- An arrow as it is spelled. -/
structure Arrow where
  /-- The arrow itself. -/
  shaft : Text
  /-- The text between bars behind it. -/
  label : Option Text
deriving DecidableEq, Repr

namespace Arrow

/-- The spelling of a label. -/
def labelSpelling : Option Text → Text
  | none => []
  | some label => ['|'] ++ label ++ ['|']

/-- The spelling of an arrow. -/
def spelling (a : Arrow) : Text := a.shaft ++ labelSpelling a.label

/-- The head of an arrow, if one follows, and the rest. -/
def head : Text → Text × Text
  | '>' :: s => (['>'], s)
  | s => ([], s)

theorem head_append (s : Text) : (head s).1 ++ (head s).2 = s := by
  fun_cases head s <;> rfl

/-- The second dash of a dotted arrow with its head, if they follow, and
the rest. -/
def dottedEnd : Text → Text × Text
  | '-' :: s => ('-' :: (head s).1, (head s).2)
  | s => ([], s)

theorem dottedEnd_append (s : Text) : (dottedEnd s).1 ++ (dottedEnd s).2 = s := by
  fun_cases dottedEnd s
  · simp [head_append]
  · rfl

/-- A run of `c` with what `tail` takes behind it, and the rest. -/
def run (c : Char) (tail : Text → Text × Text) (s : Text) : Text × Text :=
  let t := tail (s.dropWhile (· == c))
  (s.takeWhile (· == c) ++ t.1, t.2)

theorem run_append {c : Char} {tail : Text → Text × Text}
    (h : ∀ s, (tail s).1 ++ (tail s).2 = s) (s : Text) :
    (run c tail s).1 ++ (run c tail s).2 = s := by
  simp [run, h, List.takeWhile_append_dropWhile]

/-- The shaft that `s` begins with, and what follows it: two or more
dashes or equals signs and an optional head, or a dash, dots, an optional
dash and, behind that, an optional head. -/
def shaft? : Text → Option (Text × Text)
  | '-' :: '-' :: s =>
    let r := run '-' head s
    some ('-' :: '-' :: r.1, r.2)
  | '=' :: '=' :: s =>
    let r := run '=' head s
    some ('=' :: '=' :: r.1, r.2)
  | '-' :: '.' :: s =>
    let r := run '.' dottedEnd s
    some ('-' :: '.' :: r.1, r.2)
  | _ => none

theorem shaft?_eq_some {s shaft rest : Text} (h : shaft? s = some (shaft, rest)) :
    s = shaft ++ rest ∧ shaft ≠ [] := by
  fun_cases shaft? s <;> simp only [shaft?, Option.some.injEq, Prod.mk.injEq,
    reduceCtorEq] at h
  all_goals
    obtain ⟨rfl, rfl⟩ := h
    simp [run_append, head_append, dottedEnd_append]

/-- The label that `s` begins with, if there is one, and the rest. -/
def readLabel (s : Text) : Option Text × Text :=
  match s with
  | '|' :: s' =>
    match Text.cut? ['|'] s' with
    | some (label, rest) => (some label, rest)
    | none => (none, s)
  | _ => (none, s)

theorem readLabel_append (s : Text) :
    labelSpelling (readLabel s).1 ++ (readLabel s).2 = s := by
  fun_cases readLabel s
  · next h => simp [labelSpelling, Text.cut?_eq_some h]
  · rfl
  · rfl

/-- The arrow that `s` begins with, and what follows it. -/
def read? (s : Text) : Option (Arrow × Text) :=
  (shaft? s).map fun (shaft, rest) =>
    ({ shaft := shaft, label := (readLabel rest).1 }, (readLabel rest).2)

theorem eq_spelling_of_read? {s rest : Text} {a : Arrow}
    (h : read? s = some (a, rest)) : s = a.spelling ++ rest := by
  obtain ⟨⟨shaft, after⟩, hs, heq⟩ := Option.map_eq_some_iff.1 h
  simp only [Prod.mk.injEq] at heq
  obtain ⟨rfl, rfl⟩ := heq
  rw [(shaft?_eq_some hs).1]
  simp [spelling, readLabel_append]

theorem spelling_ne_nil_of_read? {s rest : Text} {a : Arrow}
    (h : read? s = some (a, rest)) : a.spelling ≠ [] := by
  obtain ⟨⟨shaft, after⟩, hs, heq⟩ := Option.map_eq_some_iff.1 h
  simp only [Prod.mk.injEq] at heq
  obtain ⟨rfl, rfl⟩ := heq
  simp [spelling, (shaft?_eq_some hs).2]

end Arrow

end FreeLabel.Flow
