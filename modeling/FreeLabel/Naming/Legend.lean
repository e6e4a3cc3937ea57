/-
The legend of a diagram: which display name each identifier stands for,
in the order in which the identifiers were first entered. An identifier
keeps the name that it was entered with: `assign` refuses to give it
another one.
-/
import FreeLabel.Text.Quoted

namespace FreeLabel.Naming

/-- Identifiers with the names that they stand for, oldest first. No
identifier occurs twice. -/
structure Legend where
  /-- The pairs of an identifier and its name. -/
  entries : List (Text × Text) := []
  nodup_ids : (entries.map Prod.fst).Nodup := by simp

/-- An identifier was to be given a second name. -/
structure Conflict where
  /-- The identifier. -/
  id : Text
  /-- The name that it has. -/
  held : Text
  /-- The name that it was to be given. -/
  wanted : Text
deriving DecidableEq, Repr

/-- The text that reports a conflict. -/
def Conflict.message (c : Conflict) : Text :=
  "Identifier ".toList ++ Text.quoted c.id ++ " already maps to ".toList ++
    Text.quoted c.held ++ ", not ".toList ++ Text.quoted c.wanted

namespace Legend

/-- The legend without entries. -/
def empty : Legend := {}

/-- The identifiers, oldest first. -/
def ids (l : Legend) : List Text := l.entries.map Prod.fst

/-- How many identifiers there are. -/
def size (l : Legend) : Nat := l.entries.length

/-- The name of an identifier. -/
def get? (l : Legend) (id : Text) : Option Text := l.entries.lookup id

theorem get?_eq_none_iff {l : Legend} {id : Text} :
    l.get? id = none ↔ id ∉ l.ids := by
  simp only [get?, ids, List.lookup_eq_none_iff, List.mem_map,
    Prod.exists, exists_and_right, exists_eq_right, not_exists]
  constructor
  · intro h name hmem
    exact absurd (h _ hmem) (by simp)
  · rintro h ⟨id', name⟩ hmem
    rw [bne_iff_ne]
    rintro rfl
    exact h name hmem

/-- The legend with one more entry for an identifier that it lacks. -/
def push (l : Legend) (id name : Text) (fresh : id ∉ l.ids) : Legend where
  entries := l.entries ++ [(id, name)]
  nodup_ids := by
    rw [List.map_append, List.nodup_append]
    refine ⟨l.nodup_ids, by simp, ?_⟩
    intro x hx y hy hxy
    simp only [List.map_cons, List.map_nil, List.mem_singleton] at hy
    exact fresh (hy ▸ hxy ▸ hx)

/-- Enters that `id` stands for `name`. Entering the same pair again
changes nothing. -/
def assign (l : Legend) (id name : Text) : Except Conflict Legend :=
  match h : l.get? id with
  | none => .ok (l.push id name (get?_eq_none_iff.1 h))
  | some held =>
    if held = name then .ok l
    else .error { id := id, held := held, wanted := name }

/-- The legend with the given entries, made in order. -/
def ofList (pairs : List (Text × Text)) : Except Conflict Legend :=
  pairs.foldlM (fun l (id, name) => l.assign id name) empty

/-- The entries with the longest identifiers first; identifiers of one
length stay in the order of entry. -/
def longestFirst (l : Legend) : List (Text × Text) :=
  l.entries.mergeSort fun a b => b.1.length ≤ a.1.length

/-- The entries as one line of quoted pairs. -/
def summary (l : Legend) : Text :=
  let pair (e : Text × Text) := Text.quoted e.1 ++ ": ".toList ++ Text.quoted e.2
  ['{'] ++ ", ".toList.intercalate (l.entries.map pair) ++ ['}']

end Legend

end FreeLabel.Naming
