/-
Association lists in which a value is set: in the place of the one that
its key had, or else at the end. Files are put at places that way, and
attributes are given values. What is found under a key afterwards is the
value that was set if it is the key, and what was found before if not
(`lookup_set`).
-/
namespace FreeLabel

variable {α β : Type} [BEq α] [LawfulBEq α] [DecidableEq α]

variable {entries : List (α × β)} {key other : α} (value : β)

/-- A key that is there finds the value that is put in its place. -/
theorem lookup_replace_self (hheld : (entries.lookup key).isSome = true) :
    (entries.map fun x => if x.1 = key then (key, value) else x).lookup key = some value := by
  induction entries with
  | nil => cases hheld
  | cons x entries ih =>
      rw [List.map_cons]
      by_cases hx : x.1 = key
      · rw [if_pos hx, List.lookup_cons_self]
      · have hne : (key == x.1) = false := beq_eq_false_iff_ne.2 (Ne.symm hx)
        rw [List.lookup_cons, hne] at hheld
        rw [if_neg hx, List.lookup_cons, hne]
        exact ih hheld

/-- Other keys find what they found. -/
theorem lookup_replace_other (hother : other ≠ key) :
    (entries.map fun x => if x.1 = key then (key, value) else x).lookup other
      = entries.lookup other := by
  have hne : (other == key) = false := beq_eq_false_iff_ne.2 hother
  induction entries with
  | nil => rfl
  | cons x entries ih =>
      rw [List.map_cons]
      by_cases hx : x.1 = key
      · rw [if_pos hx, List.lookup_cons, List.lookup_cons, ih, hx, hne]
      · rw [if_neg hx, List.lookup_cons, List.lookup_cons, ih]

/-- What is found after a value has been set. -/
theorem lookup_set (entries : List (α × β)) (key other : α) :
    (if (entries.lookup key).isSome then
        entries.map fun x => if x.1 = key then (key, value) else x
      else entries ++ [(key, value)]).lookup other
      = if other = key then some value else entries.lookup other := by
  by_cases hother : other = key
  · rw [hother, if_pos rfl]
    split
    next hheld => exact lookup_replace_self value hheld
    next hnone =>
      rw [List.lookup_append, Option.not_isSome_iff_eq_none.1 hnone, List.lookup_cons_self]
      rfl
  · rw [if_neg hother]
    split
    next => exact lookup_replace_other value hother
    next =>
      rw [List.lookup_append, List.lookup_cons, beq_eq_false_iff_ne.2 hother]
      exact Option.or_none

end FreeLabel
