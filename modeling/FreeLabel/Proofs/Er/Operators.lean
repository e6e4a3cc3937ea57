/-
Where the first operator of a line is found. An operator is found in a
text exactly if its spelling occurs there (`find?_eq_none_iff`); and
behind a text without one, from which a space sets it off, it is found
just where it stands (`find?_append`), since a spelling holds no space and
so none begins in the text and ends behind it.
-/
import FreeLabel.Er.Cardinality
import FreeLabel.Proofs.Text.Span

namespace FreeLabel.Er.Cardinality

/-- The characters that operators are spelled with. -/
theorem mem_of_mem_spelling {op : Cardinality} {c : Char} (h : c ∈ op.spelling) :
    c ∈ ['}', '|', 'o', '.', '-', '{'] := by
  have hall : op.spelling.all ['}', '|', 'o', '.', '-', '{'].contains = true := by
    obtain ⟨⟨leftMany, leftOptional⟩, dotted, ⟨rightMany, rightOptional⟩⟩ := op
    cases leftMany <;> cases leftOptional <;> cases dotted <;> cases rightMany <;>
      cases rightOptional <;> rfl
  exact List.contains_iff_mem.1 (List.all_eq_true.1 hall c h)

theorem space_not_mem_spelling (op : Cardinality) : ' ' ∉ op.spelling :=
  fun h => absurd (mem_of_mem_spelling h) (by decide)

/-- An operator draws a line. -/
theorem exists_stroke_mem_spelling (op : Cardinality) :
    ∃ c ∈ op.spelling, c = '.' ∨ c = '-' := by
  refine ⟨if op.dotted then '.' else '-', ?_, ?_⟩
  · unfold spelling
    cases op.dotted <;> simp
  · cases op.dotted <;> simp

/-- An operator begins with no blank. -/
theorem exists_cons_spelling (op : Cardinality) :
    ∃ c s, op.spelling = c :: s ∧ isBlank c = false := by
  refine ⟨_, _, rfl, ?_⟩
  cases op.left.many <;> decide

theorem read?_spelling (op : Cardinality) (rest : Text) :
    read? (op.spelling ++ rest) = some (op, rest) := by
  obtain ⟨⟨leftMany, leftOptional⟩, dotted, ⟨rightMany, rightOptional⟩⟩ := op
  cases leftMany <;> cases leftOptional <;> cases dotted <;> cases rightMany <;>
    cases rightOptional <;> rfl

theorem read?_eq_none_iff {s : Text} :
    read? s = none ↔ ∀ op : Cardinality, ¬ op.spelling <+: s := by
  constructor
  · rintro h op ⟨rest, rfl⟩
    rw [read?_spelling] at h
    cases h
  · intro h
    cases hread : read? s with
    | none => rfl
    | some found =>
        obtain ⟨op, rest⟩ := found
        exact absurd ⟨rest, (eq_spelling_of_read? hread).symm⟩ (h op)

/-- No operator is found exactly if none occurs. -/
theorem find?_eq_none_iff {s : Text} :
    find? s = none ↔ ∀ op : Cardinality, ¬ op.spelling <:+: s := by
  induction s with
  | nil =>
      refine ⟨fun _ op h => ?_, fun _ => rfl⟩
      obtain ⟨c, s, hop, -⟩ := op.exists_cons_spelling
      rw [List.infix_nil.1 h] at hop
      cases hop
  | cons c s ih =>
      have hcons : find? (c :: s) = none ↔ read? (c :: s) = none ∧ find? s = none := by
        rw [find?]
        cases read? (c :: s) with
        | none => simp
        | some found => simp
      rw [hcons, read?_eq_none_iff, ih, ← forall_and]
      refine forall_congr' fun op => ?_
      rw [List.infix_cons_iff, not_or]

/-- An operator is found behind a text that holds none. -/
theorem find?_append {s : Text} (hs : ∀ op : Cardinality, ¬ op.spelling <:+: s)
    (op : Cardinality) (rest : Text) :
    find? (s ++ ' ' :: (op.spelling ++ rest)) = some (s ++ [' '], op, rest) := by
  -- none begins in the text and ends behind the space
  have hnone : ∀ t, t <:+: s → read? (t ++ ' ' :: (op.spelling ++ rest)) = none := by
    intro t ht
    rw [read?_eq_none_iff]
    intro other hother
    have hinside := Text.prefix_of_prefix_append_cons (space_not_mem_spelling other) hother
    exact hs other (hinside.isInfix.trans ht)
  induction s with
  | nil =>
      obtain ⟨c, t, hop, -⟩ := op.exists_cons_spelling
      have hfound : find? (op.spelling ++ rest) = some ([], op, rest) := by
        have hread := read?_spelling op rest
        rw [hop, List.cons_append] at hread ⊢
        rw [find?, hread]
      have hspace := hnone [] List.infix_rfl
      rw [List.nil_append] at hspace ⊢
      rw [find?, hspace, hfound]
      rfl
  | cons c s ih =>
      have hhead := hnone (c :: s) List.infix_rfl
      have hrest := ih (fun op h => hs op (List.infix_cons h))
        fun t ht => hnone t (List.infix_cons ht)
      rw [List.cons_append] at hhead ⊢
      rw [find?, hhead, hrest]
      rfl

end FreeLabel.Er.Cardinality
