/-
What setting the direction does to the lines of a source.

# Two edits

The first line that begins like a statement of the direction loses what is
spelled like one, and the first line that begins with the word of a
declaration gets the direction behind that word (`dropStatement_cases`,
`changeFirst_cases`). Both lines are found by how they begin, not by what
they are: whether a line is a statement or a declaration also depends on
what comes behind, and a line is one exactly if that is blank
(`isSome_directionStatement?_iff`, `isSome_declaration?`).

A line cannot begin in both ways. So the first edit does not change which
line the second one finds, unless what it leaves of a line begins with the
word (`findSome?_dropStatement`).
-/
import FreeLabel.Proofs.Er.Directions
import FreeLabel.Redirect

namespace FreeLabel.Redirect

open Er (directionStatement?)
open Text (trim trimLeft trimRight)

-- ============================================================ statements

section Statements

variable {line left : Text}

/-- A line that begins like a statement of the direction, in its parts. -/
theorem exists_of_afterStatement? (h : afterStatement? line = some left) :
    ∃ (blanks word gap name gap' : Text) (d : Direction),
      line = blanks ++ (word ++ (gap ++ (name ++ (gap' ++ left))))
        ∧ (∀ c ∈ blanks, isBlank c = true) ∧ word.map foldCase = "direction".toList
        ∧ gap ≠ [] ∧ (∀ c ∈ gap, isBlank c = true) ∧ name.map foldCase = d.smallName
        ∧ ∀ c ∈ gap', isBlank c = true := by
  unfold afterStatement? at h
  obtain ⟨afterWord, hword, h⟩ := Option.bind_eq_some_iff.1 h
  obtain ⟨afterGap, hgap, h⟩ := Option.bind_eq_some_iff.1 h
  obtain ⟨⟨d, afterName⟩, hname, h⟩ := Option.bind_eq_some_iff.1 h
  cases h
  obtain ⟨blanks, hblanks, hline⟩ := Text.exists_skipGap line
  obtain ⟨word, hsplit, hread⟩ := Text.afterAnyCase?_eq_some_iff.1 hword
  obtain ⟨gap, hne, hgaps, rfl⟩ := Text.exists_of_afterGap? hgap
  obtain ⟨name, rfl, hfold⟩ := Direction.read?_eq_some_iff.1 hname
  obtain ⟨gap', hgap', hrest⟩ := Text.exists_skipGap afterName
  refine ⟨blanks, word, gap, name, gap', d, ?_, fun c hc => isBlank_of_isGap (hblanks c hc), hread,
    hne, fun c hc => isBlank_of_isGap (hgaps c hc), hfold,
    fun c hc => isBlank_of_isGap (hgap' c hc)⟩
  rw [← hrest, ← hsplit]
  exact hline

/-- It is one if nothing else is left of it. -/
theorem isSome_directionStatement?_iff (h : afterStatement? line = some left) :
    (directionStatement? (trim line)).isSome = true ↔ ∀ c ∈ left, isBlank c = true := by
  obtain ⟨blanks, word, gap, name, gap', d, rfl, hblanks, hword, hne, hgap, hname, hgap'⟩ :=
    exists_of_afterStatement? h
  rw [Er.directionStatement?_spelled hblanks hword hne hgap hname]
  have hiff : trimRight (gap' ++ left) = [] ↔ ∀ c ∈ left, isBlank c = true := by
    rw [Text.trimRight_eq_nil_iff]
    refine ⟨fun hall c hc => hall c (List.mem_append_right _ hc), fun hall c hc => ?_⟩
    exact (List.mem_append.1 hc).elim (hgap' c) (hall c)
  split
  next hnil => simpa using hiff.1 hnil
  next hnil => simpa using fun hall => hnil (hiff.2 hall)

theorem left_suffix (h : afterStatement? line = some left) :
    left <:+ line ∧ left.length < line.length := by
  obtain ⟨blanks, word, gap, name, gap', d, rfl, -, hword, -, -, -, -⟩ :=
    exists_of_afterStatement? h
  have hlength : word.length = 9 := by
    rw [← List.length_map (f := foldCase), hword]
    rfl
  refine ⟨⟨blanks ++ (word ++ (gap ++ (name ++ gap'))), by simp⟩, ?_⟩
  simp only [List.length_append]
  omega

/-- What a line begins with that begins like a statement. -/
theorem head_of_afterStatement? (h : afterStatement? line = some left) :
    (trimLeft line).head?.map foldCase = some 'd' := by
  obtain ⟨blanks, word, gap, name, gap', d, rfl, hblanks, hword, -, -, -, -⟩ :=
    exists_of_afterStatement? h
  cases word with
  | nil => cases hword
  | cons c word =>
      obtain ⟨hc, -⟩ := List.cons.inj hword
      have hblank := isBlank_of_fold hword Er.isBlank_direction c List.mem_cons_self
      rw [trimLeft, Text.dropWhile_append_eq hblanks (by simpa using hblank)]
      exact congrArg some hc

end Statements

-- ========================================================== declarations

section Declarations

variable {line s changed : Text} {d : Option Direction}

/-- A line that begins with the word of a declaration, in its parts. -/
theorem exists_of_afterKeyword? (h : Text.afterKeyword? erWord (trimLeft line) = some s) :
    ∃ blanks word : Text, line = blanks ++ (word ++ s) ∧ (∀ c ∈ blanks, isBlank c = true)
      ∧ word.map foldCase = erWord := by
  obtain ⟨hread, -⟩ := Option.filter_eq_some_iff.1 h
  obtain ⟨word, hline, hword⟩ := Text.afterAnyCase?_eq_some_iff.1 hread
  refine ⟨Text.indent line, word, ?_, List.all_eq_true.1 List.all_takeWhile, hword⟩
  rw [← hline, Text.indent_append]

theorem upTo_append (a s : Text) : upTo s (a ++ s) = a := by
  unfold upTo
  rw [List.length_append, Nat.add_sub_cancel]
  exact List.take_left' rfl

/-- The line with the direction set, in the same parts. -/
theorem declaration?_eq {blanks word : Text}
    (h : Text.afterKeyword? erWord (trimLeft (blanks ++ (word ++ s))) = some s) :
    declaration? d (blanks ++ (word ++ s))
      = some (blanks ++ (word ++ (shorthand d ++ afterShorthand s))) := by
  unfold declaration?
  rw [h]
  show some (upTo s (blanks ++ (word ++ s)) ++ shorthand d ++ afterShorthand s) = _
  rw [← List.append_assoc blanks word s, upTo_append]
  simp

theorem newline_not_mem_shorthand (d : Option Direction) : '\n' ∉ shorthand d := by
  cases d with
  | none => exact List.not_mem_nil
  | some e => cases e <;> decide

theorem declaration?_eq_none_iff :
    declaration? d line = none ↔ Text.afterKeyword? erWord (trimLeft line) = none := by
  unfold declaration?
  cases Text.afterKeyword? erWord (trimLeft line) <;> simp

/-- What stands behind the word is a direction and the rest, or all of it
is the rest. -/
theorem afterShorthand_cases (s : Text) :
    afterShorthand s = s ∨ ∃ (gap name : Text) (e : Direction),
      s = gap ++ (name ++ afterShorthand s) ∧ gap ≠ [] ∧ (∀ c ∈ gap, isBlank c = true)
        ∧ name.map foldCase = e.smallName := by
  unfold afterShorthand
  split
  next e rest hread =>
    split
    next =>
      obtain ⟨behind, hgap, hname⟩ := Option.bind_eq_some_iff.1 hread
      obtain ⟨gap, hne, hgaps, rfl⟩ := Text.exists_of_afterGap? hgap
      obtain ⟨name, rfl, hfold⟩ := Direction.read?_eq_some_iff.1 hname
      exact .inr ⟨gap, name, e, rfl, hne, fun c hc => isBlank_of_isGap (hgaps c hc), hfold⟩
    next => exact .inl rfl
  next => exact .inl rfl

variable {blanks word rest : Text}

/-- A word with a direction behind it declares the direction if only blanks
follow. -/
theorem declaration?_shorthand (hblanks : ∀ c ∈ blanks, isBlank c = true)
    (hword : word.map foldCase = erWord) (e : Direction) :
    Er.declaration? (trim (blanks ++ (word ++ (shorthand (some e) ++ rest))))
      = if trimRight rest = [] then some (some e) else none := by
  have hspelled : shorthand (some e) ++ rest = [' '] ++ (e.name ++ rest) := rfl
  rw [hspelled, Er.declaration?_spelled hblanks hword (by simp) Text.isBlank_of_mem_space
    e.map_foldCase_name]

/-- Before blanks, the word declares the direction that is put behind it. -/
theorem declaration?_shorthand_blanks (hblanks : ∀ c ∈ blanks, isBlank c = true)
    (hword : word.map foldCase = erWord) (hrest : ∀ c ∈ rest, isBlank c = true)
    (d : Option Direction) :
    Er.declaration? (trim (blanks ++ (word ++ (shorthand d ++ rest)))) = some d := by
  cases d with
  | none => exact Er.declaration?_word hblanks hword hrest
  | some e =>
      rw [declaration?_shorthand hblanks hword, if_pos (Text.trimRight_eq_nil_iff.2 hrest)]

/-- A line with nothing but a direction behind the word is a
declaration. -/
theorem isSome_declaration? (hblanks : ∀ c ∈ blanks, isBlank c = true)
    (hword : word.map foldCase = erWord) (hrest : ∀ c ∈ afterShorthand s, isBlank c = true) :
    (Er.declaration? (trim (blanks ++ (word ++ s)))).isSome = true := by
  rcases afterShorthand_cases s with hsame | ⟨gap, name, e, hs, hne, hgap, hname⟩
  · rw [hsame] at hrest
    rw [Er.declaration?_word hblanks hword hrest]
    rfl
  · rw [hs, Er.declaration?_spelled hblanks hword hne hgap hname,
      if_pos (Text.trimRight_eq_nil_iff.2 hrest)]
    rfl

/-- A line that begins with the word states no direction. -/
theorem directionStatement?_word (hblanks : ∀ c ∈ blanks, isBlank c = true)
    (hword : word.map foldCase = erWord) (s : Text) :
    directionStatement? (trim (blanks ++ (word ++ s))) = none := by
  rw [Text.trim_word hblanks (Er.ne_nil_of_fold hword (by decide))
    (isBlank_of_fold hword Er.isBlank_erWord)]
  cases hstatement : directionStatement? (word ++ trimRight s) with
  | none => rfl
  | some e =>
      have hhead := Er.head_of_directionStatement? hstatement
      cases word with
      | nil => cases hword
      | cons c word =>
          have hfirst := (congrArg some (List.cons.inj hword).1).symm.trans hhead
          exact absurd hfirst (by decide)

end Declarations

-- ================================================================= edits

section Edits

variable {lines before rest : List Text} {d : Option Direction}

theorem dropStatement_append (hbefore : ∀ line ∈ before, afterStatement? line = none) :
    dropStatement (before ++ rest) = before ++ dropStatement rest := by
  induction before with
  | nil => rfl
  | cons line before ih =>
      rw [List.cons_append, dropStatement, hbefore line List.mem_cons_self]
      simp only
      rw [ih fun l hl => hbefore l (List.mem_cons_of_mem line hl)]
      rfl

theorem changeFirst_append {change? : Text → Option Text}
    (hbefore : ∀ line ∈ before, change? line = none) :
    changeFirst change? (before ++ rest) = before ++ changeFirst change? rest := by
  induction before with
  | nil => rfl
  | cons line before ih =>
      rw [List.cons_append, changeFirst, hbefore line List.mem_cons_self]
      simp only
      rw [ih fun l hl => hbefore l (List.mem_cons_of_mem line hl)]
      rfl

/-- A line after the edit was one before, or is one that was changed. -/
theorem mem_changeFirst {change? : Text → Option Text} {line : Text}
    (h : line ∈ changeFirst change? lines) :
    line ∈ lines ∨ ∃ old ∈ lines, change? old = some line := by
  induction lines with
  | nil => cases h
  | cons first rest ih =>
      unfold changeFirst at h
      split at h
      next changed hchanged =>
        rcases List.mem_cons.1 h with rfl | h
        · exact .inr ⟨first, List.mem_cons_self, hchanged⟩
        · exact .inl (List.mem_cons_of_mem first h)
      next =>
        rcases List.mem_cons.1 h with rfl | h
        · exact .inl List.mem_cons_self
        · rcases ih h with hrest | ⟨old, hold, hchanged⟩
          · exact .inl (List.mem_cons_of_mem first hrest)
          · exact .inr ⟨old, List.mem_cons_of_mem first hold, hchanged⟩

theorem changeFirst_ne_nil {change? : Text → Option Text} (hne : lines ≠ []) :
    changeFirst change? lines ≠ [] := by
  obtain ⟨first, rest, rfl⟩ := List.exists_cons_of_ne_nil hne
  unfold changeFirst
  split
  next => exact List.cons_ne_nil _ _
  next => exact List.cons_ne_nil _ _

/-- Lines stay lines if no line feed is put into the one that is changed. -/
theorem newline_not_mem_changeFirst {change? : Text → Option Text}
    (hchange : ∀ line changed, change? line = some changed → '\n' ∉ line → '\n' ∉ changed)
    (hlines : ∀ line ∈ lines, '\n' ∉ line) : ∀ line ∈ changeFirst change? lines, '\n' ∉ line := by
  intro line hline
  rcases mem_changeFirst hline with hline | ⟨old, hold, hchanged⟩
  · exact hlines line hline
  · exact hchange old line hchanged (hlines old hold)

/-- The first edit: no line begins like a statement, or the first that does
is cut, and dropped if it is empty then and not the last. -/
theorem dropStatement_cases (lines : List Text) :
    (lines.findSome? afterStatement? = none ∧ dropStatement lines = lines)
      ∨ ∃ before line left after, lines = before ++ line :: after
        ∧ (∀ l ∈ before, afterStatement? l = none) ∧ afterStatement? line = some left
        ∧ lines.findSome? afterStatement? = some left
        ∧ (dropStatement lines = before ++ left :: after
          ∨ left = [] ∧ after ≠ [] ∧ dropStatement lines = before ++ after) := by
  cases hfirst : lines.findSome? afterStatement? with
  | none =>
      have hnone := List.findSome?_eq_none_iff.1 hfirst
      have hsame : dropStatement (lines ++ []) = lines ++ [] := dropStatement_append hnone
      rw [List.append_nil] at hsame
      exact .inl ⟨rfl, hsame⟩
  | some left =>
      obtain ⟨before, line, after, rfl, hline, hbefore⟩ := List.findSome?_eq_some_iff.1 hfirst
      refine .inr ⟨before, line, left, after, rfl, hbefore, hline, rfl, ?_⟩
      rw [dropStatement_append hbefore, dropStatement, hline]
      cases left with
      | nil =>
          cases after with
          | nil => exact .inl rfl
          | cons next after => exact .inr ⟨rfl, by simp, rfl⟩
      | cons c left => exact .inl rfl

/-- The second edit: no line begins with the word, or the first that does
has the direction set behind it. -/
theorem changeFirst_cases (d : Option Direction) (lines : List Text) :
    (lines.findSome? (fun line => Text.afterKeyword? erWord (trimLeft line)) = none
        ∧ changeFirst (declaration? d) lines = lines)
      ∨ ∃ (before : List Text) (blanks word s : Text) (after : List Text),
        lines = before ++ (blanks ++ (word ++ s)) :: after
          ∧ (∀ c ∈ blanks, isBlank c = true) ∧ word.map foldCase = erWord
          ∧ lines.findSome? (fun line => Text.afterKeyword? erWord (trimLeft line)) = some s
          ∧ changeFirst (declaration? d) lines
            = before ++ (blanks ++ (word ++ (shorthand d ++ afterShorthand s))) :: after := by
  cases hfirst : lines.findSome? (fun line => Text.afterKeyword? erWord (trimLeft line)) with
  | none =>
      have hnone : ∀ line ∈ lines, declaration? d line = none := fun line hline =>
        declaration?_eq_none_iff.2 (List.findSome?_eq_none_iff.1 hfirst line hline)
      have hsame : changeFirst (declaration? d) (lines ++ []) = lines ++ [] :=
        changeFirst_append hnone
      rw [List.append_nil] at hsame
      exact .inl ⟨rfl, hsame⟩
  | some s =>
      obtain ⟨before, line, after, rfl, hline, hbefore⟩ := List.findSome?_eq_some_iff.1 hfirst
      obtain ⟨blanks, word, rfl, hblanks, hword⟩ := exists_of_afterKeyword? hline
      refine .inr ⟨before, blanks, word, s, after, rfl, hblanks, hword, rfl, ?_⟩
      rw [changeFirst_append fun l hl => declaration?_eq_none_iff.2 (hbefore l hl), changeFirst,
        declaration?_eq hline]

/-- A line that begins like a statement does not begin with the word. -/
theorem afterKeyword?_of_afterStatement? {line left : Text}
    (h : afterStatement? line = some left) : Text.afterKeyword? erWord (trimLeft line) = none := by
  cases hkeyword : Text.afterKeyword? erWord (trimLeft line) with
  | none => rfl
  | some s =>
      obtain ⟨hread, -⟩ := Option.filter_eq_some_iff.1 hkeyword
      have hhead := (Er.head_of_afterAnyCase? hread).symm.trans (head_of_afterStatement? h)
      exact absurd hhead (by decide)

/-- The first edit does not matter for the second, if what it leaves of a
line does not begin with the word. -/
theorem findSome?_dropStatement
    (hleft : ∀ left ∈ lines.findSome? afterStatement?,
      Text.afterKeyword? erWord (trimLeft left) = none) :
    (dropStatement lines).findSome? (fun line => Text.afterKeyword? erWord (trimLeft line))
      = lines.findSome? (fun line => Text.afterKeyword? erWord (trimLeft line)) := by
  rcases dropStatement_cases lines with ⟨-, hsame⟩
    | ⟨before, line, left, after, rfl, -, hline, hfirst, hdrop | ⟨-, -, hdrop⟩⟩
  · rw [hsame]
  · rw [hdrop, List.findSome?_append, List.findSome?_append, List.findSome?_cons,
      List.findSome?_cons, hleft left hfirst, afterKeyword?_of_afterStatement? hline]
  · rw [hdrop, List.findSome?_append, List.findSome?_append, List.findSome?_cons,
      afterKeyword?_of_afterStatement? hline]

theorem afterKeyword?_of_blank {line : Text} (h : ∀ c ∈ line, isBlank c = true) :
    Text.afterKeyword? erWord (trimLeft line) = none := by
  have hnil : trimLeft line = [] := by
    have hdrop := Text.dropWhile_append_eq (b := []) h (by simp)
    rwa [List.append_nil] at hdrop
  rw [hnil]
  rfl

end Edits

end FreeLabel.Redirect
