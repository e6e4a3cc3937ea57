/-
When setting the direction leaves the rest of a source as it was.

# What the edits should touch

`DirectionOnly` says what an edit should be: a statement of the direction
is taken out, with blanks left of it at most, and a declaration gets
another direction or none. Then what is left of the lines without the
direction stays (`DirectionOnly.undirected`). `Clean` says when the edits
are of this kind: nothing but blanks comes behind what they change, or the
line with the word happens to stay as it is.

# What the other edits touch

Conversely, the edits of lines that are not clean show in what is left of
them (`Clean.of_undirected`). The first one shortens a line that is no
statement, and the second one changes what follows the word on a line that
is no declaration then or before. Neither makes up for the other: they
exchange one line each, and the lines that they put there begin
differently (`eq_or_eq_of_exchanged`).
-/
import FreeLabel.Proofs.Er.Undirected
import FreeLabel.Proofs.Redirect.Edit

namespace FreeLabel.Redirect

open Er (undirected? undirected undirected_append_cons directionStatement?)
open Text (trim trimLeft trimRight)

-- ============================================================ conditions

/-- The lines that are touched for the direction hold nothing else: only
blanks come behind what is spelled like a statement, and behind the word of
a declaration and its direction, unless the latter stays as it is. -/
structure Clean (d : Option Direction) (lines : List Text) : Prop where
  statement : ∀ left ∈ lines.findSome? afterStatement?, ∀ c ∈ left, isBlank c = true
  declaration : ∀ s ∈ lines.findSome? (fun line => Text.afterKeyword? erWord (trimLeft line)),
    (∀ c ∈ afterShorthand s, isBlank c = true) ∨ shorthand d ++ afterShorthand s = s

/-- Lines without a statement of the direction; of its line nothing stays
or some of the blanks that it ends with. -/
def LosesStatement (lines lines' : List Text) : Prop :=
  lines' = lines ∨ ∃ before line blanks after,
    lines = before ++ line :: after ∧ (directionStatement? (trim line)).isSome = true
      ∧ blanks <:+ line ∧ (∀ c ∈ blanks, isBlank c = true)
      ∧ (lines' = before ++ blanks :: after ∨ lines' = before ++ after)

/-- Lines with another direction behind the word of a declaration, and no
other change. -/
def ChangesShorthand (d : Option Direction) (lines lines' : List Text) : Prop :=
  lines' = lines ∨ ∃ before word given blanks after,
    lines = before ++ (word ++ (given ++ blanks)) :: after
      ∧ lines' = before ++ (word ++ (shorthand d ++ blanks)) :: after
      ∧ (Er.declaration? (trim (word ++ given))).isSome = true
      ∧ Er.declaration? (trim (word ++ shorthand d)) = some d
      ∧ ∀ c ∈ blanks, isBlank c = true

/-- Lines with their direction set, and no other change. -/
def DirectionOnly (d : Option Direction) (lines lines' : List Text) : Prop :=
  ∃ between, LosesStatement lines between ∧ ChangesShorthand d between lines'

-- =========================================================== single lines

section Words

variable {blanks word : Text}

/-- What is left of a line that begins with the word. -/
theorem undirected?_word (hblanks : ∀ c ∈ blanks, isBlank c = true)
    (hword : word.map foldCase = erWord) (s : Text) :
    undirected? (blanks ++ (word ++ s))
      = if (Er.declaration? (trim (blanks ++ (word ++ s)))).isSome then some "erDiagram".toList
        else some (blanks ++ (word ++ s)) := by
  have htrim : trim (blanks ++ (word ++ s)) = word ++ trimRight s :=
    Text.trim_word hblanks (Er.ne_nil_of_fold hword (by decide))
      (isBlank_of_fold hword Er.isBlank_erWord)
  have hwritten : ¬ trim (blanks ++ (word ++ s)) = [] := by
    rw [htrim, List.append_eq_nil_iff]
    exact fun h => Er.ne_nil_of_fold hword (by decide) h.1
  unfold undirected?
  rw [if_neg]
  rw [directionStatement?_word hblanks hword]
  simpa using hwritten

theorem exists_undirected?_word (hblanks : ∀ c ∈ blanks, isBlank c = true)
    (hword : word.map foldCase = erWord) (s : Text) :
    ∃ x, undirected? (blanks ++ (word ++ s)) = some x
      ∧ (trimLeft x).head?.map foldCase = some 'e' := by
  rw [undirected?_word hblanks hword]
  split
  next => exact ⟨_, rfl, by decide⟩
  next =>
    refine ⟨_, rfl, ?_⟩
    cases word with
    | nil => cases hword
    | cons c word =>
        have hblank := isBlank_of_fold hword Er.isBlank_erWord c List.mem_cons_self
        rw [trimLeft, Text.dropWhile_append_eq hblanks (by simpa using hblank)]
        exact congrArg some (List.cons.inj hword).1

/-- Setting the direction behind the word leaves the same exactly if
nothing but blanks follows, or if nothing is changed. -/
theorem undirected?_shorthand_iff (hblanks : ∀ c ∈ blanks, isBlank c = true)
    (hword : word.map foldCase = erWord) (s : Text) (d : Option Direction) :
    undirected? (blanks ++ (word ++ (shorthand d ++ afterShorthand s)))
        = undirected? (blanks ++ (word ++ s))
      ↔ (∀ c ∈ afterShorthand s, isBlank c = true) ∨ shorthand d ++ afterShorthand s = s := by
  constructor
  · intro hleft
    by_cases hrest : ∀ c ∈ afterShorthand s, isBlank c = true
    · exact .inl hrest
    right
    rw [← Text.trimRight_eq_nil_iff] at hrest
    have hbare : Er.declaration? (trim "erDiagram".toList) = some none := by decide
    rw [undirected?_word hblanks hword, undirected?_word hblanks hword] at hleft
    split at hleft
    next hnew =>
      -- behind a direction that is set something follows, so none is set,
      -- and the line had none, for behind it something would follow too
      cases d with
      | some e =>
          rw [declaration?_shorthand hblanks hword, if_neg hrest] at hnew
          cases hnew
      | none =>
          rcases afterShorthand_cases s with hsame | ⟨gap, name, e, hs, hne, hgap, hname⟩
          · exact hsame
          · have hold : Er.declaration? (trim (blanks ++ (word ++ s))) = none := by
              rw [hs, Er.declaration?_spelled hblanks hword hne hgap hname, if_neg hrest]
            rw [hold] at hleft
            have hline := Option.some.inj hleft
            rw [← hline, hbare] at hold
            cases hold
    next hnew =>
      split at hleft
      next hold =>
        rw [Option.some.inj hleft, hbare] at hnew
        exact absurd rfl hnew
      next =>
        have hlines := Option.some.inj hleft
        exact List.append_cancel_left (List.append_cancel_left hlines)
  · rintro (hrest | hsame)
    · rw [undirected?_word hblanks hword, undirected?_word hblanks hword,
        if_pos (isSome_declaration? hblanks hword hrest), if_pos]
      rw [declaration?_shorthand_blanks hblanks hword hrest]
      rfl
    · rw [hsame]

end Words

/-- A line that begins like a statement and is none says all that stands on
it. -/
theorem undirected?_of_afterStatement? {line left : Text} (h : afterStatement? line = some left)
    (hleft : ¬ ∀ c ∈ left, isBlank c = true) : undirected? line = some line := by
  have hstatement : ¬ (directionStatement? (trim line)).isSome = true :=
    fun hsome => hleft ((isSome_directionStatement?_iff h).1 hsome)
  have hdeclaration : ¬ (Er.declaration? (trim line)).isSome = true := by
    intro hsome
    obtain ⟨e, he⟩ := Option.isSome_iff_exists.1 hsome
    have hkeyword := Er.afterKeyword?_of_declaration? he
    rw [afterKeyword?_of_afterStatement? h] at hkeyword
    cases hkeyword
  have hwritten : ¬ trim line = [] := by
    rw [Text.trim_eq_nil_iff]
    intro hblank
    exact hleft fun c hc => hblank c ((left_suffix h).1.subset hc)
  unfold undirected?
  rw [if_neg, if_neg hdeclaration]
  simp [hstatement, hwritten]

/-- What is left of the rest is not the line. -/
theorem ne_of_undirected? {line left y : Text} (h : afterStatement? line = some left)
    (hy : undirected? left = some y) : y ≠ line := by
  rintro rfl
  rcases Er.eq_or_eq_of_undirected? hy with rfl | rfl
  · exact absurd (head_of_afterStatement? h) (by decide)
  · exact absurd (left_suffix h).2 (Nat.lt_irrefl _)

-- ============================================================= the edits

variable {lines : List Text} {d : Option Direction}

theorem losesStatement_dropStatement
    (h : ∀ left ∈ lines.findSome? afterStatement?, ∀ c ∈ left, isBlank c = true) :
    LosesStatement lines (dropStatement lines) := by
  rcases dropStatement_cases lines with ⟨-, hsame⟩
    | ⟨before, line, left, after, hlines, -, hline, hfirst, hdrop⟩
  · exact .inl hsame
  · have hblank := h left hfirst
    refine .inr ⟨before, line, left, after, hlines,
      (isSome_directionStatement?_iff hline).2 hblank, (left_suffix hline).1, hblank, ?_⟩
    rcases hdrop with hdrop | ⟨-, -, hdrop⟩
    · exact .inl hdrop
    · exact .inr hdrop

theorem changesShorthand_changeFirst
    (h : ∀ s ∈ lines.findSome? (fun line => Text.afterKeyword? erWord (trimLeft line)),
      (∀ c ∈ afterShorthand s, isBlank c = true) ∨ shorthand d ++ afterShorthand s = s) :
    ChangesShorthand d lines (changeFirst (declaration? d) lines) := by
  rcases changeFirst_cases d lines with ⟨-, hsame⟩
    | ⟨before, blanks, word, s, after, hlines, hblanks, hword, hfirst, hchange⟩
  · exact .inl hsame
  · rcases h s hfirst with hrest | hsame
    · -- what was given is what stands between the word and the blanks
      obtain ⟨given, hs⟩ : ∃ given, s = given ++ afterShorthand s := by
        rcases afterShorthand_cases s with hsame | ⟨gap, name, e, hs, -, -, -⟩
        · exact ⟨[], hsame.symm⟩
        · exact ⟨gap ++ name, by rw [List.append_assoc]; exact hs⟩
      refine .inr ⟨before, blanks ++ word, given, afterShorthand s, after, ?_, ?_, ?_, ?_, hrest⟩
      · rw [← hs, List.append_assoc]
        exact hlines
      · rw [List.append_assoc]
        exact hchange
      · have hdeclared := isSome_declaration? hblanks hword hrest
        rw [← Text.trim_append_blanks hrest]
        rwa [hs, ← List.append_assoc, ← List.append_assoc] at hdeclared
      · have hdeclared := declaration?_shorthand_blanks hblanks hword
          (fun c hc => absurd hc (List.not_mem_nil (a := c))) d
        rwa [List.append_nil, ← List.append_assoc] at hdeclared
    · refine .inl ?_
      rw [hchange, hsame, ← hlines]

/-- The edits of clean lines touch nothing but the direction. -/
theorem Clean.directionOnly (h : Clean d lines) :
    DirectionOnly d lines (changeFirst (declaration? d) (dropStatement lines)) := by
  refine ⟨dropStatement lines, losesStatement_dropStatement h.statement,
    changesShorthand_changeFirst ?_⟩
  rw [findSome?_dropStatement fun left hleft => afterKeyword?_of_blank (h.statement left hleft)]
  exact h.declaration

theorem LosesStatement.undirected {lines' : List Text} (h : LosesStatement lines lines') :
    undirected lines' = undirected lines := by
  rcases h with rfl | ⟨before, line, blanks, after, rfl, hline, -, hblanks, rfl | rfl⟩
  · rfl
  · rw [undirected_append_cons, undirected_append_cons,
      Er.undirected?_of_directionStatement? hline, Er.undirected?_of_blank hblanks]
  · rw [undirected_append_cons, Er.undirected?_of_directionStatement? hline]
    exact List.filterMap_append

theorem ChangesShorthand.undirected {lines' : List Text} (h : ChangesShorthand d lines lines') :
    undirected lines' = undirected lines := by
  rcases h with rfl | ⟨before, word, given, blanks, after, rfl, rfl, hold, hnew, hblanks⟩
  · rfl
  · have hold' : (Er.declaration? (trim (word ++ (given ++ blanks)))).isSome = true := by
      rwa [← List.append_assoc, Text.trim_append_blanks hblanks]
    have hnew' : (Er.declaration? (trim (word ++ (shorthand d ++ blanks)))).isSome = true := by
      rw [← List.append_assoc, Text.trim_append_blanks hblanks, hnew]
      rfl
    rw [undirected_append_cons, undirected_append_cons,
      Er.undirected?_of_declaration? hold', Er.undirected?_of_declaration? hnew']

/-- Without the direction the lines are the same before and after. -/
theorem DirectionOnly.undirected {lines' : List Text} (h : DirectionOnly d lines lines') :
    undirected lines' = undirected lines := by
  obtain ⟨between, hloses, hchanges⟩ := h
  exact hchanges.undirected.trans hloses.undirected

/-- Where a list with one member exchanged is the same as with another one
exchanged, the first of the two is the old member there or the other new
one. -/
theorem eq_or_eq_of_exchanged {A B C D : List α} {old old' new new' : α}
    (h : A ++ old :: B = C ++ old' :: D) (h' : A ++ new :: B = C ++ new' :: D) :
    new = old ∨ new = new' := by
  have hat : ∀ (C D : List α) (x x' : α) (i : Nat), i ≠ C.length →
      (C ++ x :: D)[i]? = (C ++ x' :: D)[i]? := by
    intro C D x x' i hi
    rw [List.getElem?_append, List.getElem?_append]
    split
    next => rfl
    next hle =>
      obtain ⟨k, hk⟩ : ∃ k, i - C.length = k + 1 := ⟨i - C.length - 1, by omega⟩
      rw [hk, List.getElem?_cons_succ, List.getElem?_cons_succ]
  by_cases hlength : A.length = C.length
  · obtain ⟨-, hcons⟩ := List.append_inj h' hlength
    exact .inr (List.cons.inj hcons).1
  · left
    have hold := congrArg (fun l : List α => l[A.length]?) h
    have hnew := congrArg (fun l : List α => l[A.length]?) h'
    have hkept := hat C D old' new' A.length hlength
    simp only [List.getElem?_append_right (Nat.le_refl _), Nat.sub_self,
      List.getElem?_cons_zero] at hold hnew
    rw [← hkept, ← hold] at hnew
    exact Option.some.inj hnew

/-- Something else in the line of a statement is not made up for. -/
theorem blank_of_undirected
    (h : undirected (changeFirst (declaration? d) (dropStatement lines)) = undirected lines) :
    ∀ left ∈ lines.findSome? afterStatement?, ∀ c ∈ left, isBlank c = true := by
  rcases dropStatement_cases lines with ⟨hnone, -⟩
    | ⟨before, line, left, after, hlines, -, hline, hfirst, hdrop⟩
  · rw [hnone]
    exact nofun
  rw [hfirst]
  rintro left' ⟨⟩
  by_cases hblank : ∀ c ∈ left, isBlank c = true
  · exact hblank
  exfalso
  have hstays : dropStatement lines = before ++ left :: after := by
    rcases hdrop with hdrop | ⟨rfl, -, -⟩
    · exact hdrop
    · exact absurd (fun c hc => absurd hc (List.not_mem_nil (a := c))) hblank
  have hwhole : undirected lines = undirected before ++ line :: undirected after := by
    rw [hlines, undirected_append_cons, undirected?_of_afterStatement? hline hblank]
    rfl
  have hcut : undirected (dropStatement lines)
      = undirected before ++ ((undirected? left).toList ++ undirected after) := by
    rw [hstays, undirected_append_cons]
  rcases changeFirst_cases d (dropStatement lines) with ⟨-, hsame⟩
    | ⟨before', blanks, word, s, after', hlines', hblanks, hword, -, hchange⟩
  · -- the line is shorter and nothing else is changed
    rw [hsame, hcut, hwhole] at h
    have hleft := List.append_cancel_left h
    cases hundirected : undirected? left with
    | none =>
        rw [hundirected] at hleft
        exact absurd (congrArg List.length hleft) (by simp)
    | some y =>
        rw [hundirected] at hleft
        exact ne_of_undirected? hline hundirected (List.cons.inj hleft).1
  · obtain ⟨x, hx, -⟩ := exists_undirected?_word hblanks hword s
    obtain ⟨x', hx', hhead⟩ :=
      exists_undirected?_word hblanks hword (shorthand d ++ afterShorthand s)
    rw [hlines', undirected_append_cons, hx] at hcut
    rw [hchange, undirected_append_cons, hx', hwhole] at h
    cases hundirected : undirected? left with
    | none =>
        -- a line is missing
        rw [hundirected] at hcut
        have hlength := congrArg List.length hcut
        have hlength' := congrArg List.length h
        simp at hlength hlength'
        omega
    | some y =>
        rw [hundirected] at hcut
        rcases eq_or_eq_of_exchanged hcut.symm h.symm with heq | heq
        · exact ne_of_undirected? hline hundirected heq.symm
        · rw [← heq, head_of_afterStatement? hline] at hhead
          exact absurd hhead (by decide)

/-- Where the lines without the direction stay the same, they were clean. -/
theorem Clean.of_undirected
    (h : undirected (changeFirst (declaration? d) (dropStatement lines)) = undirected lines) :
    Clean d lines := by
  have hstatement := blank_of_undirected h
  have hfind : (dropStatement lines).findSome?
      (fun line => Text.afterKeyword? erWord (trimLeft line))
        = lines.findSome? (fun line => Text.afterKeyword? erWord (trimLeft line)) :=
    findSome?_dropStatement fun left hleft => afterKeyword?_of_blank (hstatement left hleft)
  refine ⟨hstatement, ?_⟩
  rw [← (losesStatement_dropStatement hstatement).undirected] at h
  rw [← hfind]
  rcases changeFirst_cases d (dropStatement lines) with ⟨hnone, -⟩
    | ⟨before, blanks, word, s, after, hlines, hblanks, hword, hfirst, hchange⟩
  · rw [hnone]
    exact nofun
  · rw [hfirst]
    rintro s' ⟨⟩
    obtain ⟨x, hx, -⟩ := exists_undirected?_word hblanks hword s
    obtain ⟨x', hx', -⟩ := exists_undirected?_word hblanks hword (shorthand d ++ afterShorthand s)
    rw [hchange, undirected_append_cons, hlines, undirected_append_cons, hx, hx'] at h
    obtain ⟨rfl, -⟩ := List.cons.inj (List.append_cancel_left h)
    exact (undirected?_shorthand_iff hblanks hword s d).1 (hx'.trans hx.symm)

end FreeLabel.Redirect
