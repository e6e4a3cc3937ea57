/-
Setting the direction of a flowchart, again and again.

# The same header

The header is the first line that begins with its word and a direction.
Which line that is does not depend on the direction to be set, and the line
that is written in its place begins with the same word and has a direction,
too (`header?_eq_none`, `header?_header?`). So what is set next is set in the
same line, in the place of what was set before (`changeFirst_changeFirst`).

# Still a flowchart

A header holds no letter that the word of the other kind of diagram begins
with, until its direction is read. Behind that the line stays as it is, and
since a direction ends with a letter, no word begins there that did not
begin there before (`hasKeyword_of_header?`). So what was a flowchart stays
one (`mode_redirect`).
-/
import FreeLabel.Proofs.Redirect.Diagram

namespace FreeLabel

open Redirect (header? changeFirst shorthand)
open Text (trimLeft)

namespace Text

-- ================================================================ reading

variable {word s : Text} {w : Char}

theorem afterGap?_append {a : Text} (hne : a ≠ []) (ha : ∀ c ∈ a, isGap c = true)
    (hs : ∀ c ∈ s.head?, isGap c = false) : afterGap? (a ++ s) = some s := by
  cases a with
  | nil => exact absurd rfl hne
  | cons c a =>
      rw [List.cons_append, afterGap?, if_pos (ha c List.mem_cons_self), skipGap,
        dropWhile_append_eq (fun d hd => ha d (List.mem_cons_of_mem c hd)) hs]

/-- No word begins where a character is read as no first letter of it. -/
theorem hasKeyword_append_left {a : Text} (ha : ∀ c ∈ a, foldCase c ≠ w) (inWord : Bool) :
    hasKeyword (w :: word) (a ++ s) inWord
      = hasKeyword (w :: word) s ((a.getLast?.map isWordChar).getD inWord) := by
  induction a generalizing inWord with
  | nil => rfl
  | cons c a ih =>
      have hnone : afterKeyword? (w :: word) (c :: (a ++ s)) = none := by
        rw [afterKeyword?, afterAnyCase?, if_neg (ha c List.mem_cons_self)]
        rfl
      rw [List.cons_append, hasKeyword, hnone, Option.isSome_none, Bool.and_false, Bool.false_or,
        ih fun d hd => ha d (List.mem_cons_of_mem c hd), List.getLast?_cons]
      cases a.getLast? <;> rfl

/-- A word that begins behind a word character is one anywhere. -/
theorem hasKeyword_of_inWord (h : hasKeyword word s true = true) (inWord : Bool) :
    hasKeyword word s inWord = true := by
  cases s with
  | nil => cases h
  | cons c s =>
      rw [hasKeyword, Bool.not_true, Bool.false_and, Bool.false_or] at h
      rw [hasKeyword, h, Bool.or_true]

end Text

namespace Redirect

-- ================================================================ headers

/-- The word of the other kind of diagram, with its first letter apart. -/
theorem erWord_eq : erWord = 'e' :: "rdiagram".toList := rfl

variable {line changed blanks word gap name rest : Text} {d e : Direction}

theorem ne_nil_of_mem_headerWords (h : word ∈ Flow.headerWords) : word ≠ [] := by
  simp only [Flow.headerWords, List.mem_cons, List.not_mem_nil, or_false] at h
  rcases h with rfl | rfl <;> exact List.cons_ne_nil _ _

theorem isBlank_of_mem_headerWords (h : word ∈ Flow.headerWords) :
    ∀ c ∈ word, isBlank c = false := by
  simp only [Flow.headerWords, List.mem_cons, List.not_mem_nil, or_false] at h
  rcases h with rfl | rfl <;> exact Text.forall_mem_of_all (by decide)

theorem e_not_mem_headerWords (h : word ∈ Flow.headerWords) : ∀ c ∈ word, c ≠ 'e' := by
  simp only [Flow.headerWords, List.mem_cons, List.not_mem_nil, or_false] at h
  rcases h with rfl | rfl <;> exact Text.forall_mem_of_all (by decide)

theorem e_not_mem_smallName (d : Direction) : ∀ c ∈ d.smallName, c ≠ 'e' := by
  cases d <;> exact Text.forall_mem_of_all (by decide)

/-- A header in its parts, before and after its direction is set. -/
theorem exists_of_header? (h : header? d line = some changed) :
    ∃ (blanks word gap name rest : Text) (e : Direction),
      line = blanks ++ (word ++ (gap ++ (name ++ rest)))
        ∧ changed = blanks ++ (word ++ (shorthand (some d) ++ rest))
        ∧ (∀ c ∈ blanks, isBlank c = true) ∧ word.map foldCase ∈ Flow.headerWords
        ∧ gap ≠ [] ∧ (∀ c ∈ gap, Text.isGap c = true) ∧ name.map foldCase = e.smallName := by
  obtain ⟨header, hheader, h⟩ := List.exists_of_findSome?_eq_some h
  obtain ⟨s, hword, h⟩ := Option.bind_eq_some_iff.1 h
  obtain ⟨behind, hgap, h⟩ := Option.bind_eq_some_iff.1 h
  obtain ⟨⟨e, rest⟩, hname, h⟩ := Option.bind_eq_some_iff.1 h
  cases h
  obtain ⟨word, hsplit, rfl⟩ := Text.afterAnyCase?_eq_some_iff.1 hword
  obtain ⟨gap, hne, hgaps, rfl⟩ := Text.exists_of_afterGap? hgap
  obtain ⟨name, rfl, hfold⟩ := Direction.read?_eq_some_iff.1 hname
  have hline : line = Text.indent line ++ (word ++ (gap ++ (name ++ rest))) := by
    rw [← hsplit, Text.indent_append]
  have hupTo : upTo (gap ++ (name ++ rest)) line = Text.indent line ++ word := by
    conv => lhs; rw [hline, ← List.append_assoc (Text.indent line) word]
    exact upTo_append _ _
  refine ⟨Text.indent line, word, gap, name, rest, e, hline, ?_, Text.isBlank_of_mem_indent line,
    hheader, hne, hgaps, hfold⟩
  rw [hupTo, List.append_assoc, List.append_assoc]

/-- A line in these parts is a header, whatever direction is to be set. -/
theorem header?_spelled (hblanks : ∀ c ∈ blanks, isBlank c = true)
    (hword : word.map foldCase ∈ Flow.headerWords) (hne : gap ≠ [])
    (hgap : ∀ c ∈ gap, Text.isGap c = true) (hname : name.map foldCase = e.smallName)
    (d : Direction) :
    header? d (blanks ++ (word ++ (gap ++ (name ++ rest))))
      = some (blanks ++ (word ++ (shorthand (some d) ++ rest))) := by
  have hread : Direction.read? (name ++ rest) = some (e, rest) :=
    Direction.read?_eq_some_iff.2 ⟨name, rfl, hname⟩
  have hgapped : Text.afterGap? (gap ++ (name ++ rest)) = some (name ++ rest) := by
    refine Text.afterGap?_append hne hgap ?_
    cases name with
    | nil => cases e <;> cases hname
    | cons c name =>
        have hblank := isBlank_of_fold hname e.isBlank_smallName c List.mem_cons_self
        rintro _ ⟨⟩
        rw [← Bool.not_eq_true]
        intro hc
        rw [isBlank_of_isGap hc] at hblank
        cases hblank
  have hupTo : upTo (gap ++ (name ++ rest)) (blanks ++ (word ++ (gap ++ (name ++ rest))))
      = blanks ++ word := by
    rw [← List.append_assoc blanks word]
    exact upTo_append _ _
  have htrim : trimLeft (blanks ++ (word ++ (gap ++ (name ++ rest))))
      = word ++ (gap ++ (name ++ rest)) := by
    refine Text.dropWhile_append_eq hblanks ?_
    cases word with
    | nil => exact absurd rfl (ne_nil_of_mem_headerWords hword)
    | cons c word =>
        simpa using isBlank_of_fold rfl (isBlank_of_mem_headerWords hword) c List.mem_cons_self
  have hfound : Text.afterAnyCase? (word.map foldCase) (word ++ (gap ++ (name ++ rest)))
      = some (gap ++ (name ++ rest)) := Text.afterAnyCase?_append rfl _
  unfold header?
  rw [htrim]
  obtain hflowchart | hgraph : word.map foldCase = "flowchart".toList
      ∨ word.map foldCase = "graph".toList := by simpa [Flow.headerWords] using hword
  · rw [hflowchart] at hfound
    simp only [Flow.headerWords, List.findSome?_cons, hfound, hgapped, hread, hupTo,
      Option.bind_eq_bind, Option.bind_some]
    simp
  · have hother : Text.afterAnyCase? "flowchart".toList (word ++ (gap ++ (name ++ rest)))
        = none := by
      cases word with
      | nil => cases hgraph
      | cons c word =>
          have hc : foldCase c = 'g' := (List.cons.inj hgraph).1
          exact if_neg (by rw [hc]; decide)
    rw [hgraph] at hfound
    simp only [Flow.headerWords, List.findSome?_cons, hfound, hother, hgapped, hread, hupTo,
      Option.bind_eq_bind, Option.bind_some, Option.bind_none]
    simp

/-- Which lines are headers does not depend on the direction. -/
theorem header?_eq_none (h : header? d line = none) (e : Direction) : header? e line = none := by
  cases hother : header? e line with
  | none => rfl
  | some changed =>
      obtain ⟨blanks, word, gap, name, rest, e', rfl, -, hblanks, hword, hne, hgap, hname⟩ :=
        exists_of_header? hother
      rw [header?_spelled hblanks hword hne hgap hname] at h
      cases h

/-- A direction that has been set is found again, and the next one takes its
place. -/
theorem header?_header? (h : header? d line = some changed) (e : Direction) :
    ∃ line', header? e line = some line' ∧ header? e changed = some line' := by
  obtain ⟨blanks, word, gap, name, rest, e', rfl, rfl, hblanks, hword, hne, hgap, hname⟩ :=
    exists_of_header? h
  refine ⟨_, header?_spelled hblanks hword hne hgap hname e, ?_⟩
  have hspace : ∀ c ∈ [' '], Text.isGap c = true := List.forall_mem_singleton.2 rfl
  exact header?_spelled hblanks hword (List.cons_ne_nil _ _) hspace d.map_foldCase_name e

theorem newline_not_mem_header? (h : header? d line = some changed) (hline : '\n' ∉ line) :
    '\n' ∉ changed := by
  obtain ⟨blanks, word, gap, name, rest, e, rfl, rfl, -⟩ := exists_of_header? h
  simp only [List.mem_append, not_or] at hline ⊢
  exact ⟨hline.1, hline.2.1, newline_not_mem_shorthand (some d), hline.2.2.2.2⟩

/-- No word that makes another kind of diagram comes about when the
direction is set. -/
theorem hasKeyword_of_header? (h : header? d line = some changed)
    (hkeyword : Text.hasKeyword erWord changed false = true) :
    Text.hasKeyword erWord line false = true := by
  obtain ⟨blanks, word, gap, name, rest, e, rfl, rfl, hblanks, hword, -, hgap, hname⟩ :=
    exists_of_header? h
  have hblank : ∀ c, isBlank c = true → foldCase c ≠ 'e' := by
    intro c hc
    rw [foldCase_of_isBlank hc]
    rintro rfl
    exact absurd hc (by decide)
  have hfold : ∀ {read w : Text}, read.map foldCase = w → (∀ c ∈ w, c ≠ 'e') →
      ∀ c ∈ read, foldCase c ≠ 'e' := by
    rintro read w rfl hw c hc
    exact hw _ (List.mem_map_of_mem hc)
  have hold : ∀ c ∈ blanks ++ (word ++ (gap ++ name)), foldCase c ≠ 'e' := by
    simp only [List.forall_mem_append]
    exact ⟨fun c hc => hblank c (hblanks c hc), hfold rfl (e_not_mem_headerWords hword),
      fun c hc => hblank c (isBlank_of_isGap (hgap c hc)), hfold hname (e_not_mem_smallName e)⟩
  have hnew : ∀ c ∈ blanks ++ (word ++ shorthand (some d)), foldCase c ≠ 'e' := by
    simp only [List.forall_mem_append]
    exact ⟨fun c hc => hblank c (hblanks c hc), hfold rfl (e_not_mem_headerWords hword),
      List.forall_mem_cons.2 ⟨by decide, hfold d.map_foldCase_name (e_not_mem_smallName d)⟩⟩
  -- the name that was set ends with a letter
  have hletter : ((blanks ++ (word ++ shorthand (some d))).getLast?.map isWordChar).getD false
      = true := by
    rw [List.getLast?_append, List.getLast?_append]
    cases d <;> rfl
  have hassoc : blanks ++ (word ++ (shorthand (some d) ++ rest))
      = (blanks ++ (word ++ shorthand (some d))) ++ rest := by simp
  have hassoc' : blanks ++ (word ++ (gap ++ (name ++ rest)))
      = (blanks ++ (word ++ (gap ++ name))) ++ rest := by simp
  rw [hassoc, erWord_eq, Text.hasKeyword_append_left hnew, hletter] at hkeyword
  rw [hassoc', erWord_eq, Text.hasKeyword_append_left hold]
  exact Text.hasKeyword_of_inWord hkeyword _

-- ================================================================== edits

variable {lines : List Text}

/-- The second of two edits wins, if both are of the same line and the first
one is overwritten. -/
theorem changeFirst_changeFirst {first? second? : Text → Option Text}
    (hnone : ∀ line, first? line = none → second? line = none)
    (hsome : ∀ line changed, first? line = some changed →
      ∃ line', second? line = some line' ∧ second? changed = some line') :
    changeFirst second? (changeFirst first? lines) = changeFirst second? lines := by
  induction lines with
  | nil => rfl
  | cons line rest ih =>
      cases hfirst : first? line with
      | none => simp only [changeFirst, hfirst, hnone line hfirst, ih]
      | some changed =>
          obtain ⟨line', hline, hchanged⟩ := hsome line changed hfirst
          simp only [changeFirst, hfirst, hline, hchanged]

end Redirect

-- =============================================================== sources

variable {source : Text} {d : Direction}

theorem lines_redirect_flowchart (hmode : Mode.ofSource source = .flowchart) (d : Direction) :
    Text.lines (redirect source (some d)) = changeFirst (header? d) (Text.lines source) := by
  rw [redirect_flowchart hmode]
  refine Text.lines_joinLines (Redirect.changeFirst_ne_nil (List.splitOn_ne_nil _ _)) ?_
  exact Redirect.newline_not_mem_changeFirst (fun _ _ => Redirect.newline_not_mem_header?)
    fun _ => Text.newline_not_mem_of_mem_lines

/-- A flowchart stays one. -/
theorem mode_redirect (hmode : Mode.ofSource source = .flowchart) (d : Direction) :
    Mode.ofSource (redirect source (some d)) = .flowchart := by
  cases hother : Mode.ofSource (redirect source (some d)) with
  | flowchart => rfl
  | er =>
      obtain ⟨line, hline, hkeyword⟩ := mode_eq_er_iff.1 hother
      rw [lines_redirect_flowchart hmode] at hline
      have her : Mode.ofSource source = .er := by
        rcases Redirect.mem_changeFirst hline with hline | ⟨old, hold, hchanged⟩
        · exact mode_eq_er_iff.2 ⟨line, hline, hkeyword⟩
        · exact mode_eq_er_iff.2 ⟨old, hold, Redirect.hasKeyword_of_header? hchanged hkeyword⟩
      rw [hmode] at her
      cases her

/-- The direction that is set last is the direction of a flowchart, whatever
was set before. So setting one twice is setting it once. If the layout is
to be automatic, the source stays as it is. -/
theorem redirect_last_wins {source : Text} (h : Text.hasKeyword erWord source false = false) :
    (∀ (d : Option Direction) (e : Direction),
        redirect (redirect source d) (some e) = redirect source (some e))
      ∧ (∀ d, redirect (redirect source d) d = redirect source d)
      ∧ redirect source none = source := by
  have hmode : Mode.ofSource source = .flowchart := by
    unfold Mode.ofSource
    rw [h]
    rfl
  have hautomatic := redirect_automatic hmode
  have hlast : ∀ (d : Option Direction) (e : Direction),
      redirect (redirect source d) (some e) = redirect source (some e) := by
    intro d e
    cases d with
    | none => rw [hautomatic]
    | some d =>
        rw [redirect_flowchart (mode_redirect hmode d), lines_redirect_flowchart hmode,
          redirect_flowchart hmode, Redirect.changeFirst_changeFirst]
        · exact fun _ hnone => Redirect.header?_eq_none hnone e
        · exact fun _ _ hsome => Redirect.header?_header? hsome e
  refine ⟨hlast, ?_, hautomatic⟩
  intro d
  cases d with
  | none => rw [hautomatic, hautomatic]
  | some d => exact hlast (some d) d

/-- Of two lines that begin like a header the first is set both times,
behind a blank line and though its direction goes on. -/
theorem redirect_last_wins_of_two :
    Text.hasKeyword erWord "%% erDiagrams\n \n\t graph  tbx\nflowchart rl".toList false = false
      ∧ redirect (redirect "%% erDiagrams\n \n\t graph  tbx\nflowchart rl".toList (some .td))
          (some .lr)
        = "%% erDiagrams\n \n\t graph LRx\nflowchart rl".toList := by
  have hkeyword : Text.hasKeyword erWord
      "%% erDiagrams\n \n\t graph  tbx\nflowchart rl".toList false = false := by decide +kernel
  refine ⟨hkeyword, ((redirect_last_wins hkeyword).1 (some .td) .lr).trans ?_⟩
  decide +kernel

end FreeLabel
