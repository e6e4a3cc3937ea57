/-
Texts taken line by line. What is read within lines can be read line by
line: the lines of joined texts are those of each of them, and a word that
holds no line feed stands in a text exactly if it stands in one of its
lines.

Lines are compared here by what is written on them, so that a blank line
more or less makes no difference (`writtenLines`).
-/
import FreeLabel.Compile
import FreeLabel.Proofs.Text.Chars
import FreeLabel.Proofs.Text.Span
import Mathlib.Data.List.Forall2

namespace FreeLabel

namespace Text

-- ================================================================ blanks

variable {s : Text}

/-- A text is blank if nothing is left of it when it is trimmed. -/
theorem trim_eq_nil_iff : trim s = [] ↔ ∀ c ∈ s, isBlank c = true := by
  constructor
  · intro h
    obtain ⟨a, b, ha, hb, -, hs⟩ := exists_trim s
    rw [h, List.nil_append] at hs
    rw [hs]
    exact fun c hc => (List.mem_append.1 hc).elim (ha c) (hb c)
  · intro h
    have htrim := trim_append (s := []) h (b := []) (by simp) rfl
    simpa using htrim

/-- Blanks at the end do not count. -/
theorem trim_append_blanks {b : Text} (hb : ∀ c ∈ b, isBlank c = true) :
    trim (s ++ b) = trim s := by
  obtain ⟨a, e, ha, he, htrim, hs⟩ := exists_trim s
  have h := trim_append (b := e ++ b) ha
    (fun c hc => (List.mem_append.1 hc).elim (he c) (hb c)) htrim
  rw [← h]
  congr 1
  conv => lhs; rw [hs]
  simp

theorem isBlank_of_mem_indent (s : Text) : ∀ c ∈ indent s, isBlank c = true :=
  List.all_eq_true.1 List.all_takeWhile

theorem newline_not_mem_indent (hs : '\n' ∉ s) : '\n' ∉ indent s :=
  fun hmem => hs ((List.takeWhile_prefix _).subset hmem)

/-- What comes behind a line that is not blank does not change its
indent. -/
theorem indent_append_of_trim (hs : trim s ≠ []) (t : Text) : indent (s ++ t) = indent s := by
  have hne : trimLeft s ≠ [] := by
    intro hnil
    refine hs ?_
    rw [trim, hnil]
    rfl
  conv => lhs; rw [← indent_append s, List.append_assoc]
  refine takeWhile_append_eq (isBlank_of_mem_indent s) ?_
  rw [List.head?_append_of_ne_nil _ hne]
  exact isBlank_head_trimLeft s

-- ================================================================= lines

theorem lines_append_newline (s t : Text) : lines (s ++ '\n' :: t) = lines s ++ lines t :=
  List.splitOn_append_cons_self s t

theorem joinLines_cons_cons (line next : Text) (rest : List Text) :
    joinLines (line :: next :: rest) = line ++ '\n' :: joinLines (next :: rest) := by
  unfold joinLines
  rw [List.intercalate_cons_cons]
  simp

theorem mem_joinLines {ls : List Text} {line : Text} (hline : line ∈ ls) {c : Char}
    (hc : c ∈ line) : c ∈ joinLines ls := by
  induction ls with
  | nil => cases hline
  | cons first rest ih =>
      cases rest with
      | nil =>
          obtain rfl := List.mem_singleton.1 hline
          rwa [joinLines, List.intercalate_singleton]
      | cons next rest =>
          rw [joinLines_cons_cons]
          rcases List.mem_cons.1 hline with rfl | hline
          · exact List.mem_append_left _ hc
          · exact List.mem_append_right _ (List.mem_cons_of_mem _ (ih hline))

/-- Lines come back from their text. -/
theorem lines_joinLines {ls : List Text} (hne : ls ≠ []) (hls : ∀ line ∈ ls, '\n' ∉ line) :
    lines (joinLines ls) = ls :=
  List.splitOn_intercalate _ hls hne

theorem lines_eq_singleton (hs : '\n' ∉ s) : lines s = [s] := by
  have h := lines_joinLines (List.cons_ne_nil s []) (by simpa using hs)
  rwa [joinLines, List.intercalate_singleton] at h

/-- What has no line feed goes before the first line. -/
theorem lines_append {w first : Text} {more : List Text} (hw : '\n' ∉ w)
    (hs : lines s = first :: more) : lines (w ++ s) = (w ++ first) :: more := by
  have hfree : ∀ line ∈ first :: more, '\n' ∉ line :=
    fun _ hline => newline_not_mem_of_mem_lines (hs ▸ hline)
  have htext : w ++ s = joinLines ((w ++ first) :: more) := by
    conv => lhs; rw [← joinLines_lines s, hs]
    cases more with
    | nil => simp [joinLines]
    | cons next rest => simp [joinLines_cons_cons]
  rw [htext]
  refine lines_joinLines (List.cons_ne_nil _ _) fun line hline => ?_
  rcases List.mem_cons.1 hline with rfl | hline
  · exact fun hmem => (List.mem_append.1 hmem).elim hw (hfree first List.mem_cons_self)
  · exact hfree line (List.mem_cons_of_mem _ hline)

/-- A text begins as its first line does. -/
theorem mem_head?_of_lines {first : Text} {more : List Text} (hs : lines s = first :: more)
    {c : Char} (hc : c ∈ first.head?) : c ∈ s.head? := by
  rw [← joinLines_lines s, hs]
  cases more with
  | nil => simpa [joinLines] using hc
  | cons next more =>
      rw [joinLines_cons_cons]
      exact List.mem_head?_append_of_mem_head? hc

theorem map_snd_numberedLines (s : Text) : (numberedLines s).map Prod.snd = lines s := by
  unfold numberedLines
  rw [List.map_map]
  exact List.zipIdx_map_fst 1 _

theorem mem_lines_of_mem_numberedLines {p : Nat × Text} (hp : p ∈ numberedLines s) :
    p.2 ∈ lines s :=
  map_snd_numberedLines s ▸ List.mem_map_of_mem hp

/-- Lines are numbered alike. -/
theorem forall₂_numberedLines {R : Text → Text → Prop} {t : Text}
    (h : List.Forall₂ R (lines s) (lines t)) :
    List.Forall₂ (fun line line' => line'.1 = line.1 ∧ R line.2 line'.2) (numberedLines s)
      (numberedLines t) := by
  unfold numberedLines
  rw [List.forall₂_map_left_iff, List.forall₂_map_right_iff]
  generalize 1 = n, lines s = ls, lines t = ls' at h
  induction h generalizing n with
  | nil => exact .nil
  | cons hline _ ih => exact .cons ⟨rfl, hline⟩ (ih (n + 1))

/-- The lines of a text on which something is written. -/
def writtenLines (s : Text) : List Text := (lines s).filter fun line => !(trim line).isEmpty

theorem writtenLines_eq_nil (hs : trim s = []) : writtenLines s = [] := by
  rw [writtenLines, List.filter_eq_nil_iff]
  intro line hline
  have hblank : trim line = [] := by
    rw [trim_eq_nil_iff] at hs ⊢
    intro c hc
    refine hs c ?_
    rw [← joinLines_lines s]
    exact mem_joinLines hline hc
  simp [hblank]

/-- What is written in joined texts is what is written in each. -/
theorem writtenLines_joinLines (ls : List Text) :
    writtenLines (joinLines ls) = ls.flatMap writtenLines := by
  induction ls with
  | nil => rfl
  | cons line rest ih =>
      cases rest with
      | nil => simp [joinLines]
      | cons next rest =>
          rw [joinLines_cons_cons, writtenLines, lines_append_newline, List.filter_append,
            List.flatMap_cons, ← ih]
          rfl

-- =============================================================== keywords

variable {word : Text}

/-- A word without a blank is read before one as at the end of a text. -/
theorem afterAnyCase?_append_blank {b : Char} (hb : isBlank b = true) (hword : b ∉ word)
    (s t : Text) :
    afterAnyCase? word (s ++ b :: t) = (afterAnyCase? word s).map (· ++ b :: t) := by
  have hfold : foldCase b = b := foldCase_of_isBlank hb
  induction word generalizing s with
  | nil => simp [afterAnyCase?]
  | cons w word ih =>
      obtain ⟨hw, hrest⟩ : b ≠ w ∧ b ∉ word := by simpa using hword
      cases s with
      | nil => rw [List.nil_append, afterAnyCase?, afterAnyCase?, hfold, if_neg hw, Option.map_none]
      | cons c s =>
          rw [List.cons_append, afterAnyCase?, afterAnyCase?]
          split
          next => exact ih hrest s
          next => rfl

theorem isSome_afterKeyword?_append_blank {b : Char} (hb : isBlank b = true) (hword : b ∉ word)
    (s t : Text) :
    (afterKeyword? word (s ++ b :: t)).isSome = (afterKeyword? word s).isSome := by
  have hend : ∀ rest : Text, atWordEnd (rest ++ b :: t) = atWordEnd rest := by
    intro rest
    cases rest with
    | nil =>
        show (!isWordChar b) = true
        rw [isWordChar_of_isBlank hb]
        rfl
    | cons c rest => rfl
  unfold afterKeyword?
  rw [afterAnyCase?_append_blank hb hword]
  cases afterAnyCase? word s with
  | none => rfl
  | some rest =>
      rw [Option.map_some, Option.filter_some, Option.filter_some, hend]
      split <;> rfl

/-- A word without a blank stands before the blank or behind it. -/
theorem hasKeyword_append_blank {b : Char} (hb : isBlank b = true) (hne : word ≠ [])
    (hword : b ∉ word) (s t : Text) (inWord : Bool) :
    hasKeyword word (s ++ b :: t) inWord
      = (hasKeyword word s inWord || hasKeyword word t false) := by
  induction s generalizing inWord with
  | nil =>
      have hnone : (afterKeyword? word (b :: t)).isSome = false := by
        have hempty := isSome_afterKeyword?_append_blank hb hword [] t
        rw [List.nil_append] at hempty
        rw [hempty]
        cases word with
        | nil => exact absurd rfl hne
        | cons w word => rfl
      rw [List.nil_append, hasKeyword.eq_def]
      simp only [hnone, isWordChar_of_isBlank hb, Bool.and_false]
      rfl
  | cons c s ih =>
      have hsame := isSome_afterKeyword?_append_blank hb hword (c :: s) t
      rw [List.cons_append] at hsame ⊢
      rw [hasKeyword, hasKeyword, hsame, ih, Bool.or_assoc]

/-- A word stands in a text if it stands in one of its lines. -/
theorem hasKeyword_joinLines (hne : word ≠ []) (hword : '\n' ∉ word) (ls : List Text) :
    hasKeyword word (joinLines ls) false = ls.any fun line => hasKeyword word line false := by
  induction ls with
  | nil => rfl
  | cons line rest ih =>
      cases rest with
      | nil => simp [joinLines]
      | cons next rest =>
          rw [joinLines_cons_cons, hasKeyword_append_blank (by decide) hne hword, ih]
          rfl

/-- A text in which a word stands holds each of its letters. -/
theorem exists_mem_of_hasKeyword {inWord : Bool} (h : hasKeyword word s inWord = true) {w : Char}
    (hw : w ∈ word) : ∃ c ∈ s, foldCase c = w := by
  induction s generalizing inWord with
  | nil => cases h
  | cons c s ih =>
      rw [hasKeyword, Bool.or_eq_true] at h
      rcases h with h | h
      · obtain ⟨-, hkeyword⟩ := Bool.and_eq_true_iff.1 h
        obtain ⟨rest, hrest⟩ := Option.isSome_iff_exists.1 hkeyword
        obtain ⟨hread, -⟩ := Option.filter_eq_some_iff.1 hrest
        obtain ⟨read, hsplit, rfl⟩ := afterAnyCase?_eq_some_iff.1 hread
        obtain ⟨d, hd, rfl⟩ := List.mem_map.1 hw
        exact ⟨d, hsplit ▸ List.mem_append_left rest hd, rfl⟩
      · obtain ⟨d, hd, hfold⟩ := ih h
        exact ⟨d, List.mem_cons_of_mem c hd, hfold⟩

/-- A line that begins with a word holds it. -/
theorem hasKeyword_of_afterKeyword? (hne : word ≠ [])
    (h : (afterKeyword? word (trimLeft s)).isSome = true) : hasKeyword word s false = true := by
  induction s with
  | nil =>
      cases word with
      | nil => exact absurd rfl hne
      | cons w word => cases h
  | cons c s ih =>
      rw [hasKeyword]
      cases hc : isBlank c with
      | true =>
          rw [trimLeft, List.dropWhile_cons, hc, if_pos rfl] at h
          rw [isWordChar_of_isBlank hc, ih h, Bool.or_true]
      | false =>
          have hsame : trimLeft (c :: s) = c :: s := dropWhile_eq_self (by simpa using hc)
          rw [hsame] at h
          rw [h]
          rfl

end Text

-- ================================================================= modes

/-- The mode of a source is read off its lines. -/
theorem mode_eq (source : Text) :
    Mode.ofSource source
      = if (Text.lines source).any fun line => Text.hasKeyword erWord line false then .er
        else .flowchart := by
  have hlines := Text.hasKeyword_joinLines (show erWord ≠ [] by decide)
    (show '\n' ∉ erWord by decide) (Text.lines source)
  rw [Text.joinLines_lines] at hlines
  rw [← hlines]
  rfl

/-- A source names the entity-relationship diagram if one of its lines
does. -/
theorem mode_eq_er_iff {source : Text} :
    Mode.ofSource source = .er
      ↔ ∃ line ∈ Text.lines source, Text.hasKeyword erWord line false = true := by
  rw [mode_eq, ← List.any_eq_true]
  split
  next hany => exact ⟨fun _ => hany, fun _ => rfl⟩
  next hnone => exact ⟨nofun, fun hany => absurd hany hnone⟩

end FreeLabel
