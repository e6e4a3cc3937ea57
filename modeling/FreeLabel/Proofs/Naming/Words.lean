/-
Words, joined by single low lines: what identifiers of names are.

# Joining loses nothing

A character that no word can hold parts the words on its two sides
(`wordsIn_append_cons`), and everything about the words of a text comes
down to that. So the words of joined words are these words again
(`wordsIn_intercalate`).

# Joined words are fixed

Joined words hold no character that has a digraph, and no more is done to
them if they begin with a letter. So they are their own identifier, and
since every identifier is of that form, nothing else is
(`identifier_eq_self_iff`).
-/
import FreeLabel.Naming.Identifier
import FreeLabel.Proofs.Text.Chars
import FreeLabel.Proofs.Text.Span

namespace FreeLabel.Naming

variable {c : Char} {s w : Text} {ws : List Text}

-- ============================================================== digraphs

/-- No character that an identifier may hold is spelled otherwise. -/
theorem digraph_eq_self (h : isIdentChar c = true) : digraph c = [c] := by
  unfold digraph
  split
  case h_16 => rfl
  all_goals exact absurd h (by decide)

theorem flatMap_digraph (h : ∀ c ∈ s, isIdentChar c = true) : s.flatMap digraph = s := by
  induction s with
  | nil => rfl
  | cons c s ih =>
      rw [List.flatMap_cons, digraph_eq_self (h c List.mem_cons_self),
        ih fun d hd => h d (List.mem_cons_of_mem c hd)]
      rfl

-- ================================================================= words

/-- A text of ASCII letters and digits that is not empty. -/
structure IsWord (w : Text) : Prop where
  ne_nil : w ≠ []
  alnum : ∀ c ∈ w, isAsciiAlnum c = true

/-- The words of a text as it is spelled. -/
def wordsIn (s : Text) : List Text :=
  (s.splitOnP fun c => !isAsciiAlnum c).filter fun word => !word.isEmpty

theorem words_eq_wordsIn (name : Text) : words name = wordsIn (name.flatMap digraph) := rfl

theorem isWord_of_mem_wordsIn (hw : w ∈ wordsIn s) : IsWord w := by
  obtain ⟨hmem, hne⟩ := List.mem_filter.1 hw
  refine ⟨by simpa using hne, ?_⟩
  intro c hc
  simpa using Text.not_of_mem_splitOnP hmem c hc

@[simp] theorem wordsIn_nil : wordsIn [] = [] := by
  simp [wordsIn]

/-- A character that no word can hold parts the words on its two sides. -/
theorem wordsIn_append_cons (hc : isAsciiAlnum c = false) (a b : Text) :
    wordsIn (a ++ c :: b) = wordsIn a ++ wordsIn b := by
  unfold wordsIn
  rw [List.splitOnP_append_cons a b (by rw [hc]; rfl), List.filter_append]

theorem IsWord.wordsIn (hw : IsWord w) : wordsIn w = [w] := by
  have hpieces : (w.splitOnP fun c => !isAsciiAlnum c) = [w] :=
    List.splitOnP_eq_singleton fun c hc => by rw [hw.alnum c hc]; rfl
  have hne : w.isEmpty = false := by simpa using hw.ne_nil
  rw [Naming.wordsIn, hpieces, List.filter_cons_of_pos (by rw [hne]; rfl), List.filter_nil]

-- =============================================================== joining

/-- What was joined is taken apart again. -/
theorem wordsIn_intercalate (hws : ∀ w ∈ ws, IsWord w) :
    wordsIn (['_'].intercalate ws) = ws := by
  induction ws with
  | nil => exact wordsIn_nil
  | cons w ws ih =>
      obtain ⟨hw, hws⟩ := List.forall_mem_cons.1 hws
      cases ws with
      | nil => rw [List.intercalate_singleton, hw.wordsIn]
      | cons v ws =>
          rw [List.intercalate_cons_cons, List.append_assoc, List.singleton_append,
            wordsIn_append_cons (by decide), hw.wordsIn, ih hws]
          rfl

/-- What is joined by low lines consists of low lines and what is
joined. -/
theorem mem_of_mem_intercalate (h : c ∈ ['_'].intercalate ws) : c = '_' ∨ ∃ w ∈ ws, c ∈ w := by
  induction ws with
  | nil => simp at h
  | cons w ws ih =>
      cases ws with
      | nil => exact .inr ⟨w, List.mem_cons_self, by simpa using h⟩
      | cons v ws =>
          rw [List.intercalate_cons_cons] at h
          simp only [List.mem_append, List.mem_singleton] at h
          rcases h with (h | h) | h
          · exact .inr ⟨w, List.mem_cons_self, h⟩
          · exact .inl h
          · rcases ih h with h | ⟨u, hu, hc⟩
            · exact .inl h
            · exact .inr ⟨u, List.mem_cons_of_mem w hu, hc⟩

theorem isIdentChar_of_mem_intercalate (hws : ∀ w ∈ ws, IsWord w)
    (hc : c ∈ ['_'].intercalate ws) : isIdentChar c = true := by
  rcases mem_of_mem_intercalate hc with rfl | ⟨w, hw, hmem⟩
  · rfl
  · exact isIdentChar_of_isAsciiAlnum ((hws w hw).alnum c hmem)

-- =========================================================== identifiers

/-- One or more words, joined by single low lines, that begin with a
letter. -/
def IsJoinedWords (s : Text) : Prop :=
  ∃ ws : List Text, ws ≠ [] ∧ (∀ w ∈ ws, IsWord w) ∧ s = ['_'].intercalate ws
    ∧ ∃ c ∈ s.head?, isAsciiLetter c = true

theorem isJoinedWords_unnamed : IsJoinedWords unnamed := by
  refine ⟨[unnamed], List.cons_ne_nil _ _, ?_, List.intercalate_singleton.symm, 'u', rfl, rfl⟩
  intro w hw
  obtain rfl := List.mem_singleton.1 hw
  exact ⟨List.cons_ne_nil _ _, Text.forall_mem_of_all (by decide)⟩

/-- The identifier of a name is its words, joined; but if the first of
them begins with a digit, that word gets a letter in front. -/
theorem identifier_of_words {name : Text} (h : words name = (c :: w) :: ws) :
    identifier name
      = ['_'].intercalate ((if c.isDigit then 'n' :: c :: w else c :: w) :: ws) := by
  rw [identifier, h, List.intercalate_cons_cons_left]
  dsimp only
  split
  · rw [List.intercalate_cons_cons_left, List.intercalate_cons_cons_left]
  · rw [List.intercalate_cons_cons_left]

theorem isJoinedWords_identifier (name : Text) : IsJoinedWords (identifier name) := by
  have hwords : ∀ w ∈ words name, IsWord w := fun w hw => isWord_of_mem_wordsIn hw
  cases hname : words name with
  | nil =>
      rw [identifier, hname]
      exact isJoinedWords_unnamed
  | cons w ws =>
      rw [hname, List.forall_mem_cons] at hwords
      obtain ⟨hw, hws⟩ := hwords
      obtain ⟨c, w, rfl⟩ := List.exists_cons_of_ne_nil hw.ne_nil
      rw [identifier_of_words hname]
      split
      next =>
        have hbehind : IsWord ('n' :: c :: w) :=
          ⟨List.cons_ne_nil _ _, List.forall_mem_cons.2 ⟨by decide, hw.alnum⟩⟩
        refine ⟨_, List.cons_ne_nil _ _, List.forall_mem_cons.2 ⟨hbehind, hws⟩, rfl, 'n', ?_, rfl⟩
        rw [List.intercalate_cons_cons_left]
        rfl
      next hdigit =>
        have hletter : isAsciiLetter c = true :=
          (isAsciiAlnum_iff.1 (hw.alnum c List.mem_cons_self)).resolve_right hdigit
        refine ⟨_, List.cons_ne_nil _ _, List.forall_mem_cons.2 ⟨hw, hws⟩, rfl, c, ?_, hletter⟩
        rw [List.intercalate_cons_cons_left]
        rfl

theorem IsJoinedWords.identifier_eq (h : IsJoinedWords s) : identifier s = s := by
  obtain ⟨ws, hne, hws, rfl, c, hc, hletter⟩ := h
  have hwords : words (['_'].intercalate ws) = ws := by
    rw [words_eq_wordsIn, flatMap_digraph fun c hc => isIdentChar_of_mem_intercalate hws hc,
      wordsIn_intercalate hws]
  cases ws with
  | nil => exact absurd rfl hne
  | cons w ws =>
      obtain ⟨d, w, rfl⟩ := List.exists_cons_of_ne_nil (hws w List.mem_cons_self).ne_nil
      rw [List.intercalate_cons_cons_left, List.head?_cons, Option.mem_some_iff] at hc
      obtain rfl := hc
      rw [identifier_of_words hwords, isDigit_of_isAsciiLetter hletter]
      rfl

/-- The texts that are their own identifiers are the joined words. -/
theorem identifier_eq_self_iff : identifier s = s ↔ IsJoinedWords s :=
  ⟨fun h => h ▸ isJoinedWords_identifier s, IsJoinedWords.identifier_eq⟩

instance (s : Text) : Decidable (IsJoinedWords s) := decidable_of_iff _ identifier_eq_self_iff

example : IsJoinedWords "Order_Item2".toList ∧ ¬ IsJoinedWords "Order__Item".toList
    ∧ ¬ IsJoinedWords "Order_".toList ∧ ¬ IsJoinedWords "2nd".toList := by decide

end FreeLabel.Naming
