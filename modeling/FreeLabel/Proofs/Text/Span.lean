/-
Where a scanner stops. A text that is put together of a run of one kind
of characters and a rest that begins with none of that kind is taken
apart again just there; a text is cut at a character exactly where the
character first stands; a trimmed text is one whose ends are not blank.

These are the facts that every reading of a written line comes down to.
-/
import FreeLabel.Text.Blank
import Mathlib.Data.List.Basic

namespace FreeLabel.Text

-- ================================================================== runs

/-- A claim about each character of a given text is settled by going
through that text alone. -/
theorem forall_mem_of_all {holds : Char → Prop} [DecidablePred holds] {s : Text}
    (h : s.all holds = true) : ∀ c ∈ s, holds c :=
  fun c hc => of_decide_eq_true (List.all_eq_true.1 h c hc)

variable {p : Char → Bool} {a b : Text}

theorem takeWhile_append_eq (ha : ∀ c ∈ a, p c = true)
    (hb : ∀ c ∈ b.head?, p c = false) : (a ++ b).takeWhile p = a := by
  induction a with
  | nil =>
      cases b with
      | nil => rfl
      | cons c b =>
          have hc := hb c rfl
          rw [List.nil_append, List.takeWhile_cons, hc]
          rfl
  | cons c a ih =>
      have hc := ha c List.mem_cons_self
      rw [List.cons_append, List.takeWhile_cons, hc, if_pos rfl,
        ih fun d hd => ha d (List.mem_cons_of_mem c hd)]

theorem dropWhile_append_eq (ha : ∀ c ∈ a, p c = true)
    (hb : ∀ c ∈ b.head?, p c = false) : (a ++ b).dropWhile p = b := by
  induction a with
  | nil =>
      cases b with
      | nil => rfl
      | cons c b =>
          have hc := hb c rfl
          rw [List.nil_append, List.dropWhile_cons, hc]
          rfl
  | cons c a ih =>
      have hc := ha c List.mem_cons_self
      rw [List.cons_append, List.dropWhile_cons, hc, if_pos rfl,
        ih fun d hd => ha d (List.mem_cons_of_mem c hd)]

/-- A text that begins with no character of a kind is not shortened. -/
theorem dropWhile_eq_self (hb : ∀ c ∈ b.head?, p c = false) :
    b.dropWhile p = b :=
  dropWhile_append_eq (a := []) (by simp) hb

-- ================================================================= words

variable {word : Text} {c : Char}

/-- A word that ends before a character that it does not hold. -/
theorem prefix_of_prefix_append_cons (hc : c ∉ word) (h : word <+: a ++ c :: b) :
    word <+: a := by
  induction a generalizing word with
  | nil =>
      cases word with
      | nil => exact List.nil_prefix
      | cons d word =>
          obtain ⟨rfl, -⟩ := List.cons_prefix_cons.1 h
          exact absurd List.mem_cons_self hc
  | cons d a ih =>
      cases word with
      | nil => exact List.nil_prefix
      | cons e word =>
          obtain ⟨rfl, hrest⟩ := List.cons_prefix_cons.1 h
          exact List.cons_prefix_cons.2
            ⟨rfl, ih (fun hmem => hc (List.mem_cons_of_mem e hmem)) hrest⟩

/-- A word stands on one side of a character that it does not hold. -/
theorem infix_of_infix_append_cons (hc : c ∉ word) (h : word <:+: a ++ c :: b) :
    word <:+: a ∨ word <:+: b := by
  induction a with
  | nil =>
      rcases List.infix_cons_iff.1 h with h | h
      · exact .inl (prefix_of_prefix_append_cons (a := []) hc h).isInfix
      · exact .inr h
  | cons d a ih =>
      rcases List.infix_cons_iff.1 h with h | h
      · exact .inl (prefix_of_prefix_append_cons (a := d :: a) hc h).isInfix
      · exact (ih h).imp_left List.infix_cons

-- ============================================================== trimming

variable {s : Text}

theorem isBlank_head_trimLeft (s : Text) : ∀ c ∈ (trimLeft s).head?, isBlank c = false := by
  intro c hc
  have h := List.head?_dropWhile_not isBlank s
  unfold trimLeft at hc
  rw [Option.mem_def.1 hc] at h
  simpa using h

/-- What is taken away at the end is not seen at the head. -/
theorem mem_head?_of_trimRight {c : Char} (hc : c ∈ (trimRight s).head?) : c ∈ s.head? := by
  rw [← trimRight_append s]
  exact List.mem_head?_append_of_mem_head? hc

/-- A trimmed text begins where the first step stops. -/
theorem isBlank_head_trim (s : Text) : ∀ c ∈ (trim s).head?, isBlank c = false :=
  fun c hc => isBlank_head_trimLeft s c (mem_head?_of_trimRight hc)

/-- It ends where the second step stops. -/
theorem isBlank_getLast_trim (s : Text) : ∀ c ∈ (trim s).getLast?, isBlank c = false := by
  intro c hc
  rw [trim, trimRight, List.getLast?_reverse] at hc
  exact isBlank_head_trimLeft _ c hc

/-- A text is trimmed if it neither begins nor ends with a blank. -/
theorem trim_eq_self_iff :
    trim s = s ↔ (∀ c ∈ s.head?, isBlank c = false) ∧ ∀ c ∈ s.getLast?, isBlank c = false := by
  constructor
  · intro h
    rw [← h]
    exact ⟨isBlank_head_trim s, isBlank_getLast_trim s⟩
  · rintro ⟨hhead, hlast⟩
    rw [trim, trimLeft, dropWhile_eq_self hhead, trimRight,
      dropWhile_eq_self (by rwa [List.head?_reverse]), List.reverse_reverse]

theorem trimRight_append_eq (hs : ∀ c ∈ s.getLast?, isBlank c = false)
    (hb : ∀ c ∈ b, isBlank c = true) : trimRight (s ++ b) = s := by
  rw [trimRight, List.reverse_append, dropWhile_append_eq (by simpa using hb)
    (by rwa [List.head?_reverse]), List.reverse_reverse]

/-- Blanks around a trimmed text are all that is trimmed. -/
theorem trim_append (ha : ∀ c ∈ a, isBlank c = true) (hb : ∀ c ∈ b, isBlank c = true)
    (hs : trim s = s) : trim (a ++ (s ++ b)) = s := by
  obtain ⟨hhead, hlast⟩ := trim_eq_self_iff.1 hs
  cases s with
  | nil =>
      have hall := dropWhile_append_eq (p := isBlank) (a := a ++ b) (b := [])
        (fun c hc => (List.mem_append.1 hc).elim (ha c) (hb c)) (by simp)
      rw [List.append_nil] at hall
      rw [List.nil_append, trim, trimLeft, hall]
      rfl
  | cons d s =>
      rw [trim, trimLeft, dropWhile_append_eq ha (by simpa using hhead),
        trimRight_append_eq hlast hb]

/-- A text is blanks around a trimmed text. -/
theorem exists_trim (s : Text) :
    ∃ a b : Text, (∀ c ∈ a, isBlank c = true) ∧ (∀ c ∈ b, isBlank c = true)
      ∧ trim (trim s) = trim s ∧ s = a ++ (trim s ++ b) := by
  have hlast : trim s ++ ((trimLeft s).reverse.takeWhile isBlank).reverse = trimLeft s :=
    trimRight_append (trimLeft s)
  refine ⟨indent s, ((trimLeft s).reverse.takeWhile isBlank).reverse, ?_, ?_, ?_, ?_⟩
  · exact List.all_eq_true.1 List.all_takeWhile
  · intro c hc
    exact List.all_eq_true.1 List.all_takeWhile c (List.mem_reverse.1 hc)
  · exact trim_eq_self_iff.2 ⟨isBlank_head_trim s, isBlank_getLast_trim s⟩
  · rw [hlast, indent_append]

theorem mem_of_mem_trim {c : Char} (hc : c ∈ trim s) : c ∈ s := by
  obtain ⟨a, b, -, -, -, hs⟩ := exists_trim s
  rw [hs]
  exact List.mem_append_right a (List.mem_append_left b hc)

/-- Nothing but blanks is taken away. -/
theorem mem_trim_of_mem {c : Char} (hc : c ∈ s) (hblank : isBlank c = false) : c ∈ trim s := by
  obtain ⟨a, b, ha, hb, -, hs⟩ := exists_trim s
  have hnot : ∀ {t : Text}, (∀ d ∈ t, isBlank d = true) → c ∉ t := by
    intro t ht hct
    rw [ht c hct] at hblank
    cases hblank
  rw [hs, List.mem_append, List.mem_append] at hc
  exact (hc.resolve_left (hnot ha)).resolve_right (hnot hb)

theorem trim_trim (s : Text) : trim (trim s) = trim s := by
  obtain ⟨-, -, -, -, h, -⟩ := exists_trim s
  exact h

theorem indent_eq_nil (hs : trim s = s) : indent s = [] := by
  have h := takeWhile_append_eq (a := []) (b := s) (by simp) (trim_eq_self_iff.1 hs).1
  rwa [List.nil_append] at h

theorem isBlank_of_mem_space : ∀ c ∈ [' '], isBlank c = true :=
  forall_mem_of_all (by decide)

theorem trim_space (hs : trim s = s) : trim (' ' :: s) = s := by
  have h := trim_append (a := [' ']) (b := []) isBlank_of_mem_space (by simp) hs
  rwa [List.append_nil] at h

theorem trim_append_space (hs : trim s = s) : trim (s ++ [' ']) = s :=
  trim_append (a := []) (by simp) isBlank_of_mem_space hs

theorem trim_eq_self_of_forall (hs : ∀ c ∈ s, isBlank c = false) : trim s = s :=
  trim_eq_self_iff.2
    ⟨fun c hc => hs c (List.mem_of_head? hc), fun c hc => hs c (List.mem_of_getLast? hc)⟩

/-- A text that begins and ends with trimmed texts is trimmed. -/
theorem trim_between {t : Text} (hs : s ≠ []) (hst : trim s = s) (ht : t ≠ [])
    (htt : trim t = t) (m : Text) : trim (s ++ (m ++ t)) = s ++ (m ++ t) := by
  rw [trim_eq_self_iff]
  constructor
  · cases s with
    | nil => exact absurd rfl hs
    | cons c s => exact (trim_eq_self_iff.1 hst).1
  · intro c hc
    refine (trim_eq_self_iff.1 htt).2 c ?_
    cases hlast : t.getLast? with
    | none => exact absurd (List.getLast?_eq_none_iff.1 hlast) ht
    | some d =>
        rw [List.getLast?_append, List.getLast?_append, hlast] at hc
        exact hc

theorem trim_quoted (s : Text) : trim ('"' :: (s ++ ['"'])) = '"' :: (s ++ ['"']) :=
  trim_between (s := ['"']) (t := ['"']) (by simp) (by decide) (by simp) (by decide) s

theorem trimLeft_space (hs : ∀ c ∈ s.head?, isBlank c = false) : trimLeft (' ' :: s) = s :=
  dropWhile_append_eq (a := [' ']) isBlank_of_mem_space hs

/-- A text behind a space, as scanners meet it that skip blanks. -/
theorem afterBlanks?_space (hs : ∀ c ∈ s.head?, isBlank c = false) :
    afterBlanks? (' ' :: s) = some s := by
  rw [afterBlanks?, if_pos (by decide), trimLeft, dropWhile_eq_self hs]

-- =============================================================== cutting

theorem cut?_append (ha : c ∉ a) : cut? [c] (a ++ c :: b) = some (a, b) := by
  induction a with
  | nil => simp [cut?, after?]
  | cons d a ih =>
      have hd : ¬ c = d := fun h => ha (h ▸ List.mem_cons_self)
      rw [List.cons_append, cut?, after?, if_neg hd,
        ih fun h => ha (List.mem_cons_of_mem d h)]
      rfl

/-- What stands before the first of a character does not hold it. -/
theorem not_mem_of_cut? (h : cut? [c] s = some (a, b)) : c ∉ a := by
  induction s generalizing a with
  | nil => simp [cut?] at h
  | cons d s ih =>
      rw [cut?, after?] at h
      by_cases hd : c = d
      · rw [if_pos hd] at h
        cases h
        exact List.not_mem_nil
      · rw [if_neg hd] at h
        obtain ⟨⟨before, rest⟩, hcut, heq⟩ := Option.map_eq_some_iff.1 h
        cases heq
        rw [List.mem_cons, not_or]
        exact ⟨hd, ih hcut⟩

theorem after?_eq_none_iff : after? word s = none ↔ ¬ word <+: s := by
  constructor
  · rintro h ⟨r, hr⟩
    rw [after?_eq_some_iff.2 hr.symm] at h
    cases h
  · intro h
    cases hafter : after? word s with
    | none => rfl
    | some r => exact absurd ⟨r, (after?_eq_some_iff.1 hafter).symm⟩ h

/-- A text is cut at any word that occurs in it. -/
theorem cut?_eq_none_iff : cut? word s = none ↔ ¬ word <:+: s := by
  induction s with
  | nil => simp [cut?]
  | cons d s ih =>
      rw [cut?, List.infix_cons_iff, not_or, ← after?_eq_none_iff, ← ih]
      cases hafter : after? word (d :: s) with
      | some r => simp
      | none => simp

theorem cut?_eq_none (hs : c ∉ s) : cut? [c] s = none :=
  cut?_eq_none_iff.2 fun h => hs (h.subset List.mem_cons_self)

-- ================================================================ pieces

/-- Only the head of a list with another head is new in it. -/
private theorem mem_or_of_mem_modifyHead {f : Text → Text} {w : Text} {ws : List Text}
    (h : w ∈ ws.modifyHead f) : w ∈ ws ∨ ∃ v ∈ ws, w = f v := by
  cases ws with
  | nil => cases h
  | cons v ws =>
      rw [List.modifyHead_cons, List.mem_cons] at h
      rcases h with h | h
      · exact .inr ⟨v, List.mem_cons_self, h⟩
      · exact .inl (List.mem_cons_of_mem v h)

/-- No piece between separators holds one. -/
theorem not_of_mem_splitOnP {p : Char → Bool} {s w : Text}
    (hw : w ∈ s.splitOnP p) : ∀ c ∈ w, p c = false := by
  induction s generalizing w with
  | nil =>
      obtain rfl : w = [] := by simpa [List.splitOnP_nil] using hw
      simp
  | cons d s ih =>
      rw [List.splitOnP_cons_eq_if_modifyHead] at hw
      by_cases hd : p d = true
      · rw [if_pos hd] at hw
        rcases List.mem_cons.1 hw with rfl | hw
        · simp
        · exact ih hw
      · rw [if_neg hd] at hw
        rcases mem_or_of_mem_modifyHead hw with hw | ⟨v, hv, rfl⟩
        · exact ih hw
        · intro c hc
          cases hc with
          | head => simpa using hd
          | tail _ hc => exact ih hv c hc

theorem newline_not_mem_of_mem_lines {line : Text} (h : line ∈ lines s) : '\n' ∉ line := by
  intro hmem
  have := not_of_mem_splitOnP h '\n' hmem
  simp at this

end FreeLabel.Text
