/-
Identifiers of names, as a map of all texts onto joined words that leaves
these as they are.

# Repair

A name can be made an identifier without being taken apart: what no word
can hold becomes a low line, runs of low lines become single ones, and
those at the ends are removed (`repaired`). After the second step there
are joined words with at most one low line on either side of them, and
whether there is one before them depends on the first character alone
(`lead`, `collapse_map_orLowLine`). So what is left after the third step
is what taking the name apart and joining its words gives
(`strip_collapse`).
-/
import FreeLabel.Proofs.Naming.Words

namespace FreeLabel.Naming

variable {a b s : Text} {c d : Char} {ws : List Text}

-- ================================================================ repair

/-- A character that a word can hold, or a low line in its place. -/
def orLowLine (c : Char) : Char := if isAsciiAlnum c then c else '_'

/-- A text with a single low line for each run of them. -/
def collapse : Text → Text
  | [] => []
  | c :: s => if c = '_' ∧ s.head? = some '_' then collapse s else c :: collapse s

/-- A text without the low lines around it. -/
def strip (s : Text) : Text :=
  ((s.dropWhile (· == '_')).reverse.dropWhile (· == '_')).reverse

/-- The identifier of a name, got by changing the name step by step. -/
def repaired (name : Text) : Text :=
  match strip (collapse ((name.flatMap digraph).map orLowLine)) with
  | [] => unnamed
  | c :: cs => if c.isDigit then 'n' :: c :: cs else c :: cs

theorem orLowLine_eq_self (hc : isAsciiAlnum c = true) : orLowLine c = c := if_pos hc

theorem orLowLine_eq_lowLine (hc : isAsciiAlnum c = false) : orLowLine c = '_' :=
  if_neg (by rw [hc]; decide)

theorem ne_lowLine (hc : isAsciiAlnum c = true) : c ≠ '_' := ne_of_kind hc (by decide)

-- ================================================================ strips

/-- Low lines around a text that neither begins nor ends with one are all
that is removed. -/
theorem strip_append (ha : ∀ c ∈ a, c = '_') (hb : ∀ c ∈ b, c = '_')
    (hhead : ∀ c ∈ s.head?, c ≠ '_') (hlast : ∀ c ∈ s.getLast?, c ≠ '_') :
    strip (a ++ (s ++ b)) = s := by
  cases s with
  | nil =>
      have hall := Text.dropWhile_append_eq (p := (· == '_')) (a := a ++ b) (b := [])
        (fun c hc => beq_iff_eq.2 ((List.mem_append.1 hc).elim (ha c) (hb c))) (by simp)
      rw [List.append_nil] at hall
      rw [List.nil_append, strip, hall]
      rfl
  | cons d s =>
      have hfront : (a ++ (d :: s ++ b)).dropWhile (· == '_') = d :: s ++ b :=
        Text.dropWhile_append_eq (by simpa using ha) (by simpa using hhead)
      have hback : (b.reverse ++ (d :: s).reverse).dropWhile (· == '_') = (d :: s).reverse :=
        Text.dropWhile_append_eq (by simpa using hb)
          (by rw [List.head?_reverse]; simpa using hlast)
      rw [strip, hfront, List.reverse_append, hback, List.reverse_reverse]

theorem head?_intercalate (hws : ∀ w ∈ ws, IsWord w) :
    ∀ c ∈ (['_'].intercalate ws).head?, isAsciiAlnum c = true := by
  cases ws with
  | nil => simp
  | cons w ws =>
      have hw := hws w List.mem_cons_self
      obtain ⟨c, w, rfl⟩ := List.exists_cons_of_ne_nil hw.ne_nil
      rw [List.intercalate_cons_cons_left, List.head?_cons]
      rintro d hd
      obtain rfl := Option.some.inj hd
      exact hw.alnum _ List.mem_cons_self

theorem getLast?_intercalate (hws : ∀ w ∈ ws, IsWord w) :
    ∀ c ∈ (['_'].intercalate ws).getLast?, isAsciiAlnum c = true := by
  induction ws with
  | nil => simp
  | cons w ws ih =>
      obtain ⟨hw, hws⟩ := List.forall_mem_cons.1 hws
      cases ws with
      | nil =>
          rw [List.intercalate_singleton]
          exact fun c hc => hw.alnum c (List.mem_of_getLast? hc)
      | cons v ws =>
          intro c hc
          refine ih hws c ?_
          -- the last character is not in `w`, because `v` is not empty
          obtain ⟨d, v, rfl⟩ := List.exists_cons_of_ne_nil (hws v List.mem_cons_self).ne_nil
          rw [List.intercalate_cons_cons, List.intercalate_cons_cons_left, List.getLast?_append,
            List.getLast?_cons, Option.some_or, ← List.getLast?_cons,
            ← List.intercalate_cons_cons_left] at hc
          exact hc

-- ================================================================== runs

/-- The low line that a text begins with, if no word does. -/
def lead : Text → Text
  | [] => []
  | c :: _ => if isAsciiAlnum c then [] else ['_']

theorem eq_lowLine_of_mem_lead (hc : c ∈ lead s) : c = '_' := by
  cases s with
  | nil => cases hc
  | cons d s =>
      rw [lead] at hc
      split at hc
      · cases hc
      · exact List.mem_singleton.1 hc

/-- A low line in front becomes one with the low line of a text that
begins with one. -/
theorem collapse_lowLine (hs : collapse (s.map orLowLine) = lead s ++ b) :
    collapse ('_' :: s.map orLowLine) = '_' :: b := by
  cases s with
  | nil =>
      obtain rfl : [] = b := hs
      rfl
  | cons d s =>
      rw [List.map_cons] at hs ⊢
      rw [collapse, hs, lead, List.head?_cons]
      cases hd : isAsciiAlnum d with
      | false =>
          rw [orLowLine_eq_lowLine hd, if_pos ⟨rfl, rfl⟩]
          rfl
      | true =>
          rw [orLowLine_eq_self hd, if_neg fun h => ne_lowLine hd (Option.some.inj h.2)]
          rfl

theorem wordsIn_cons (hc : isAsciiAlnum c = false) (s : Text) :
    wordsIn (c :: s) = wordsIn s := by
  have hparts := wordsIn_append_cons hc [] s
  rwa [wordsIn_nil, List.nil_append, List.nil_append] at hparts

/-- A letter or digit before a word belongs to the word. -/
theorem wordsIn_cons_cons (hc : isAsciiAlnum c = true) (hd : isAsciiAlnum d = true) (s : Text) :
    ∃ w ws, wordsIn (d :: s) = w :: ws ∧ wordsIn (c :: d :: s) = (c :: w) :: ws := by
  obtain ⟨p, ps, hps⟩ :=
    List.exists_cons_of_ne_nil (List.splitOnP_ne_nil (fun c => !isAsciiAlnum c) s)
  refine ⟨d :: p, ps.filter fun word => !word.isEmpty, ?_, ?_⟩
  · simp [wordsIn, List.splitOnP_cons_eq_if_modifyHead, hd, hps]
  · simp [wordsIn, List.splitOnP_cons_eq_if_modifyHead, hc, hd, hps]

/-- A letter or digit before joined words goes on with them, or it is a
word of its own. The low line behind it joins it to the next word, or
stands at the end if there is none. -/
theorem cons_lead_intercalate (hc : isAsciiAlnum c = true) (s : Text) :
    ∃ b : Text, (∀ d ∈ b, d = '_')
      ∧ c :: (lead s ++ ['_'].intercalate (wordsIn s))
        = ['_'].intercalate (wordsIn (c :: s)) ++ b := by
  have hword : IsWord [c] := ⟨List.cons_ne_nil _ _, by simpa using hc⟩
  cases s with
  | nil => exact ⟨[], by simp, by simp [hword.wordsIn, lead]⟩
  | cons d s =>
      cases hd : isAsciiAlnum d with
      | true =>
          obtain ⟨w, ws, hs, hcs⟩ := wordsIn_cons_cons hc hd s
          refine ⟨[], by simp, ?_⟩
          rw [hs, hcs, lead, if_pos hd, List.intercalate_cons_cons_left, List.append_nil]
          rfl
      | false =>
          have hparts := wordsIn_append_cons hd [c] s
          rw [hword.wordsIn, List.singleton_append, List.singleton_append] at hparts
          rw [hparts, lead, wordsIn_cons hd, hd]
          by_cases hnone : wordsIn s = []
          · exact ⟨['_'], by simp, by simp [hnone]⟩
          · refine ⟨[], by simp, ?_⟩
            rw [List.intercalate_cons_of_ne_nil hnone, List.append_nil]
            rfl

/-- With single low lines for all that no word can hold, a text is its
words, joined, with low lines around them. -/
theorem collapse_map_orLowLine (s : Text) :
    ∃ b : Text, (∀ c ∈ b, c = '_')
      ∧ collapse (s.map orLowLine) = lead s ++ (['_'].intercalate (wordsIn s) ++ b) := by
  induction s with
  | nil => exact ⟨[], by simp, by simp [collapse, lead]⟩
  | cons c s ih =>
      obtain ⟨b, hb, hs⟩ := ih
      rw [List.map_cons]
      cases hc : isAsciiAlnum c with
      | false =>
          refine ⟨b, hb, ?_⟩
          rw [orLowLine_eq_lowLine hc, collapse_lowLine hs, wordsIn_cons hc, lead, hc]
          rfl
      | true =>
          obtain ⟨e, he, hjoined⟩ := cons_lead_intercalate hc s
          refine ⟨e ++ b, fun d hd => (List.mem_append.1 hd).elim (he d) (hb d), ?_⟩
          rw [orLowLine_eq_self hc, collapse, if_neg fun h => ne_lowLine hc h.1, hs, lead,
            if_pos hc, List.nil_append, ← List.append_assoc, ← List.cons_append, hjoined,
            List.append_assoc]

theorem strip_collapse (s : Text) :
    strip (collapse (s.map orLowLine)) = ['_'].intercalate (wordsIn s) := by
  obtain ⟨b, hb, hs⟩ := collapse_map_orLowLine s
  have hwords : ∀ w ∈ wordsIn s, IsWord w := fun w hw => isWord_of_mem_wordsIn hw
  rw [hs]
  exact strip_append (fun c hc => eq_lowLine_of_mem_lead hc) hb
    (fun c hc => ne_lowLine (head?_intercalate hwords c hc))
    fun c hc => ne_lowLine (getLast?_intercalate hwords c hc)

/-- Taking a name apart gives what repairing it gives. -/
theorem identifier_eq_repaired (name : Text) : identifier name = repaired name := by
  rw [repaired, strip_collapse]
  rfl

-- ============================================================ retraction

/-- Making identifiers of names is a retraction onto joined words. For any
name, also a missing one, the identifier is one or more words of ASCII
letters and digits, joined by single low lines, that begin with a letter;
the texts of that form, and no others, are their own identifiers. So the
identifier of an identifier is that identifier, and the texts of that form
are all the identifiers that there are. Repairing the name, which counts
as empty if it is missing, gives the same. -/
theorem identifierOf_retracts :
    (∀ name? : Option Text, IsJoinedWords (identifierOf name?))
      ∧ (∀ s : Text, identifierOf (some s) = s ↔ IsJoinedWords s)
      ∧ (∀ name? : Option Text, identifierOf (some (identifierOf name?)) = identifierOf name?)
      ∧ (∀ s : Text, (∃ name? : Option Text, identifierOf name? = s) ↔ IsJoinedWords s)
      ∧ ∀ name? : Option Text, identifierOf name? = repaired (name?.getD []) := by
  have hform : ∀ name? : Option Text, IsJoinedWords (identifierOf name?) :=
    fun name? => isJoinedWords_identifier (name?.getD [])
  refine ⟨hform, fun s => identifier_eq_self_iff, ?_, ?_, fun name? => identifier_eq_repaired _⟩
  · exact fun name? => (hform name?).identifier_eq
  · intro s
    constructor
    · rintro ⟨name?, rfl⟩
      exact hform name?
    · exact fun hs => ⟨some s, hs.identifier_eq⟩

end FreeLabel.Naming
