/-
Where the first arrow of a line is found, and how it is read there.

The reader of diagrams looks for arrows anywhere in a line, also inside
labels: it finds none in a text exactly if no shaft begins there
(`findArrow?_eq_none_iff`). Behind such a text, from which a space sets it
off, an arrow is found where it stands (`findArrow?_append`), and it is
read as it was in the source, with single spaces in its label
(`IsArrow.read?_squeeze`): what ended its shaft there was no character of
a shaft, and neither is the space or bar that ends it here.
-/
import FreeLabel.Proofs.Flow.Layout
import FreeLabel.Proofs.Flow.Walk
import FreeLabel.Proofs.Text.Chars
import FreeLabel.Proofs.Text.Span

namespace FreeLabel.Flow

open Drawing (findArrow?)

-- =============================================================== shafts

/-- What shafts begin with. -/
def shaftMarks : List Text := ["--".toList, "==".toList, "-.".toList]

/-- No shaft begins in a text. -/
def Shaftless (s : Text) : Prop := ∀ m ∈ shaftMarks, ¬ m <:+: s

instance (s : Text) : Decidable (Shaftless s) :=
  inferInstanceAs (Decidable (∀ m ∈ shaftMarks, ¬ m <:+: s))

/-- A text with single spaces has the same shafts. -/
theorem shaftless_squeeze_iff {s : Text} : Shaftless (squeeze s) ↔ Shaftless s := by
  have hall : ∀ m ∈ shaftMarks, (m <:+: squeeze s ↔ m <:+: s) := by
    intro m hm
    simp only [shaftMarks, List.mem_cons, List.not_mem_nil, or_false] at hm
    rcases hm with rfl | rfl | rfl <;> exact pair_infix_squeeze_iff (by decide)
  exact forall₂_congr fun m hm => not_congr (hall m hm)

namespace Arrow

theorem shaft?_eq_none_iff {s : Text} :
    shaft? s = none ↔ ∀ m ∈ shaftMarks, ¬ m <+: s := by
  constructor
  · intro h m hm hbegins
    simp only [shaftMarks, List.mem_cons, List.not_mem_nil, or_false] at hm
    obtain ⟨t, rfl⟩ := hbegins
    rcases hm with rfl | rfl | rfl <;> cases h
  · intro h
    unfold shaft?
    split
    next t => exact absurd (List.prefix_append "--".toList t) (h _ (by simp [shaftMarks]))
    next t => exact absurd (List.prefix_append "==".toList t) (h _ (by simp [shaftMarks]))
    next t => exact absurd (List.prefix_append "-.".toList t) (h _ (by simp [shaftMarks]))
    next => rfl

theorem read?_eq_none_iff {s : Text} : read? s = none ↔ ∀ m ∈ shaftMarks, ¬ m <+: s := by
  rw [read?, Option.map_eq_none_iff, shaft?_eq_none_iff]

-- ============================================================== spelled

/-- The characters of shafts. -/
def shaftChars : List Char := ['-', '=', '.', '>']

variable {c d : Char} {s t rest shaft : Text}

theorem mem_head (h : c ∈ (head s).1) : c = '>' := by
  revert h
  fun_cases head s
  · exact List.mem_singleton.1
  · exact fun h => absurd h List.not_mem_nil

theorem mem_dottedEnd (h : c ∈ (dottedEnd s).1) : c ∈ shaftChars := by
  revert h
  fun_cases dottedEnd s
  · intro h
    rcases List.mem_cons.1 h with rfl | h
    · decide
    · rw [mem_head h]
      decide
  · exact fun h => absurd h List.not_mem_nil

/-- A run behind marks that are characters of shafts. -/
theorem mem_run {m : Text} {tail : Text → Text × Text} (hm : ∀ c ∈ m, c ∈ shaftChars)
    (hd : d ∈ shaftChars) (htail : ∀ s, ∀ c ∈ (tail s).1, c ∈ shaftChars)
    (h : c ∈ m ++ (run d tail s).1) : c ∈ shaftChars := by
  rcases List.mem_append.1 h with h | h
  · exact hm c h
  rcases List.mem_append.1 h with h | h
  · have hc := List.all_eq_true.1 List.all_takeWhile c h
    rwa [eq_of_beq hc]
  · exact htail _ c h

theorem mem_shaftChars (h : shaft? s = some (shaft, rest)) (hc : c ∈ shaft) :
    c ∈ shaftChars := by
  have hhead : ∀ s, ∀ c ∈ (head s).1, c ∈ shaftChars := by
    intro s c hc
    rw [mem_head hc]
    decide
  have hdots : ∀ s, ∀ c ∈ (dottedEnd s).1, c ∈ shaftChars := fun _ _ h => mem_dottedEnd h
  fun_cases shaft? s <;> simp only [shaft?, Option.some.injEq, Prod.mk.injEq, reduceCtorEq] at h
  · obtain ⟨rfl, rfl⟩ := h
    exact mem_run (m := ['-', '-']) (Text.forall_mem_of_all (by decide)) (by decide) hhead hc
  · obtain ⟨rfl, rfl⟩ := h
    exact mem_run (m := ['=', '=']) (Text.forall_mem_of_all (by decide)) (by decide) hhead hc
  · obtain ⟨rfl, rfl⟩ := h
    exact mem_run (m := ['-', '.']) (Text.forall_mem_of_all (by decide)) (by decide) hdots hc

-- ============================================================ read again

theorem head_again (ht : ∀ c ∈ t.head?, c ∉ shaftChars) (s : Text) :
    head ((head s).1 ++ t) = ((head s).1, t) := by
  fun_cases head s
  · rfl
  · rw [List.nil_append]
    unfold head
    split
    next => exact absurd (by decide) (ht '>' rfl)
    next => rfl

theorem dottedEnd_again (ht : ∀ c ∈ t.head?, c ∉ shaftChars) (s : Text) :
    dottedEnd ((dottedEnd s).1 ++ t) = ((dottedEnd s).1, t) := by
  fun_cases dottedEnd s
  case case1 s =>
    show dottedEnd ('-' :: ((head s).1 ++ t)) = _
    rw [dottedEnd, head_again ht]
  case case2 =>
    rw [List.nil_append]
    unfold dottedEnd
    split
    next => exact absurd (by decide) (ht '-' rfl)
    next => rfl

/-- A run is read again with what stood behind it, if that is read again
and did not go on with the run. -/
theorem run_again {tail : Text → Text × Text}
    (htail : ∀ s, tail ((tail s).1 ++ t) = ((tail s).1, t))
    (hhead : ∀ s, ∀ e ∈ ((tail s).1 ++ t).head?, (e == d) = false) (s : Text) :
    run d tail ((run d tail s).1 ++ t) = ((run d tail s).1, t) := by
  unfold run
  simp only [List.append_assoc]
  have hall : ∀ e ∈ s.takeWhile (· == d), (e == d) = true :=
    List.all_eq_true.1 List.all_takeWhile
  rw [Text.takeWhile_append_eq hall (hhead _), Text.dropWhile_append_eq hall (hhead _), htail]

/-- A shaft is read again where it stands before no character of a
shaft. -/
theorem shaft?_again (h : shaft? s = some (shaft, rest))
    (ht : ∀ c ∈ t.head?, c ∉ shaftChars) : shaft? (shaft ++ t) = some (shaft, t) := by
  have hne : ∀ d ∈ shaftChars, ∀ e ∈ t.head?, (e == d) = false := by
    intro d hd e he
    rw [beq_eq_false_iff_ne]
    rintro rfl
    exact ht e he hd
  have hhead : ∀ d ∈ ['-', '='], ∀ s, ∀ e ∈ ((head s).1 ++ t).head?, (e == d) = false := by
    intro d hd s e
    have hd' : d ∈ shaftChars ∧ ('>' == d) = false := by
      revert d
      exact Text.forall_mem_of_all (by decide)
    fun_cases head s
    · rintro ⟨⟩
      exact hd'.2
    · exact hne d hd'.1 e
  have hdots : ∀ s, ∀ e ∈ ((dottedEnd s).1 ++ t).head?, (e == '.') = false := by
    intro s e
    fun_cases dottedEnd s
    · rintro ⟨⟩
      decide
    · exact hne '.' (by decide) e
  fun_cases shaft? s <;> simp only [shaft?, Option.some.injEq, Prod.mk.injEq, reduceCtorEq] at h
  case case1 s _ =>
    obtain ⟨rfl, rfl⟩ := h
    show shaft? ('-' :: '-' :: ((run '-' head s).1 ++ t)) = _
    rw [shaft?, run_again (head_again ht) (hhead '-' (by decide))]
  case case2 s _ =>
    obtain ⟨rfl, rfl⟩ := h
    show shaft? ('=' :: '=' :: ((run '=' head s).1 ++ t)) = _
    rw [shaft?, run_again (head_again ht) (hhead '=' (by decide))]
  case case3 s _ =>
    obtain ⟨rfl, rfl⟩ := h
    show shaft? ('-' :: '.' :: ((run '.' dottedEnd s).1 ++ t)) = _
    rw [shaft?, run_again (dottedEnd_again ht) hdots]

-- =============================================================== labels

variable {label : Option Text}

/-- A label is read again where no bar follows. -/
theorem readLabel_again (hlabel : ∀ l ∈ label, '|' ∉ l) (ht : ∀ c ∈ t.head?, c ≠ '|') :
    readLabel (labelSpelling label ++ t) = (label, t) := by
  cases label with
  | none =>
      rw [labelSpelling, List.nil_append]
      unfold readLabel
      split
      next => exact absurd rfl (ht '|' rfl)
      next => rfl
  | some l =>
      have hcut : Text.cut? ['|'] (l ++ '|' :: t) = some (l, t) :=
        Text.cut?_append (hlabel l rfl)
      have hspelled : labelSpelling (some l) ++ t = '|' :: (l ++ '|' :: t) := by
        simp [labelSpelling]
      rw [hspelled, readLabel, hcut]

/-- Behind a shaft stands its label, or what follows the arrow. -/
theorem head?_labelSpelling_append (label : Option Text)
    (ht : ∀ c ∈ t.head?, c ∉ shaftChars) :
    ∀ c ∈ (labelSpelling label ++ t).head?, c ∉ shaftChars := by
  cases label with
  | none => exact ht
  | some l =>
      rintro c ⟨⟩
      decide

/-- Spaces in an arrow are those of its label. -/
theorem squeeze_spelling (hshaft : ' ' ∉ shaft) (label : Option Text) :
    squeeze (shaft ++ labelSpelling label) = shaft ++ labelSpelling (label.map squeeze) := by
  have hlast : shaft.getLast? ≠ some ' ' := fun h => hshaft (List.mem_of_getLast? h)
  rw [squeeze_append (.inl hlast), squeeze_eq_self hshaft]
  cases label with
  | none => rfl
  | some l =>
      show shaft ++ squeeze (['|'] ++ l ++ ['|']) = _
      rw [squeeze_append (.inr (by simp)), squeeze_append (.inl (by simp))]
      simp [labelSpelling, squeeze]

/-- The label of an arrow is what its spelling says. -/
theorem arrowLabel_spelling (hshaft : '|' ∉ shaft) (hlabel : ∀ l ∈ label, '|' ∉ l) :
    arrowLabel (shaft ++ labelSpelling label) = Text.peel (label.getD []) := by
  have hnobar : ∀ s : Text, '|' ∉ s → ∀ c ∈ s, (c != '|') = true := by
    intro s hs c hc
    rw [bne_iff_ne]
    rintro rfl
    exact hs hc
  unfold arrowLabel
  cases label with
  | none =>
      have hdrop := Text.dropWhile_append_eq (b := []) (hnobar shaft hshaft) (by simp)
      rw [labelSpelling, hdrop]
      rfl
  | some l =>
      have hdrop := Text.dropWhile_append_eq (b := '|' :: (l ++ ['|'])) (hnobar shaft hshaft)
        (by simp)
      have htake : (l ++ ['|']).takeWhile (· != '|') = l :=
        Text.takeWhile_append_eq (hnobar l (hlabel l rfl)) (by simp)
      show Text.peel
        ((((shaft ++ '|' :: (l ++ ['|'])).dropWhile (· != '|')).drop 1).takeWhile (· != '|')) = _
      rw [hdrop, List.drop_one, List.tail_cons, htake]
      rfl

end Arrow

-- =============================================================== arrows

/-- What an arrow consists of. -/
theorem IsArrow.exists_shaft {w : Text} (h : IsArrow w) :
    ∃ shaft label, w = shaft ++ Arrow.labelSpelling label ∧ shaft ≠ []
      ∧ (∀ c ∈ shaft, c ∈ Arrow.shaftChars) ∧ (∀ l ∈ label, '|' ∉ l)
      ∧ ∀ t, (∀ c ∈ t.head?, c ∉ Arrow.shaftChars) →
          Arrow.shaft? (shaft ++ t) = some (shaft, t) := by
  obtain ⟨s, a, rest, hread, rfl⟩ := h
  obtain ⟨⟨shaft, after⟩, hshaft, heq⟩ := Option.map_eq_some_iff.1 hread
  cases heq
  refine ⟨shaft, (Arrow.readLabel after).1, rfl, (Arrow.shaft?_eq_some hshaft).2,
    fun c => Arrow.mem_shaftChars hshaft, ?_, fun t => Arrow.shaft?_again hshaft⟩
  intro l
  fun_cases Arrow.readLabel after
  next label rest hcut =>
    rintro ⟨⟩
    exact Text.not_mem_of_cut? hcut
  next =>
    intro h
    cases h
  next =>
    intro h
    cases h

theorem isBlank_of_mem_shaftChars : ∀ c ∈ Arrow.shaftChars, isBlank c = false :=
  Text.forall_mem_of_all (by decide)

/-- An arrow begins and ends with no blank. -/
theorem IsArrow.isWord {w : Text} (h : IsArrow w) : IsWord w := by
  obtain ⟨shaft, label, rfl, hne, hchars, -, -⟩ := h.exists_shaft
  have hshaft : Text.trim shaft = shaft :=
    Text.trim_eq_self_of_forall fun c hc => isBlank_of_mem_shaftChars c (hchars c hc)
  refine ⟨by simp [hne], ?_⟩
  cases label with
  | none =>
      rw [Arrow.labelSpelling, List.append_nil]
      exact hshaft
  | some l =>
      rw [Arrow.labelSpelling]
      exact Text.trim_between hne hshaft (by simp) (by decide) (['|'] ++ l)

/-- Nothing stands here, or a space does. -/
def Apart (t : Text) : Prop := ∀ c ∈ t.head?, c = ' '

theorem apart_nil : Apart [] := nofun

theorem apart_space (t : Text) : Apart (' ' :: t) := by
  rintro c ⟨⟩
  rfl

/-- With single spaces in its label, an arrow is read as itself where a
space follows or nothing, and its label is that of the arrow with single
spaces. -/
theorem IsArrow.read?_squeeze {w : Text} (h : IsArrow w) :
    ∃ a : Arrow, a.spelling = squeeze w
      ∧ (∀ t, Apart t → Arrow.read? (squeeze w ++ t) = some (a, t))
      ∧ Text.peel (a.label.getD []) = squeeze (arrowLabel w) := by
  obtain ⟨shaft, label, rfl, -, hchars, hbar, hagain⟩ := h.exists_shaft
  have hspace : ' ' ∉ shaft := fun hmem => absurd (hchars _ hmem) (by decide)
  have hnobar : '|' ∉ shaft := fun hmem => absurd (hchars _ hmem) (by decide)
  have hkept : ∀ l ∈ label.map squeeze, '|' ∉ l := by
    intro l hl hmem
    obtain ⟨k, hk, rfl⟩ := Option.map_eq_some_iff.1 hl
    exact hbar k hk (mem_of_mem_squeeze hmem)
  refine ⟨{ shaft := shaft, label := label.map squeeze },
    (Arrow.squeeze_spelling hspace label).symm, ?_, ?_⟩
  · intro t ht
    have hshaft := hagain _ (Arrow.head?_labelSpelling_append (label.map squeeze)
      fun c hc => ht c hc ▸ by decide)
    have hlabel := Arrow.readLabel_again hkept fun c hc => ht c hc ▸ (by decide : ' ' ≠ '|')
    rw [Arrow.squeeze_spelling hspace, List.append_assoc, Arrow.read?, hshaft, Option.map_some]
    simp only [hlabel]
  · rw [Arrow.arrowLabel_spelling hnobar hbar, ← peel_squeeze]
    cases label <;> rfl

-- =============================================================== finding

/-- No arrow is found exactly if no shaft begins anywhere. -/
theorem findArrow?_eq_none_iff {s : Text} : findArrow? s = none ↔ Shaftless s := by
  induction s with
  | nil =>
      refine ⟨fun _ m hm h => ?_, fun _ => rfl⟩
      rw [List.infix_nil.1 h] at hm
      exact absurd hm (by decide)
  | cons c s ih =>
      have hcons : findArrow? (c :: s) = none
          ↔ Arrow.read? (c :: s) = none ∧ findArrow? s = none := by
        rw [findArrow?]
        cases Arrow.read? (c :: s) with
        | none => simp
        | some found => simp
      rw [hcons, Arrow.read?_eq_none_iff, ih]
      unfold Shaftless
      simp only [List.infix_cons_iff, not_or, imp_and, forall_and]

/-- An arrow is found where it is read. -/
theorem findArrow?_of_read? {s rest : Text} {a : Arrow} (h : Arrow.read? s = some (a, rest)) :
    findArrow? s = some ([], a, rest) := by
  cases s with
  | nil => cases h
  | cons c s => rw [findArrow?, h]

/-- Behind a text in which no shaft begins, and a character that shafts do
not begin with, arrows are found where they are. -/
theorem findArrow?_append {s : Text} (hs : Shaftless s) {c : Char}
    (hc : ∀ m ∈ shaftMarks, c ∉ m) (t : Text) :
    findArrow? (s ++ c :: t)
      = (findArrow? t).map fun (before, a, rest) => (s ++ c :: before, a, rest) := by
  -- none begins in the text and ends behind the character
  have hnone : ∀ u, u <:+: s → Arrow.read? (u ++ c :: t) = none := by
    intro u hu
    rw [Arrow.read?_eq_none_iff]
    intro m hm hbegins
    have hinside := Text.prefix_of_prefix_append_cons (hc m hm) hbegins
    exact hs m hm (hinside.isInfix.trans hu)
  clear hs
  induction s with
  | nil =>
      have hhead := hnone [] List.infix_rfl
      rw [List.nil_append] at hhead ⊢
      rw [findArrow?, hhead]
      rfl
  | cons d s ih =>
      have hhead := hnone (d :: s) List.infix_rfl
      rw [List.cons_append] at hhead ⊢
      rw [findArrow?, hhead, ih fun u hu => hnone u (List.infix_cons hu)]
      cases findArrow? t <;> rfl

/-- In a text in which a shaft begins, an arrow is found, whatever
follows. -/
theorem exists_findArrow? {s : Text} (hs : ¬ Shaftless s) (t : Text) :
    ∃ before a rest, findArrow? (s ++ t) = some (before, a, rest) ∧ before <+: s := by
  induction s with
  | nil => exact absurd (findArrow?_eq_none_iff.1 rfl) hs
  | cons c s ih =>
      rw [List.cons_append]
      cases hread : Arrow.read? (c :: (s ++ t)) with
      | some found =>
          obtain ⟨a, rest⟩ := found
          exact ⟨[], a, rest, findArrow?_of_read? hread, List.nil_prefix⟩
      | none =>
          have hrest : ¬ Shaftless s := by
            intro hrest
            refine hs fun m hm hoccurs => ?_
            rcases List.infix_cons_iff.1 hoccurs with hbegins | hoccurs
            · exact Arrow.read?_eq_none_iff.1 hread m hm
                (hbegins.trans (List.prefix_append (c :: s) t))
            · exact hrest m hm hoccurs
          obtain ⟨before, a, rest, hfound, hbefore⟩ := ih hrest
          refine ⟨c :: before, a, rest, ?_, List.cons_prefix_cons.2 ⟨rfl, hbefore⟩⟩
          rw [findArrow?, hread, hfound]
          rfl

/-- A shaft begins on neither side of a character that shafts do not begin
with. -/
theorem Shaftless.append_cons {s t : Text} (hs : Shaftless s) (ht : Shaftless t) {c : Char}
    (hc : ∀ m ∈ shaftMarks, c ∉ m) : Shaftless (s ++ c :: t) := by
  intro m hm hoccurs
  rcases Text.infix_of_infix_append_cons (hc m hm) hoccurs with hoccurs | hoccurs
  · exact hs m hm hoccurs
  · exact ht m hm hoccurs

/-- No shaft begins where there is neither a dash nor an equals sign. -/
theorem shaftless_of_forall {s : Text} (hs : ∀ c ∈ s, c ≠ '-' ∧ c ≠ '=') : Shaftless s := by
  intro m hm hoccurs
  have hstroke : ∀ m ∈ shaftMarks, '-' ∈ m ∨ '=' ∈ m := by decide
  rcases hstroke m hm with hmem | hmem
  · exact (hs _ (hoccurs.subset hmem)).1 rfl
  · exact (hs _ (hoccurs.subset hmem)).2 rfl

end FreeLabel.Flow
