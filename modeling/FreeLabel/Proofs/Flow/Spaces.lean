/-
Runs of spaces made one. A text and its squeezed form begin and end alike
and differ in no character but in spaces, so reading a squeezed text is
squeezing what is read: put together (`squeeze_append`), trimmed
(`trim_squeeze`), without its quotes (`peel_squeeze`), and searched for a
pair that begins with no space (`pair_infix_squeeze_iff`).
-/
import FreeLabel.Flow.Translate
import FreeLabel.Proofs.Text.Span

namespace FreeLabel.Flow

open Text (trim)

variable {a b s : Text} {c : Char}

/-- A space before a space is dropped, and nothing else is. -/
theorem squeeze_cons (c : Char) (s : Text) :
    squeeze (c :: s)
      = if c = ' ' ∧ s.head? = some ' ' then squeeze s else c :: squeeze s := by
  cases s with
  | nil =>
      rw [if_neg (by simp)]
      by_cases hc : c = ' '
      · rw [hc]
        rfl
      · rw [squeeze]
        simp [hc]
  | cons d s =>
      by_cases h : c = ' ' ∧ d = ' '
      · obtain ⟨rfl, rfl⟩ := h
        rw [if_pos ⟨rfl, rfl⟩, squeeze]
      · rw [if_neg (by simpa using h), squeeze]
        simpa using h

theorem mem_of_mem_squeeze (h : c ∈ squeeze s) : c ∈ s := by
  induction s with
  | nil => exact h
  | cons d s ih =>
      rw [squeeze_cons] at h
      split at h
      next => exact List.mem_cons_of_mem d (ih h)
      next =>
        rcases List.mem_cons.1 h with rfl | h
        · exact List.mem_cons_self
        · exact List.mem_cons_of_mem d (ih h)

@[simp] theorem head?_squeeze (s : Text) : (squeeze s).head? = s.head? := by
  induction s with
  | nil => rfl
  | cons d s ih =>
      rw [squeeze_cons]
      split
      next h => rw [ih, h.2, h.1, List.head?_cons]
      next => rfl

theorem squeeze_eq_self (hs : ' ' ∉ s) : squeeze s = s := by
  induction s with
  | nil => rfl
  | cons d s ih =>
      have hd : ¬ d = ' ' := fun h => hs (h ▸ List.mem_cons_self)
      rw [squeeze_cons, if_neg fun h => hd h.1, ih fun h => hs (List.mem_cons_of_mem d h)]

@[simp] theorem getLast?_squeeze (s : Text) : (squeeze s).getLast? = s.getLast? := by
  induction s with
  | nil => rfl
  | cons d s ih =>
      rw [squeeze_cons]
      split
      next h =>
        cases s with
        | nil => simp at h
        | cons e s => rw [ih, List.getLast?_cons_cons]
      next => rw [List.getLast?_cons, List.getLast?_cons, ih]

/-- Texts are squeezed one by one if no run of spaces goes on from one to
the other. -/
theorem squeeze_append (h : a.getLast? ≠ some ' ' ∨ b.head? ≠ some ' ') :
    squeeze (a ++ b) = squeeze a ++ squeeze b := by
  induction a with
  | nil => rfl
  | cons d a ih =>
      cases a with
      | nil =>
          have hd : ¬ (d = ' ' ∧ b.head? = some ' ') := by
            rintro ⟨rfl, hb⟩
            exact h.elim (fun ha => ha rfl) fun hb' => hb' hb
          rw [List.singleton_append, squeeze_cons, if_neg hd, squeeze_cons, if_neg (by simp)]
          rfl
      | cons e a =>
          rw [List.cons_append, squeeze_cons, squeeze_cons, ih h, List.cons_append,
            List.head?_cons, List.head?_cons]
          split <;> rfl

-- =============================================================== trimming

theorem isBlank_of_mem_squeeze (h : ∀ c ∈ a, isBlank c = true) :
    ∀ c ∈ squeeze a, isBlank c = true :=
  fun c hc => h c (mem_of_mem_squeeze hc)

/-- What is trimmed is squeezed by itself. -/
theorem trim_squeeze (s : Text) : trim (squeeze s) = squeeze (trim s) := by
  obtain ⟨a, b, ha, hb, htrim, hs⟩ := Text.exists_trim s
  generalize trim s = t at htrim hs
  obtain ⟨hhead, hlast⟩ := Text.trim_eq_self_iff.1 htrim
  have hkept : trim (squeeze t) = squeeze t := by
    rw [Text.trim_eq_self_iff, head?_squeeze, getLast?_squeeze]
    exact ⟨hhead, hlast⟩
  cases t with
  | nil =>
      rw [hs]
      have hall := Text.trim_append (a := squeeze (a ++ b)) (b := []) (s := []) ?_ (by simp) rfl
      · simpa [squeeze] using hall
      · exact isBlank_of_mem_squeeze fun c hc => (List.mem_append.1 hc).elim (ha c) (hb c)
  | cons d t =>
      have hd : (d :: t ++ b).head? ≠ some ' ' := by
        rintro h
        cases h
        exact absurd (hhead ' ' rfl) (by decide)
      have he : (d :: t).getLast? ≠ some ' ' := by
        intro h
        exact absurd (hlast ' ' h) (by decide)
      rw [hs, squeeze_append (.inr hd), squeeze_append (.inl he)]
      exact Text.trim_append (isBlank_of_mem_squeeze ha) (isBlank_of_mem_squeeze hb) hkept

/-- The quotes around a text are not part of a run of spaces. -/
theorem peel_squeeze (s : Text) : Text.peel (squeeze s) = squeeze (Text.peel s) := by
  unfold Text.peel
  rw [trim_squeeze]
  cases trim s with
  | nil => rfl
  | cons d t =>
      by_cases hd : d = '"'
      · subst hd
        have hcons : squeeze ('"' :: t) = '"' :: squeeze t := by simp [squeeze_cons]
        rw [hcons]
        simp only [getLast?_squeeze]
        split
        next hlast =>
          obtain ⟨u, rfl⟩ := List.getLast?_eq_some_iff.1 hlast
          rw [squeeze_append (.inr (by simp))]
          simp [squeeze]
        next => exact hcons.symm
      · split
        next inner h =>
          have hhead := head?_squeeze (d :: t)
          rw [h] at hhead
          cases hhead
          exact absurd rfl hd
        next =>
          split
          next inner h =>
            cases h
            exact absurd rfl hd
          next => rfl

-- ============================================================ occurrences

/-- Two characters of which the first is no space stand side by side in a
squeezed text where they do in the text. -/
theorem pair_infix_squeeze_iff {x y : Char} (hx : x ≠ ' ') :
    [x, y] <:+: squeeze s ↔ [x, y] <:+: s := by
  induction s with
  | nil => exact Iff.rfl
  | cons d s ih =>
      have hhead : ∀ t : Text, [x, y] <+: d :: t ↔ x = d ∧ t.head? = some y := by
        intro t
        rw [List.cons_prefix_cons]
        refine and_congr_right fun _ => ?_
        cases t with
        | nil => simp
        | cons e t => simp [eq_comm]
      rw [squeeze_cons, List.infix_cons_iff, hhead, ← ih]
      split
      next h =>
        have hnot : ¬ (x = d ∧ s.head? = some y) := by
          rintro ⟨rfl, -⟩
          exact hx h.1
        simp [hnot]
      next => rw [List.infix_cons_iff, hhead, head?_squeeze]

end FreeLabel.Flow
