/-
Kinds of characters, compared. Identifier characters are ASCII, above the
space and below the last sign; so they are neither blank nor any of the
marks that scanners stop at. Letters and digits are among them, and none
is both.
-/
import FreeLabel.Text.Blank
import FreeLabel.Text.Fold

namespace FreeLabel

/-- A character of one kind is none that is not of that kind. -/
theorem ne_of_kind {p : Char → Bool} {c d : Char} (h : p c = true) (hd : p d = false) :
    c ≠ d := by
  intro heq
  rw [heq, hd] at h
  cases h

theorem isIdentChar_of_isAsciiAlnum {c : Char} (h : isAsciiAlnum c = true) :
    isIdentChar c = true := by
  unfold isAsciiAlnum at h
  rw [isIdentChar, h, Bool.true_or]

theorem isAsciiAlnum_iff {c : Char} :
    isAsciiAlnum c = true ↔ isAsciiLetter c = true ∨ c.isDigit = true :=
  Bool.or_eq_true_iff

theorem isIdentChar_of_isAsciiLetter {c : Char} (h : isAsciiLetter c = true) :
    isIdentChar c = true :=
  isIdentChar_of_isAsciiAlnum (isAsciiAlnum_iff.2 (.inl h))

theorem isIdentChar_of_isDigit {c : Char} (h : c.isDigit = true) : isIdentChar c = true :=
  isIdentChar_of_isAsciiAlnum (isAsciiAlnum_iff.2 (.inr h))

theorem isDigit_of_isAsciiLetter {c : Char} (h : isAsciiLetter c = true) :
    c.isDigit = false := by
  cases hdigit : c.isDigit with
  | false => rfl
  | true =>
      change (decide (c.val ≥ 65 ∧ c.val ≤ 90) ||
        (decide (c.val ≥ 97) && decide (c.val ≤ 122))) = true at h
      change (decide (c.val ≥ 48) && decide (c.val ≤ 57)) = true at hdigit
      simp only [Bool.or_eq_true, Bool.and_eq_true, decide_eq_true_eq, ge_iff_le,
        UInt32.le_iff_toNat_le] at h hdigit
      have hlast : c.val.toNat ≤ 57 := hdigit.2
      rcases h with ⟨hcapital, -⟩ | ⟨hsmall, -⟩
      · have hfirst : 65 ≤ c.val.toNat := hcapital
        omega
      · have hfirst : 97 ≤ c.val.toNat := hsmall
        omega

theorem isBlank_of_isIdentChar {c : Char} (h : isIdentChar c = true) :
    isBlank c = false := by
  have hrange := toNat_of_isIdentChar h
  unfold isBlank
  simp
  omega

/-- No blank belongs to a word. -/
theorem isWordChar_of_isBlank {c : Char} (h : isBlank c = true) : isWordChar c = false := by
  unfold isWordChar
  split
  next =>
    cases hident : isIdentChar c with
    | false => rfl
    | true =>
        rw [isBlank_of_isIdentChar hident] at h
        cases h
  next hlarge =>
    -- the blanks above ASCII, one by one
    have hmem : c.toNat ∈ [0x85, 0xA0, 0x1680, 0x2000, 0x2001, 0x2002, 0x2003, 0x2004, 0x2005,
        0x2006, 0x2007, 0x2008, 0x2009, 0x200A, 0x2028, 0x2029, 0x202F, 0x205F, 0x3000] := by
      unfold isBlank at h
      simp at h ⊢
      omega
    have hnone : ∀ n ∈ [0x85, 0xA0, 0x1680, 0x2000, 0x2001, 0x2002, 0x2003, 0x2004, 0x2005,
        0x2006, 0x2007, 0x2008, 0x2009, 0x200A, 0x2028, 0x2029, 0x202F, 0x205F, 0x3000],
        Text.inRanges Text.letterRanges n = false := by decide +kernel
    exact hnone _ hmem

/-- A blank is read as itself. -/
theorem foldCase_of_isBlank {c : Char} (h : isBlank c = true) : foldCase c = c := by
  have hother : ∀ d : Char, isBlank d = false → (c == d) = false := by
    intro d hd
    rw [beq_eq_false_iff_ne]
    rintro rfl
    rw [hd] at h
    cases h
  have hcapital : ¬ (c.val ≥ 'A'.val ∧ c.val ≤ 'Z'.val) := by
    rw [ge_iff_le, UInt32.le_iff_toNat_le, UInt32.le_iff_toNat_le]
    have hval : c.val.toNat = c.toNat := rfl
    have hA : 'A'.val.toNat = 65 := rfl
    have hZ : 'Z'.val.toNat = 90 := rfl
    unfold isBlank at h
    simp at h
    omega
  unfold foldCase
  rw [hother 'ſ' (by decide), hother '\u212A' (by decide), hother 'ı' (by decide),
    hother 'İ' (by decide)]
  simp only [Bool.false_eq_true, if_false, Bool.or_false]
  unfold Char.toLower
  rw [dif_neg hcapital]

end FreeLabel
