/-
What is issued has the form of an identifier: a letter, and then letters,
digits and low lines, all ASCII.

Every candidate for a name is the identifier of the name with low lines
and digits behind it, and these may stand anywhere but at the head. So the
form is a fact about `identifier` alone, whose words consist of letters
and digits and are joined by low lines.
-/
import FreeLabel.Proofs.Naming.Search
import FreeLabel.Proofs.Naming.Words

namespace FreeLabel.Naming

-- ================================================================== form

/-- Whether a text has the form of an identifier. -/
def isIdentifier : Text → Bool
  | [] => false
  | c :: s => isAsciiLetter c && s.all isIdentChar

theorem isIdentifier_append {s t : Text} (hs : isIdentifier s = true)
    (ht : ∀ c ∈ t, isIdentChar c = true) : isIdentifier (s ++ t) = true := by
  cases s with
  | nil => cases hs
  | cons c s =>
      rw [isIdentifier, Bool.and_eq_true] at hs
      rw [List.cons_append, isIdentifier, hs.1, List.all_append, hs.2, Bool.true_and,
        Bool.true_and]
      exact List.all_eq_true.2 ht

/-- An identifier consists of characters that an identifier may hold. -/
theorem isIdentChar_of_isIdentifier {s : Text} (h : isIdentifier s = true) :
    s ≠ [] ∧ ∀ c ∈ s, isIdentChar c = true := by
  cases s with
  | nil => cases h
  | cons c s =>
      rw [isIdentifier, Bool.and_eq_true, List.all_eq_true] at h
      refine ⟨by simp, ?_⟩
      intro d hd
      rcases List.mem_cons.1 hd with rfl | hd
      · exact isIdentChar_of_isAsciiLetter h.1
      · exact h.2 d hd

/-- Joined words have the form of an identifier. -/
theorem IsJoinedWords.isIdentifier {s : Text} (h : IsJoinedWords s) : isIdentifier s = true := by
  obtain ⟨ws, -, hws, rfl, c, hc, hletter⟩ := h
  obtain ⟨cs, hcs⟩ := List.head?_eq_some_iff.1 hc
  have hrest : ∀ d ∈ cs, isIdentChar d = true := fun d hd =>
    isIdentChar_of_mem_intercalate hws (hcs ▸ List.mem_cons_of_mem c hd)
  rw [hcs, Naming.isIdentifier, hletter, List.all_eq_true.2 hrest]
  rfl

/-- The identifier of any name has the form of an identifier. -/
theorem isIdentifier_identifier (name : Text) : isIdentifier (identifier name) = true :=
  (isJoinedWords_identifier name).isIdentifier

namespace Allocator

/-- Every candidate for a name has the form of an identifier. -/
theorem isIdentifier_candidate (name : Text) (minLength k : Nat) :
    isIdentifier (candidate (base name minLength) k) = true := by
  have hbase : isIdentifier (base name minLength) = true := by
    apply isIdentifier_append (isIdentifier_identifier name)
    intro c hc
    rw [List.eq_of_mem_replicate hc]
    rfl
  cases k with
  | zero => exact hbase
  | succ k =>
      apply isIdentifier_append hbase
      intro c hc
      exact isIdentChar_of_isDigit (Nat.isDigit_of_mem_toDigits (by decide) (by decide) hc)

/-- What is issued has the form of an identifier. -/
theorem isIdentifier_choose (a : Allocator) (name : Text) (minLength : Nat) :
    isIdentifier (a.choose name minLength) = true := by
  obtain ⟨k, -, heq, -, -⟩ := choose_eq_candidate a name minLength
  rw [heq]
  exact isIdentifier_candidate name minLength k

end Allocator

end FreeLabel.Naming
