/-
The allocator's search ends at a free candidate, and at the first one.

# Why the bound is enough

`firstFree` gives up after as many refusals as there are issued
identifiers and takes the next candidate unseen. That candidate is free
all the same: only an issued identifier is ever refused
(`mem_used_of_refused`), no two candidates are equal
(`candidate_injective`), so that many refusals use up all issued
identifiers (`exists_isFreeFor`).

What later proofs cite is `choose_eq_candidate`, which says all of this
of `choose` without the search: an index, free, with no free index below
it. Two allocators that agree on which candidates are free therefore
choose alike (`choose_eq_of_first`).
-/
import FreeLabel.Naming.Allocator

namespace FreeLabel.Naming.Allocator

-- =========================================================== candidates

/-- Different numbers are written differently. -/
private theorem ofNat_injective {m n : Nat}
    (h : Text.ofNat m = Text.ofNat n) : m = n := by
  have hm := Nat.ofDigitChars_ten_toDigits (n := m)
  have hn := Nat.ofDigitChars_ten_toDigits (n := n)
  unfold Text.ofNat at h
  rw [h, hn] at hm
  exact hm.symm

/-- A number has a digit. -/
private theorem ofNat_ne_nil (n : Nat) : Text.ofNat n ≠ [] := by
  unfold Text.ofNat
  exact Nat.toDigits_ne_nil

/-- No candidate occurs twice among those for a base. -/
theorem candidate_injective {base : Text} {i j : Nat}
    (h : candidate base i = candidate base j) : i = j := by
  cases i with
  | zero =>
      cases j with
      | zero => rfl
      | succ j =>
          have hnil := List.self_eq_append_right.1 h
          exact absurd hnil (ofNat_ne_nil _)
  | succ i =>
      cases j with
      | zero =>
          have hnil := List.append_right_eq_self.1 h
          exact absurd hnil (ofNat_ne_nil _)
      | succ j =>
          have hnum := ofNat_injective (List.append_cancel_left h)
          omega

-- =============================================================== search

/-- The search without a bound on its tries: from candidate `k` on it ends
at a candidate after so many tries. -/
inductive Finds (free : Text → Bool) (base : Text) : (k tries : Nat) → Text → Prop
  /-- The first one tried is free. -/
  | free {k : Nat} (h : free (candidate base k) = true) :
      Finds free base k 1 (candidate base k)
  /-- It is not, and the search goes on behind it. -/
  | refused {k tries : Nat} {id : Text} (h : free (candidate base k) = false)
      (rest : Finds free base (k + 1) tries id) : Finds free base k (tries + 1) id

/-- It ends at the first candidate that is free. -/
theorem finds_candidate {free : Text → Bool} {base : Text} {k n : Nat}
    (hbelow : ∀ i < n, free (candidate base (k + i)) = false)
    (hlast : free (candidate base (k + n)) = true) :
    Finds free base k (n + 1) (candidate base (k + n)) := by
  induction n generalizing k with
  | zero => exact .free hlast
  | succ n ih =>
      have hshift : ∀ i, k + (i + 1) = k + 1 + i := by omega
      rw [hshift] at hlast ⊢
      refine .refused (hbelow 0 (by omega)) (ih ?_ hlast)
      intro i hi
      rw [← hshift]
      exact hbelow (i + 1) (by omega)

/-- Where the search ends: at some candidate, behind refused ones, and
unless it ran out of tries that candidate is free. -/
theorem firstFree_eq_candidate (free : Text → Bool) (base : Text)
    (tries k : Nat) :
    ∃ j ≤ tries, firstFree free base tries k = candidate base (k + j)
      ∧ (∀ i < j, free (candidate base (k + i)) = false)
      ∧ (j < tries → free (candidate base (k + j)) = true) := by
  induction tries generalizing k with
  | zero => exact ⟨0, by simp, by simp [firstFree], by simp, by simp⟩
  | succ tries ih =>
      by_cases hfree : free (candidate base k) = true
      · refine ⟨0, by simp, ?_, by simp, fun _ => hfree⟩
        rw [firstFree, if_pos hfree]
        rfl
      · obtain ⟨j, hj, heq, hbelow, hlast⟩ := ih (k + 1)
        have hshift : ∀ i, k + 1 + i = k + (i + 1) := by omega
        refine ⟨j + 1, by omega, ?_, ?_, ?_⟩
        · rw [firstFree, if_neg hfree, heq, hshift]
        · intro i hi
          cases i with
          | zero => simpa using hfree
          | succ i =>
              rw [← hshift]
              exact hbelow i (by omega)
        · intro hlt
          rw [← hshift]
          exact hlast (by omega)

variable {a : Allocator} {name : Text}

/-- Only an issued identifier is refused. -/
theorem mem_used_of_refused {id : Text} (h : a.isFreeFor name id = false) :
    id ∈ a.used := by
  unfold isFreeFor at h
  rw [Bool.or_eq_false_iff] at h
  simpa using h.1

/-- As many refusals as there are issued identifiers, and one more, there
are not. -/
theorem exists_isFreeFor (a : Allocator) (name base : Text) :
    ∃ k ≤ a.used.length, a.isFreeFor name (candidate base k) = true := by
  apply Classical.byContradiction
  intro hnone
  have hrefused : ∀ k ≤ a.used.length,
      a.isFreeFor name (candidate base k) = false := by
    intro k hk
    cases hfree : a.isFreeFor name (candidate base k) with
    | false => rfl
    | true => exact absurd ⟨k, hk, hfree⟩ hnone
  -- the refused candidates are pairwise different issued identifiers
  have hnodup : ((List.range (a.used.length + 1)).map (candidate base)).Nodup := by
    rw [List.nodup_iff_pairwise_ne, List.pairwise_map]
    refine List.nodup_range.imp ?_
    intro i j hne heq
    exact hne (candidate_injective heq)
  have hsubset : (List.range (a.used.length + 1)).map (candidate base)
      ⊆ a.used := by
    intro id hid
    obtain ⟨k, hk, rfl⟩ := List.mem_map.1 hid
    rw [List.mem_range] at hk
    exact mem_used_of_refused (hrefused k (by omega))
  have hlen := hnodup.length_le_of_subset hsubset
  rw [List.length_map, List.length_range] at hlen
  omega

/-- The base of the candidates for a name. -/
def base (name : Text) (minLength : Nat) : Text :=
  padTo minLength (identifier name)

/-- A candidate is as long as was asked for. -/
theorem le_length_candidate (name : Text) (minLength k : Nat) :
    minLength ≤ (candidate (base name minLength) k).length := by
  have hbase : minLength ≤ (base name minLength).length := by
    unfold base padTo
    rw [List.length_append, List.length_replicate]
    omega
  cases k with
  | zero => exact hbase
  | succ k =>
      rw [candidate, List.length_append]
      omega

/-- What is chosen for a name: the first of its candidates that is free,
found among one more candidates than there are issued identifiers. -/
theorem choose_eq_candidate (a : Allocator) (name : Text) (minLength : Nat) :
    ∃ k ≤ a.used.length,
      a.choose name minLength = candidate (base name minLength) k
        ∧ (∀ i < k,
            a.isFreeFor name (candidate (base name minLength) i) = false)
        ∧ a.isFreeFor name (candidate (base name minLength) k) = true := by
  obtain ⟨k, hk, heq, hbelow, hlast⟩ :=
    firstFree_eq_candidate (a.isFreeFor name) (base name minLength)
      a.used.length 0
  simp only [Nat.zero_add] at heq hbelow hlast
  refine ⟨k, hk, heq, hbelow, ?_⟩
  by_cases hlt : k < a.used.length
  · exact hlast hlt
  · -- all tries were refused: the free one that exists is the one left
    obtain ⟨m, hm, hfree⟩ :=
      exists_isFreeFor a name (base name minLength)
    have hkm : ¬ m < k := by
      intro hmk
      rw [hbelow m hmk] at hfree
      cases hfree
    have hmk : m = k := by omega
    exact hmk ▸ hfree

/-- What is chosen for a name is free for it. -/
theorem isFreeFor_choose (a : Allocator) (name : Text) (minLength : Nat) :
    a.isFreeFor name (a.choose name minLength) = true := by
  obtain ⟨k, -, heq, -, hfree⟩ := choose_eq_candidate a name minLength
  rw [heq]
  exact hfree

/-- An allocator chooses as another one did if what that one refused is
refused still and what it chose is free. -/
theorem choose_eq_of_first {a b : Allocator} {name : Text} {minLength : Nat}
    (hrefused : ∀ id, a.isFreeFor name id = false →
      b.isFreeFor name id = false)
    (hfree : b.isFreeFor name (a.choose name minLength) = true) :
    b.choose name minLength = a.choose name minLength := by
  obtain ⟨i, -, hi, hbelowi, -⟩ := choose_eq_candidate a name minLength
  obtain ⟨j, -, hj, hbelowj, hfreej⟩ := choose_eq_candidate b name minLength
  rw [hi] at hfree ⊢
  rw [hj]
  rcases Nat.lt_trichotomy i j with hlt | heq | hgt
  · rw [hbelowj i hlt] at hfree
    cases hfree
  · rw [heq]
  · rw [hrefused _ (hbelowi j hgt)] at hfreej
    cases hfreej

end FreeLabel.Naming.Allocator
