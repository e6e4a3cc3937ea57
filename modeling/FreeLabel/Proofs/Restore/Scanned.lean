/-
What putting names into a text does, said without the order in which
identifiers are tried.

# The scan

`Scanned l s t` is the scan itself: where an identifier of the legend `l`
begins in `s`, the name of the longest one that does stands in `t`; where
none begins, one character is copied. Nothing else is asked, in particular
not in which order the legend was made. `substitute_eq_iff` says that the
scan has one outcome, and that it is the one computed. The legend may not
hold the empty identifier; no pass issues it.

# What it leaves alone

A text that is an identifier becomes that identifier's name
(`substitute_id`), whatever other identifiers it holds. A text in which
every identifier that occurs stands for itself stays as it is
(`substitute_eq_self`), and so does one in which none occurs. For any
other text it depends on how the scan cuts it up: `Scanned l s s` is the
exact condition.
-/
import FreeLabel.Proofs.Text.Span
import FreeLabel.Restore.Substitution

namespace FreeLabel

namespace Naming.Legend

-- ============================================================== entries

/-- What an identifier stands for is entered, and only once. -/
theorem get?_eq_some_iff {l : Legend} {id name : Text} :
    l.get? id = some name ↔ (id, name) ∈ l.entries := by
  constructor
  · intro h
    obtain ⟨before, after, heq, -⟩ := List.lookup_eq_some_iff.1 h
    rw [heq]
    simp
  · intro h
    cases hget : l.get? id with
    | none =>
        have hid := Legend.get?_eq_none_iff.1 hget
        exact absurd (List.mem_map.2 ⟨_, h, rfl⟩) hid
    | some held =>
        obtain ⟨before, after, heq, hfirst⟩ := List.lookup_eq_some_iff.1 hget
        have hnodup := l.nodup_ids
        rw [heq, List.map_append, List.map_cons, List.nodup_append] at hnodup
        rw [heq] at h
        rcases List.mem_append.1 h with h | h
        · exact absurd (hfirst _ h) (by simp)
        · rcases List.mem_cons.1 h with h | h
          · rw [(Prod.mk.inj h).2]
          · have hlater : id ∈ after.map Prod.fst := List.mem_map.2 ⟨_, h, rfl⟩
            exact absurd hlater (List.nodup_cons.1 hnodup.2.1).1

theorem exists_get?_of_mem_ids {l : Legend} {id : Text} (h : id ∈ l.ids) :
    ∃ name, l.get? id = some name := by
  obtain ⟨⟨_, name⟩, hmem, rfl⟩ := List.mem_map.1 h
  exact ⟨name, get?_eq_some_iff.2 hmem⟩

theorem mem_ids_of_get? {l : Legend} {id name : Text} (h : l.get? id = some name) :
    id ∈ l.ids :=
  List.mem_map.2 ⟨_, get?_eq_some_iff.1 h, rfl⟩

/-- Longer identifiers are tried before shorter ones. -/
theorem pairwise_longestFirst (l : Legend) :
    l.longestFirst.Pairwise fun a b => b.1.length ≤ a.1.length := by
  have hsorted := @List.pairwise_mergeSort (Text × Text)
    (fun a b => decide (b.1.length ≤ a.1.length))
    (by intro a b c; simp; omega) (by intro a b; simp; omega) l.entries
  exact hsorted.imp fun h => of_decide_eq_true h

theorem mem_longestFirst {l : Legend} {e : Text × Text} :
    e ∈ l.longestFirst ↔ e ∈ l.entries := List.mem_mergeSort

end Naming.Legend

namespace Restore

open Naming (Legend)

-- ============================================================== the scan

/-- No identifier begins at the head of `s`. -/
def NoneAt (l : Legend) (s : Text) : Prop := ∀ id ∈ l.ids, ¬ id <+: s

/-- The longest identifier that begins at the head of `s` is `id`, and it
stands for `name`. -/
structure LongestAt (l : Legend) (s id name : Text) : Prop where
  held : l.get? id = some name
  begins : id <+: s
  longest : ∀ other ∈ l.ids, other <+: s → other.length ≤ id.length

/-- Scanning `s` once, from left to right, yields `t`. -/
inductive Scanned (l : Legend) : Text → Text → Prop
  /-- Nothing is left. -/
  | nil : Scanned l [] []
  /-- An identifier begins, and its name is put in. -/
  | name {id name s t : Text} (at_ : LongestAt l (id ++ s) id name) (rest : Scanned l s t) :
      Scanned l (id ++ s) (name ++ t)
  /-- No identifier begins, and a character is copied. -/
  | char {c : Char} {s t : Text} (none : NoneAt l (c :: s)) (rest : Scanned l s t) :
      Scanned l (c :: s) (c :: t)

variable {l : Legend} {s t id name : Text}

/-- Only one identifier is the longest. -/
theorem LongestAt.eq {id' name' : Text} (h : LongestAt l s id name)
    (h' : LongestAt l s id' name') : id = id' ∧ name = name' := by
  have hle := h'.longest id (Legend.mem_ids_of_get? h.held) h.begins
  have hge := h.longest id' (Legend.mem_ids_of_get? h'.held) h'.begins
  obtain rfl : id = id' := by
    rw [List.prefix_iff_eq_take.1 h.begins, List.prefix_iff_eq_take.1 h'.begins,
      Nat.le_antisymm hle hge]
  refine ⟨rfl, ?_⟩
  have := h.held
  rw [h'.held] at this
  exact (Option.some.inj this).symm

/-- A text that is an identifier begins with no longer one. -/
theorem longestAt_of_id (h : l.get? id = some name) : LongestAt l (id ++ []) id name := by
  refine ⟨h, List.prefix_append _ _, ?_⟩
  intro other _ hprefix
  simpa using hprefix.length_le

-- ========================================================= one place

variable (hne : [] ∉ l.ids)

include hne in
/-- No entry is found where no identifier begins. -/
theorem firstAt?_eq_none_iff : firstAt? l.longestFirst s = none ↔ NoneAt l s := by
  unfold firstAt? NoneAt
  rw [List.findSome?_eq_none_iff]
  constructor
  · intro h id hid hprefix
    obtain ⟨name, hname⟩ := Legend.exists_get?_of_mem_ids hid
    have hmem := Legend.mem_longestFirst.2 (Legend.get?_eq_some_iff.1 hname)
    have hnonempty : id ≠ [] := fun heq => hne (heq ▸ hid)
    have hnone := h _ hmem
    simp only [if_neg hnonempty, Option.map_eq_none_iff] at hnone
    exact Text.after?_eq_none_iff.1 hnone hprefix
  · intro h e he
    have hid : e.1 ∈ l.ids := List.mem_map.2 ⟨e, Legend.mem_longestFirst.1 he, rfl⟩
    have hnone := Text.after?_eq_none_iff.2 (h e.1 hid)
    simp [hnone]

include hne in
/-- The entry that is found is that of the longest identifier. -/
theorem longestAt_of_firstAt? {rest : Text}
    (h : firstAt? l.longestFirst s = some (name, rest)) :
    ∃ id, s = id ++ rest ∧ id ≠ [] ∧ LongestAt l s id name := by
  obtain ⟨before, ⟨id, n⟩, after, hsplit, hfound, hbefore⟩ :=
    List.findSome?_eq_some_iff.1 h
  simp only [Option.ite_none_left_eq_some, Option.map_eq_some_iff, Prod.mk.injEq]
    at hfound
  obtain ⟨hid, r, hr, rfl, rfl⟩ := hfound
  have hs := Text.after?_eq_some_iff.1 hr
  have hmem : (id, n) ∈ l.longestFirst := by
    rw [hsplit]
    simp
  refine ⟨id, hs, hid, Legend.get?_eq_some_iff.2 (Legend.mem_longestFirst.1 hmem),
    ⟨r, hs.symm⟩, ?_⟩
  intro other hother hprefix
  obtain ⟨m, hm⟩ := Legend.exists_get?_of_mem_ids hother
  have hwhere := Legend.mem_longestFirst.2 (Legend.get?_eq_some_iff.1 hm)
  have hsorted := l.pairwise_longestFirst
  rw [hsplit] at hwhere hsorted
  rcases List.mem_append.1 hwhere with hwhere | hwhere
  · -- an entry that was tried before does not begin here
    have hnonempty : other ≠ [] := fun heq => hne (heq ▸ hother)
    have hnone := hbefore _ hwhere
    simp only [if_neg hnonempty, Option.map_eq_none_iff] at hnone
    exact absurd hprefix (Text.after?_eq_none_iff.1 hnone)
  · rcases List.mem_cons.1 hwhere with hwhere | hwhere
    · exact Nat.le_of_eq (congrArg List.length (Prod.mk.inj hwhere).1)
    · exact (List.pairwise_cons.1 (List.pairwise_append.1 hsorted).2.1).1 _ hwhere

include hne in
theorem firstAt?_of_longestAt (h : LongestAt l (id ++ s) id name) :
    firstAt? l.longestFirst (id ++ s) = some (name, s) := by
  cases hfound : firstAt? l.longestFirst (id ++ s) with
  | none =>
      have hid := Legend.mem_ids_of_get? h.held
      exact absurd h.begins ((firstAt?_eq_none_iff hne).1 hfound id hid)
  | some found =>
      obtain ⟨name', rest⟩ := found
      obtain ⟨id', heq, -, hlongest⟩ := longestAt_of_firstAt? hne hfound
      obtain ⟨rfl, rfl⟩ := h.eq hlongest
      rw [List.append_cancel_left heq]

-- ============================================================ the whole

include hne in
/-- What is computed is the outcome of the scan. -/
theorem scanned_substitute (s : Text) : Scanned l s (substitute l.longestFirst [] s) := by
  induction hn : s.length using Nat.strongRecOn generalizing s with
  | _ n ih =>
      rw [substitute.eq_def]
      split
      · next name rest hfound =>
          have hlt := length_lt_of_firstAt? hfound
          obtain ⟨id, rfl, -, hlongest⟩ := longestAt_of_firstAt? hne hfound
          exact .name hlongest (ih _ (hn ▸ hlt) rest rfl)
      · next hnone =>
          split
          · exact .nil
          · next c s hnone =>
              refine .char ((firstAt?_eq_none_iff hne).1 hnone) (ih _ ?_ s rfl)
              rw [← hn]
              simp

include hne in
/-- The scan has one outcome. -/
theorem substitute_of_scanned (h : Scanned l s t) :
    substitute l.longestFirst [] s = t := by
  induction h with
  | nil =>
      have hnone : NoneAt l [] := by
        intro id hid hprefix
        exact hne (List.prefix_nil.1 hprefix ▸ hid)
      rw [substitute.eq_def]
      split
      · next hfound =>
          rw [(firstAt?_eq_none_iff hne).2 hnone] at hfound
          cases hfound
      · rfl
  | name hlongest _ ih =>
      rw [substitute.eq_def]
      split
      · next hfound =>
          rw [firstAt?_of_longestAt hne hlongest] at hfound
          cases hfound
          rw [ih]
      · next hnone =>
          rw [firstAt?_of_longestAt hne hlongest] at hnone
          cases hnone
  | char hnone _ ih =>
      rw [substitute.eq_def]
      split
      · next hfound =>
          rw [(firstAt?_eq_none_iff hne).2 hnone] at hfound
          cases hfound
      · simp only
        rw [ih]
        rfl

end Restore

namespace Naming.Legend

open Restore (Scanned longestAt_of_id scanned_substitute substitute_of_scanned)

variable {l : Legend} {s t : Text}

theorem substitute_eq (hne : [] ∉ l.ids) (s : Text) :
    l.substitute s = Restore.substitute l.longestFirst [] s := by
  unfold substitute
  split
  · next hs => rw [hs, substitute_of_scanned hne .nil]
  · rw [get?_eq_none_iff.2 hne]
    rfl

/-- Putting names into a text is scanning it. -/
theorem substitute_eq_iff (hne : [] ∉ l.ids) :
    l.substitute s = t ↔ Scanned l s t := by
  rw [substitute_eq hne]
  constructor
  · rintro rfl
    exact scanned_substitute hne s
  · exact substitute_of_scanned hne

/-- A text that is an identifier becomes its name. -/
theorem substitute_id (hne : [] ∉ l.ids) {id name : Text} (h : l.get? id = some name) :
    l.substitute id = name := by
  have hscan : Scanned l (id ++ []) (name ++ []) := .name (longestAt_of_id h) .nil
  simp only [List.append_nil] at hscan
  exact (substitute_eq_iff hne).2 hscan

/-- A text stays as it is if all identifiers that occur in it stand for
themselves. -/
theorem substitute_eq_self (hne : [] ∉ l.ids)
    (h : ∀ id ∈ l.ids, id <:+: s → l.get? id = some id) : l.substitute s = s := by
  have hself := scanned_substitute hne s
  rw [← substitute_eq hne] at hself
  generalize ht : l.substitute s = t at hself
  clear ht
  induction hself with
  | nil => rfl
  | @name id name s t hlongest _ ih =>
      have hid := h id (mem_ids_of_get? hlongest.held) hlongest.begins.isInfix
      rw [hlongest.held] at hid
      rw [Option.some.inj hid, ih]
      intro other hmem hoccurs
      exact h other hmem (hoccurs.trans (List.suffix_append _ _).isInfix)
  | @char c s t _ _ ih =>
      rw [ih]
      intro other hmem hoccurs
      exact h other hmem (hoccurs.trans (List.suffix_cons c s).isInfix)

/-- A legend without entries changes no text. -/
theorem substitute_of_isEmpty (h : l.entries.isEmpty = true) (s : Text) :
    l.substitute s = s := by
  have hids : l.ids = [] := by
    unfold ids
    rw [List.isEmpty_iff.1 h]
    rfl
  exact substitute_eq_self (by rw [hids]; simp) (by rw [hids]; simp)

end Naming.Legend

end FreeLabel
