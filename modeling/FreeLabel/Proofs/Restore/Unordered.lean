/-
Putting names into a text does not depend on the order in which the
legend was made.

# Entering

Entries can be made one after the other exactly if no identifier is given
two names, and what is entered in the end are the pairs that were to be
(`mem_entries_of_enter`, `exists_enter`). Neither asks in which order, so
pairs that make a legend make one in any order, with the same entries in
it (`ofList_perm`).

# Scanning

What the scan of a text does at a place, it does because of which
identifiers there are and what they stand for (`Scanned.of_same`). So two
legends with the same entries put the same names into a text, although the
longest-first lists that they are tried by may differ in the order of
identifiers of one length. `substitute_scans` says this together with what
the scan is.
-/
import FreeLabel.Proofs.Restore.Scanned

namespace FreeLabel

namespace Naming.Legend

-- =============================================================== entering

variable {l l' : Legend} {id name : Text} {pairs pairs' : List (Text × Text)}

/-- Two names of one identifier are the same. -/
theorem eq_of_mem_entries {name' : Text} (h : (id, name) ∈ l.entries)
    (h' : (id, name') ∈ l.entries) : name = name' := by
  have hheld := get?_eq_some_iff.2 h
  rw [get?_eq_some_iff.2 h'] at hheld
  exact (Option.some.inj hheld).symm

theorem mem_entries_of_assign (h : l.assign id name = .ok l') (e : Text × Text) :
    e ∈ l'.entries ↔ e ∈ l.entries ∨ e = (id, name) := by
  unfold assign at h
  split at h
  next =>
    cases h
    show e ∈ l.entries ++ [(id, name)] ↔ _
    rw [List.mem_append, List.mem_singleton]
  next held hheld =>
    split at h
    next heq =>
      cases h
      constructor
      · exact .inl
      · rintro (he | rfl)
        · exact he
        · exact get?_eq_some_iff.1 (heq ▸ hheld)
    next => cases h

theorem exists_assign (l : Legend) (id name : Text)
    (h : ∀ held, (id, held) ∈ l.entries → held = name) :
    ∃ l', l.assign id name = .ok l' := by
  unfold assign
  split
  next => exact ⟨_, rfl⟩
  next held hheld =>
    rw [if_pos (h held (get?_eq_some_iff.1 hheld))]
    exact ⟨l, rfl⟩

/-- The legend with pairs entered in order. -/
def enter (l : Legend) (pairs : List (Text × Text)) : Except Conflict Legend :=
  pairs.foldlM (fun l (id, name) => l.assign id name) l

/-- What is in a legend was there, or was entered. -/
theorem mem_entries_of_enter (h : l.enter pairs = .ok l') (e : Text × Text) :
    e ∈ l'.entries ↔ e ∈ l.entries ∨ e ∈ pairs := by
  induction pairs generalizing l with
  | nil =>
      cases h
      simp
  | cons pair pairs ih =>
      obtain ⟨id, name⟩ := pair
      unfold enter at h
      rw [List.foldlM_cons] at h
      cases hassign : l.assign id name with
      | error conflict =>
          simp only [hassign] at h
          cases h
      | ok next =>
          simp only [hassign] at h
          rw [ih h, mem_entries_of_assign hassign, List.mem_cons, or_assoc]

/-- Pairs can be entered if no identifier gets a second name. -/
theorem exists_enter (l : Legend) (pairs : List (Text × Text))
    (h : ∀ id name name', (id, name) ∈ l.entries ∨ (id, name) ∈ pairs →
      (id, name') ∈ pairs → name = name') : ∃ l', l.enter pairs = .ok l' := by
  induction pairs generalizing l with
  | nil => exact ⟨l, rfl⟩
  | cons pair pairs ih =>
      obtain ⟨id, name⟩ := pair
      obtain ⟨next, hassign⟩ := exists_assign l id name
        fun held hheld => h id held name (.inl hheld) List.mem_cons_self
      have hrest : ∃ l', next.enter pairs = .ok l' := by
        refine ih next fun id' name' name'' hfirst hsecond =>
          h id' name' name'' ?_ (List.mem_cons_of_mem _ hsecond)
        rw [mem_entries_of_assign hassign, or_assoc, ← List.mem_cons] at hfirst
        exact hfirst
      obtain ⟨l', hl'⟩ := hrest
      refine ⟨l', ?_⟩
      unfold enter
      rw [List.foldlM_cons]
      simp only [hassign]
      exact hl'

theorem mem_entries_of_ofList (h : ofList pairs = .ok l) (e : Text × Text) :
    e ∈ l.entries ↔ e ∈ pairs := by
  have hmem := mem_entries_of_enter (l := .empty) h e
  simpa [empty] using hmem

/-- Pairs that make a legend make one in any order, and the entries are the
same. -/
theorem ofList_perm (h : ofList pairs = .ok l) (hperm : pairs'.Perm pairs) :
    ∃ l', ofList pairs' = .ok l' ∧ ∀ e, e ∈ l'.entries ↔ e ∈ l.entries := by
  have hentry : ∀ e, e ∈ pairs' ↔ e ∈ l.entries := fun e =>
    hperm.mem_iff.trans (mem_entries_of_ofList h e).symm
  obtain ⟨l', hl'⟩ := exists_enter .empty pairs' <| by
    rintro id name name' (hnone | hfirst) hsecond
    · cases hnone
    · exact eq_of_mem_entries ((hentry _).1 hfirst) ((hentry _).1 hsecond)
  exact ⟨l', hl', fun e => (mem_entries_of_ofList hl' e).trans (hentry e)⟩

end Naming.Legend

namespace Restore

open Naming (Legend)

-- =============================================================== scanning

variable {l l' : Legend} {s t id name : Text}

section

variable (hsame : ∀ e, e ∈ l'.entries ↔ e ∈ l.entries)

include hsame

theorem mem_ids_iff_of_same : id ∈ l'.ids ↔ id ∈ l.ids := by
  unfold Legend.ids
  rw [List.mem_map, List.mem_map]
  exact exists_congr fun e => and_congr_left fun _ => hsame e

theorem LongestAt.of_same (h : LongestAt l s id name) : LongestAt l' s id name where
  held := Legend.get?_eq_some_iff.2 ((hsame _).2 (Legend.get?_eq_some_iff.1 h.held))
  begins := h.begins
  longest := fun other hother => h.longest other ((mem_ids_iff_of_same hsame).1 hother)

/-- The scan depends on what is entered, and not on when. -/
theorem Scanned.of_same (h : Scanned l s t) : Scanned l' s t := by
  induction h with
  | nil => exact .nil
  | name at_ _ ih => exact .name (at_.of_same hsame) ih
  | char none _ ih =>
      exact .char (fun id hid => none id ((mem_ids_iff_of_same hsame).1 hid)) ih

theorem substitute_of_same (hne : [] ∉ l.ids) (s : Text) : l'.substitute s = l.substitute s := by
  have hne' : [] ∉ l'.ids := fun hmem => hne ((mem_ids_iff_of_same hsame).1 hmem)
  rw [Legend.substitute_eq_iff hne']
  exact ((Legend.substitute_eq_iff hne).1 rfl).of_same hsame

end

/-- Putting names into a text is one scan of it: at each place the longest
identifier that begins there is replaced by its name, and the scan goes on
behind it; where none begins, a character is copied. So it does not matter
in which order the entries were made; a text that is an identifier becomes
its name, whatever other identifiers it holds; and a text in which no
identifier occurs stays as it is. -/
theorem substitute_scans (hne : [] ∉ l.ids) (s : Text) :
    (∀ t, l.substitute s = t ↔ Scanned l s t)
      ∧ (∀ l' : Legend, (∀ e, e ∈ l'.entries ↔ e ∈ l.entries) →
          l'.substitute s = l.substitute s)
      ∧ (∀ pairs pairs', Legend.ofList pairs = .ok l → pairs'.Perm pairs →
          ∃ l', Legend.ofList pairs' = .ok l' ∧ l'.substitute s = l.substitute s)
      ∧ (∀ name, l.get? s = some name → l.substitute s = name)
      ∧ ((∀ id ∈ l.ids, ¬ id <:+: s) → l.substitute s = s) := by
  refine ⟨fun t => Legend.substitute_eq_iff hne,
    fun l' hsame => substitute_of_same hsame hne s, ?_,
    fun name hname => Legend.substitute_id hne hname,
    fun hnone => Legend.substitute_eq_self hne fun id hid hoccurs =>
      absurd hoccurs (hnone id hid)⟩
  intro pairs pairs' hmade hperm
  obtain ⟨l', hl', hsame⟩ := Legend.ofList_perm hmade hperm
  exact ⟨l', hl', substitute_of_same hsame hne s⟩

/-- A legend with an identifier that begins with one other and ends with
another, and names that hold identifiers again. -/
def overlapping : Legend where
  entries := [("a".toList, "ab".toList), ("b".toList, "a".toList), ("ab".toList, "b a".toList)]
  nodup_ids := by decide

/-- The long identifier becomes its name, in whatever order the entries
were made, and the name is not looked at again. -/
theorem substitute_scans_overlapping :
    Legend.ofList overlapping.entries = .ok overlapping
      ∧ overlapping.get? "ab".toList = some "b a".toList
      ∧ Scanned overlapping "ab".toList "b a".toList
      ∧ ∃ l', Legend.ofList overlapping.entries.reverse = .ok l'
          ∧ l'.substitute "ab".toList = "b a".toList := by
  have hne : [] ∉ overlapping.ids := by decide
  have hmade : Legend.ofList overlapping.entries = .ok overlapping := by rfl
  have hheld : overlapping.get? "ab".toList = some "b a".toList := by decide
  obtain ⟨hscan, -, horder, hname, -⟩ := substitute_scans hne "ab".toList
  obtain ⟨l', hl', hsame⟩ := horder _ _ hmade (List.reverse_perm _)
  exact ⟨hmade, hheld, (hscan _).1 (hname _ hheld), l', hl', hsame.trans (hname _ hheld)⟩

end Restore

end FreeLabel
