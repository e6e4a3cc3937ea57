/-
Files, before and after one of them is written.

# Places

Paths are followed through directories only. So nothing leads through a
file, whatever it holds, and when one has been written over, every path
finds the place that it found before (`SameTree.locate_eq`); there the new
file is found, and everywhere else what was there (`at?_put`).

# Paths

A path loses what says nothing in it, and leads where the text that wrote
it led (`locate_toText_ofText`). So a file that was found by a text is
written where it was found, and nothing else changes (`write_found`).
-/
import FreeLabel.Files.FileSystem
import FreeLabel.Proofs.Association
import FreeLabel.Proofs.Text.Span

namespace FreeLabel.FileSystem

-- ================================================================ places

variable {fs fs' : FileSystem} {here there place : Location} {content : Text.Bytes} {stamp : Nat}

/-- Putting something at a place changes what is there and nothing else. -/
theorem at?_put (fs : FileSystem) (hthere : there ≠ []) (e : Entry) (place : Location) :
    (fs.put there e).at? place = if place = there then some e else fs.at? place := by
  have hentries : (fs.put there e).entries
      = if (fs.entries.lookup there).isSome then
          fs.entries.map fun x => if x.1 = there then (there, e) else x
        else fs.entries ++ [(there, e)] := by
    unfold put
    split <;> rfl
  unfold at?
  rw [hentries, lookup_set]
  by_cases hroot : place = []
  · have hother : place ≠ there := fun heq => hthere (heq.symm.trans hroot)
    rw [if_pos hroot, if_pos hroot, if_neg hother]
  · rw [if_neg hroot, if_neg hroot]

theorem ne_nil_of_file (hfile : fs.at? there = some (.file content stamp)) : there ≠ [] := by
  rintro rfl
  rw [at?, if_pos rfl] at hfile
  cases hfile

/-- Two states of the files that differ at most in what files hold. -/
structure SameTree (fs fs' : FileSystem) : Prop where
  here : fs'.here = fs.here
  at_ : ∀ place, fs'.at? place = fs.at? place
    ∨ (∃ content stamp, fs.at? place = some (.file content stamp))
      ∧ ∃ content stamp, fs'.at? place = some (.file content stamp)

/-- No path depends on what files hold, because none leads through one. -/
theorem SameTree.follow_eq (h : SameTree fs fs') (here : Location) (parts : List Text) :
    fs'.follow here parts = fs.follow here parts := by
  induction parts generalizing here with
  | nil => rfl
  | cons part parts ih =>
      unfold follow
      rcases h.at_ here with hsame | ⟨⟨content, stamp, hfile⟩, content', stamp', hfile'⟩
      · rw [hsame, ih, ih]
      · rw [hfile, hfile']

theorem SameTree.locate_eq (h : SameTree fs fs') (t : Text) : fs'.locate t = fs.locate t := by
  unfold locate
  rw [h.here, h.follow_eq]

-- ================================================================= paths

/-- A path that leads somewhere goes on from a directory. -/
theorem at?_of_follow {part : Text} {parts : List Text}
    (h : fs.follow here (part :: parts) = .ok place) : fs.at? here = some .directory := by
  unfold follow at h
  split at h
  next => cases h
  next => cases h
  next hdirectory => exact hdirectory

/-- Parts that lead nowhere may be left out. -/
theorem follow_filter {parts : List Text} (h : fs.follow here parts = .ok place) :
    fs.follow here (parts.filter Path.isPart) = .ok place := by
  induction parts generalizing here with
  | nil => exact h
  | cons part parts ih =>
      have hdirectory := at?_of_follow h
      unfold follow at h
      rw [hdirectory] at h
      simp only at h
      by_cases hpart : Path.isPart part = true
      · rw [List.filter_cons_of_pos hpart]
        unfold follow
        rw [hdirectory]
        simp only
        rw [if_pos hpart] at h ⊢
        split at h
        next => cases h
        next hshort =>
          rw [if_neg hshort]
          split at h
          next hup => rw [if_pos hup, ih h]
          next hup => rw [if_neg hup, ih h]
      · rw [List.filter_cons_of_neg hpart]
        have hstay : part ≠ "..".toList := by
          rintro rfl
          exact hpart (by decide)
        rw [if_neg hpart, if_neg hstay] at h
        split at h
        next => cases h
        next => exact ih h

/-- A part that says nothing leads nowhere from a directory. -/
theorem follow_single {part : Text} (hdirectory : fs.at? here = some .directory)
    (hpart : part = [] ∨ part = ['.']) : fs.follow here [part] = .ok here := by
  unfold follow
  rw [hdirectory]
  rcases hpart with rfl | rfl <;> rfl

theorem slash_not_mem {t part : Text} (h : part ∈ (Path.ofText t).parts) : '/' ∉ part := by
  intro hmem
  have hpiece : part ∈ t.splitOn '/' := (List.mem_filter.1 h).1
  rw [List.splitOn_eq_splitOnP] at hpiece
  have := Text.not_of_mem_splitOnP hpiece '/' hmem
  simp at this

/-- A part that says nothing is passed over. -/
theorem follow_nothing (parts : List Text) (hdirectory : fs.at? here = some .directory) :
    fs.follow here ([] :: parts) = fs.follow here parts := by
  conv => lhs; unfold follow
  rw [hdirectory]
  rfl

/-- Parts behind a slash are followed from the root. -/
theorem locate_absolute {parts : List Text} (hslash : ∀ part ∈ parts, '/' ∉ part) :
    fs.locate ('/' :: ['/'].intercalate parts) = fs.follow [] parts := by
  have hroot : fs.at? [] = some .directory := if_pos rfl
  rw [locate, if_neg (List.cons_ne_nil _ _), if_pos List.head?_cons,
    List.splitOn_cons_eq_if_modifyHead, if_pos (beq_self_eq_true _), follow_nothing _ hroot]
  by_cases hnil : parts = []
  · rw [hnil]
    exact follow_single hroot (.inl rfl)
  · rw [List.splitOn_intercalate '/' hslash hnil]

/-- What does not begin with a slash is followed from the working
directory. -/
theorem locate_relative {parts : List Text} (hslash : ∀ part ∈ parts, '/' ∉ part)
    (hpart : ∀ part ∈ parts, Path.isPart part = true) (hne : parts ≠ []) :
    fs.locate (['/'].intercalate parts) = fs.follow fs.here parts := by
  have hhead : ∃ c t, ['/'].intercalate parts = c :: t ∧ c ≠ '/' := by
    obtain ⟨part, rest, rfl⟩ := List.exists_cons_of_ne_nil hne
    cases part with
    | nil => exact absurd (hpart [] List.mem_cons_self) (by decide)
    | cons c part =>
        have hc : c ≠ '/' := fun heq =>
          hslash _ List.mem_cons_self (heq ▸ List.mem_cons_self)
        cases rest with
        | nil => exact ⟨c, part, List.intercalate_singleton, hc⟩
        | cons next rest => exact ⟨c, _, List.intercalate_cons_cons, hc⟩
  obtain ⟨c, t, hcons, hc⟩ := hhead
  have hrelative : ¬ (c :: t).head? = some '/' := fun heq => hc (Option.some.inj heq)
  rw [locate, hcons, if_neg (List.cons_ne_nil _ _), if_neg hrelative, ← hcons,
    List.splitOn_intercalate '/' hslash hne]

/-- What a text names is found by the path that it writes. -/
theorem locate_toText_ofText {t : Text} (h : fs.locate t = .ok place) :
    fs.locate (Path.ofText t).toText = .ok place := by
  have hslash : ∀ part ∈ (Path.ofText t).parts, '/' ∉ part := fun _ => slash_not_mem
  have hpart : ∀ part ∈ (Path.ofText t).parts, Path.isPart part = true :=
    fun _ hmem => (List.mem_filter.1 hmem).2
  unfold locate at h
  split at h
  next => cases h
  next =>
  have hparts : fs.follow (if t.head? = some '/' then [] else fs.here) (Path.ofText t).parts
      = .ok place := follow_filter h
  by_cases habsolute : t.head? = some '/'
  · rw [if_pos habsolute] at hparts
    have habsolute' : (Path.ofText t).absolute = true := decide_eq_true habsolute
    rw [Path.toText, if_pos habsolute']
    exact (locate_absolute hslash).trans hparts
  · rw [if_neg habsolute] at h hparts
    have habsolute' : ¬ (Path.ofText t).absolute = true := fun heq =>
      habsolute (of_decide_eq_true heq)
    rw [Path.toText, if_neg habsolute']
    by_cases hnil : (Path.ofText t).parts = []
    · -- All parts say nothing, so the working directory is there to be found.
      have hdirectory : fs.at? fs.here = some .directory := by
        obtain ⟨part, parts, hsplit⟩ := List.exists_cons_of_ne_nil (List.splitOn_ne_nil '/' t)
        exact at?_of_follow (hsplit ▸ h)
      rw [hnil] at hparts
      rw [if_pos hnil, ← hparts]
      exact follow_single hdirectory (.inr rfl)
    · rw [if_neg hnil, locate_relative hslash hpart hnil]
      exact hparts

-- =============================================================== writing

/-- A file that a text names is written where it was found. Then it holds
what was written, and whatever is named otherwise is what it was. -/
theorem write_found {t : Text} (hfile : fs.find? t = some (.file content stamp))
    (new : Text.Bytes) :
    ∃ fs', fs.write (Path.ofText t) new = .ok fs'
      ∧ fs'.find? t = some (.file new (fs.writes + 1))
      ∧ ∀ other, fs.locate other ≠ fs.locate t → fs'.find? other = fs.find? other := by
  unfold find? at hfile
  split at hfile
  next there hlocate =>
    have hplace : fs.locatePath (Path.ofText t) = .ok there := locate_toText_ofText hlocate
    have hput := at?_put fs (ne_nil_of_file hfile) (.file new (fs.writes + 1))
    have htree : SameTree fs
        { fs.put there (.file new (fs.writes + 1)) with writes := fs.writes + 1 } := by
      constructor
      case here =>
        unfold put
        split <;> rfl
      case at_ =>
        intro place
        by_cases heq : place = there
        · refine .inr ⟨⟨content, stamp, heq ▸ hfile⟩, new, fs.writes + 1, ?_⟩
          exact (hput place).trans (if_pos heq)
        · exact .inl ((hput place).trans (if_neg heq))
    refine ⟨{ fs.put there (.file new (fs.writes + 1)) with writes := fs.writes + 1 }, ?_, ?_, ?_⟩
    · unfold write
      rw [hplace]
      simp only [bind, Except.bind, hfile]
      rfl
    · rw [find?, htree.locate_eq, hlocate]
      exact (hput there).trans (if_pos rfl)
    · intro other hother
      rw [find?, find?, htree.locate_eq]
      cases hlocated : fs.locate other with
      | error why => rfl
      | ok place =>
          have hne : place ≠ there := by
            rintro rfl
            exact hother (hlocated.trans hlocate.symm)
          exact (hput place).trans (if_neg hne)
  next => cases hfile

end FreeLabel.FileSystem
