/-
Where results go.

# Names

The name that results have is that of the source without its suffix, and
it is taken for the name of a file once more: a result gets its suffix in
the place of what looks like one. So names that differ only there are one
name for the results (`resultStem`).

# Sites

Both results go to one directory and share a name there (`Site`). It is
the output directory, unless the name says nothing, as a single dot does
not; then the results go beside that directory and are called as it is.
Two sites have a path in common only if they are one
(`Site.disjoint_paths_iff`), and the paths of different sites lead to
different places (`apart_of_resultStem_ne`).
-/
import FreeLabel.CommandLine.Plan
import FreeLabel.Proofs.Places

namespace FreeLabel

-- ================================================================= names

namespace Path

theorem mem_of_mem_stemOf {name : Text} {c : Char} (h : c ∈ stemOf name) : c ∈ name := by
  unfold stemOf at h
  simp only at h
  split at h
  · exact h
  · rw [List.mem_reverse] at h
    have hdropped := List.mem_of_mem_drop h
    exact List.mem_reverse.1 ((List.dropWhile_suffix _).mem hdropped)

theorem slash_not_mem_stem (t : Text) : '/' ∉ (ofText t).stem := by
  intro h
  have hlast := mem_of_mem_stemOf h
  cases hparts : (ofText t).parts.getLast? with
  | none =>
      rw [hparts] at hlast
      cases hlast
  | some part =>
      rw [hparts] at hlast
      exact FileSystem.slash_not_mem (List.mem_of_getLast? hparts) hlast

/-- A text without slashes writes one part, if it says anything. -/
theorem ofText_of_slash_not_mem {t : Text} (h : '/' ∉ t) :
    ofText t = { absolute := false, parts := if isPart t then [t] else [] } := by
  have hhead : ¬ t.head? = some '/' := fun heq => h (List.mem_of_head? heq)
  unfold ofText
  rw [List.splitOn_eq_singleton h, decide_eq_false hhead, List.filter_cons, List.filter_nil]

end Path

namespace CommandLine

open FreeLabel.Path (IsName)

-- ================================================================= sites

/-- Where two results go: a directory, and the name that they share in it
but for their suffixes. -/
structure Site where
  /-- The directory. -/
  directory : Path
  /-- The name. -/
  stem : Text
deriving DecidableEq, Repr

/-- The path of the result with a suffix. -/
def Site.path (σ : Site) (suffix : String) : Path :=
  σ.directory.inside (σ.stem ++ suffix.toList)

/-- The suffixes of a diagram and its drawing. -/
def suffixes : List String := [".mmd", ".svg"]

/-- The paths of both results. -/
def Site.paths (σ : Site) : List Path := suffixes.map σ.path

/-- What the results under a name are called: the name without a suffix of
its own. A name that says nothing calls them nothing. -/
def resultStem (name : Text) : Option Text :=
  if Path.isPart name then some (Path.stemOf name) else none

/-- Where the results under a name go. If they are called nothing, they go
beside the output directory and are called as it is. -/
def site? (outputDir name : Text) : Option Site :=
  let directory := Path.ofText outputDir
  match resultStem name with
  | some stem => some { directory := directory, stem := stem }
  | none => directory.parts.getLast?.map fun last =>
    { directory := directory.parent, stem := Path.stemOf last }

variable {outputDir name name' stem : Text} {σ σ' : Site} {suffix suffix' : String}

theorem outputPaths?_eq (hname : '/' ∉ name) :
    outputPaths? outputDir name
      = (site? outputDir name).map fun σ => (σ.path ".mmd", σ.path ".svg") := by
  unfold outputPaths? site? resultStem
  rw [Path.ofText_of_slash_not_mem hname]
  by_cases hpart : Path.isPart name = true
  · simp [Path.join, Path.withSuffix?, hpart, Site.path, Path.inside]
  · simp only [Path.join, Path.withSuffix?, hpart, Site.path, Path.inside, Path.parent]
    cases hlast : (Path.ofText outputDir).parts.getLast? <;> simp [hlast]

/-- Results that are called something go into the output directory. -/
theorem site?_inside (hstem : resultStem name = some stem) :
    site? outputDir name = some { directory := Path.ofText outputDir, stem := stem } := by
  rw [site?, hstem]

/-- Others go beside it. -/
theorem site?_beside (hstem : resultStem name = none) (h : site? outputDir name = some σ) :
    ∃ last, (Path.ofText outputDir).parts.getLast? = some last
      ∧ σ = { directory := (Path.ofText outputDir).parent, stem := Path.stemOf last } := by
  rw [site?, hstem] at h
  obtain ⟨last, hlast, rfl⟩ := Option.map_eq_some_iff.1 h
  exact ⟨last, hlast, rfl⟩

-- ======================================================= different paths

theorem length_of_mem_suffixes (h : suffix ∈ suffixes) : suffix.toList.length = 4 := by
  revert suffix
  decide

theorem Site.path_injective (hsuffix : suffix ∈ suffixes) (hsuffix' : suffix' ∈ suffixes)
    (h : σ.path suffix = σ'.path suffix') : σ = σ' ∧ suffix = suffix' := by
  obtain ⟨⟨absolute, parts⟩, stem⟩ := σ
  obtain ⟨⟨absolute', parts'⟩, stem'⟩ := σ'
  obtain ⟨rfl, hparts⟩ := Path.mk.inj h
  obtain ⟨rfl, hlast⟩ := List.append_inj' hparts rfl
  obtain ⟨rfl, hsame⟩ := List.append_inj' (List.singleton_inj.1 hlast)
    ((length_of_mem_suffixes hsuffix).trans (length_of_mem_suffixes hsuffix').symm)
  exact ⟨rfl, String.toList_inj.1 hsame⟩

/-- Different sites have no path in common. -/
theorem Site.disjoint_paths_iff : σ.paths.Disjoint σ'.paths ↔ σ ≠ σ' := by
  constructor
  · rintro hdisjoint rfl
    have hmem : σ.path ".mmd" ∈ σ.paths := List.mem_map_of_mem (by decide)
    exact hdisjoint hmem hmem
  · intro hne p hp hp'
    obtain ⟨suffix, hsuffix, rfl⟩ := List.mem_map.1 hp
    obtain ⟨suffix', hsuffix', heq⟩ := List.mem_map.1 hp'
    exact hne (Site.path_injective hsuffix' hsuffix heq).1.symm

theorem site?_ne (hstem : resultStem name = some stem) (hstem' : resultStem name' = none)
    (h : site? outputDir name = some σ) (h' : site? outputDir name' = some σ') : σ ≠ σ' := by
  rw [site?_inside hstem] at h
  cases h
  obtain ⟨last, hlast, rfl⟩ := site?_beside hstem' h'
  intro heq
  have hparts := congrArg (List.length ∘ Path.parts ∘ Site.directory) heq
  have hpos := List.length_pos_of_mem (List.mem_of_getLast? hlast)
  simp [Path.parent] at hparts
  omega

/-- Results under two names go to one site exactly if they are called the
same. -/
theorem site?_eq_iff (h : site? outputDir name = some σ)
    (h' : site? outputDir name' = some σ') : σ = σ' ↔ resultStem name = resultStem name' := by
  constructor
  case mp =>
    rintro rfl
    cases hstem : resultStem name with
    | some stem =>
        cases hstem' : resultStem name' with
        | some stem' =>
            rw [site?_inside hstem] at h
            rw [site?_inside hstem', ← h] at h'
            cases h'
            rfl
        | none => exact absurd rfl (site?_ne hstem hstem' h h')
    | none =>
        cases hstem' : resultStem name' with
        | some stem' => exact absurd rfl (site?_ne hstem' hstem h' h)
        | none => rfl
  case mpr =>
    intro heq
    have hsame : site? outputDir name = site? outputDir name' := by
      rw [site?, heq, site?]
    exact Option.some.inj (h.symm.trans (hsame.trans h'))

-- ====================================================== different places

/-- A site whose paths are sound. -/
structure Site.Sound (σ : Site) : Prop where
  directory : σ.directory.Sound
  stem : '/' ∉ σ.stem

theorem sound_of_site? (hname : '/' ∉ name) (h : site? outputDir name = some σ) : σ.Sound := by
  have hdirectory := Path.sound_ofText outputDir
  cases hstem : resultStem name with
  | some stem =>
      rw [site?_inside hstem] at h
      cases h
      refine ⟨hdirectory, fun hslash => hname ?_⟩
      unfold resultStem at hstem
      split at hstem
      · cases hstem
        exact Path.mem_of_mem_stemOf hslash
      · cases hstem
  | none =>
      obtain ⟨last, hlast, rfl⟩ := site?_beside hstem h
      refine ⟨hdirectory.parent, fun hslash => ?_⟩
      exact (hdirectory last (List.mem_of_getLast? hlast)).2 (Path.mem_of_mem_stemOf hslash)

/-- With a suffix, whatever has no slash is the name of a file. -/
theorem isName_append_suffix (hstem : '/' ∉ stem) (hsuffix : suffix ∈ suffixes) :
    IsName (stem ++ suffix.toList) := by
  have hlength := length_of_mem_suffixes hsuffix
  have hne : ∀ short : Text, short.length < 4 → stem ++ suffix.toList ≠ short := by
    rintro short hshort rfl
    rw [List.length_append, hlength] at hshort
    omega
  constructor
  case isPart => simp [Path.isPart, hne [] (by decide), hne ['.'] (by decide)]
  case slash =>
    have hnone : ∀ suffix ∈ suffixes, '/' ∉ suffix.toList := by decide
    rw [List.mem_append]
    exact not_or.2 ⟨hstem, hnone suffix hsuffix⟩
  case up => exact hne _ (by decide)

/-- In one directory, different paths lead to different places. -/
theorem Site.apart_inside (hσ : σ.Sound) (hσ' : σ'.Sound) (hsuffix : suffix ∈ suffixes)
    (hsuffix' : suffix' ∈ suffixes) (hdirectory : σ.directory = σ'.directory)
    (hne : σ.path suffix ≠ σ'.path suffix') : (σ.path suffix).Apart (σ'.path suffix') := by
  unfold Site.path at hne ⊢
  rw [← hdirectory] at hne ⊢
  refine FileSystem.apart_inside hσ.directory (isName_append_suffix hσ.stem hsuffix)
    (isName_append_suffix hσ'.stem hsuffix') fun heq => hne ?_
  rw [heq]

/-- Whether the output directory is written as the one above another. -/
def EndsUp (outputDir : Text) : Prop :=
  (Path.ofText outputDir).parts.getLast? = some "..".toList

/-- What goes into the output directory and what goes beside it have
different places, unless that is written as the one above another. -/
theorem apart_beside_inside (hname : '/' ∉ name) (hname' : '/' ∉ name')
    (hstem : resultStem name = none) (hstem' : resultStem name' = some stem)
    (h : site? outputDir name = some σ) (h' : site? outputDir name' = some σ')
    (hsuffix : suffix ∈ suffixes) (hsuffix' : suffix' ∈ suffixes) (hup : ¬ EndsUp outputDir) :
    (σ.path suffix).Apart (σ'.path suffix') := by
  have hsound := sound_of_site? hname h
  have hsound' := sound_of_site? hname' h'
  rw [site?_inside hstem'] at h'
  cases h'
  obtain ⟨last, hlast, rfl⟩ := site?_beside hstem h
  exact FileSystem.apart_beside hsound'.directory (isName_append_suffix hsound.stem hsuffix)
    (isName_append_suffix hsound'.stem hsuffix') hlast fun heq =>
      hup (hlast.trans (congrArg some heq))

/-- Results that are called differently have different places, whatever the
files; where one of them is called nothing, the output directory must not be
written as the one above another. -/
theorem apart_of_resultStem_ne (hname : '/' ∉ name) (hname' : '/' ∉ name')
    (h : site? outputDir name = some σ) (h' : site? outputDir name' = some σ')
    (hsuffix : suffix ∈ suffixes) (hsuffix' : suffix' ∈ suffixes)
    (hne : resultStem name ≠ resultStem name')
    (hup : EndsUp outputDir → resultStem name ≠ none ∧ resultStem name' ≠ none) :
    (σ.path suffix).Apart (σ'.path suffix') := by
  cases hstem : resultStem name with
  | some stem =>
      cases hstem' : resultStem name' with
      | some stem' =>
          have hpath : σ.path suffix ≠ σ'.path suffix' := fun heq =>
            hne ((site?_eq_iff h h').1 (Site.path_injective hsuffix hsuffix' heq).1)
          have hsite := Option.some.inj ((site?_inside hstem).symm.trans h)
          have hsite' := Option.some.inj ((site?_inside hstem').symm.trans h')
          exact Site.apart_inside (sound_of_site? hname h) (sound_of_site? hname' h') hsuffix
            hsuffix' (by rw [← hsite, ← hsite']) hpath
      | none =>
          exact (apart_beside_inside hname' hname hstem' hstem h' h hsuffix' hsuffix
            fun hends => (hup hends).2 hstem').symm
  | none =>
      cases hstem' : resultStem name' with
      | some stem' =>
          exact apart_beside_inside hname hname' hstem hstem' h h' hsuffix hsuffix'
            fun hends => (hup hends).1 hstem
      | none => exact absurd (hstem.trans hstem'.symm) hne

end CommandLine

end FreeLabel
