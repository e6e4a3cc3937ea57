/-
Where paths lead, and what stays there while other files are written.

# Paths

A path with something to say is followed part by part, and its last part
is the name at the place that it leads to (`exists_of_locatePath`). So two
paths into one directory lead to one place only if they end with one name,
and a path beside a directory never leads where one into it does, unless
the directory is written as the one above another (`Path.Apart`).

# Growth

Making a directory and writing a file leave all directories that there
are (`Keeps`), so a path that led somewhere still does. What a file holds
changes only by a write to a path that may lead to it, in a single act
(`read_of_perform`) and therefore in a run of them (`read_of_performAll`).
-/
import FreeLabel.CommandLine.Act
import FreeLabel.Proofs.Files
import Mathlib.Data.List.Basic

namespace FreeLabel

-- ================================================================= paths

namespace Path

/-- A path whose parts can stand between slashes and say something. -/
def Sound (p : Path) : Prop := ∀ part ∈ p.parts, isPart part = true ∧ '/' ∉ part

/-- A part that leads to what has it for a name. -/
structure IsName (part : Text) : Prop where
  isPart : isPart part = true
  slash : '/' ∉ part
  up : part ≠ "..".toList

/-- The path of what has a name in a directory. -/
def inside (p : Path) (name : Text) : Path := { p with parts := p.parts ++ [name] }

/-- Two paths that lead to different places, whatever the files. -/
def Apart (p q : Path) : Prop :=
  ∀ (fs : FileSystem) (place : Location),
    fs.locatePath p = .ok place → fs.locatePath q ≠ .ok place

variable {p q : Path} {name : Text}

theorem Apart.symm (h : p.Apart q) : q.Apart p := fun fs place hq hp => h fs place hp hq

theorem sound_ofText (t : Text) : (ofText t).Sound := fun _ hpart =>
  ⟨(List.mem_filter.1 hpart).2, FileSystem.slash_not_mem hpart⟩

theorem Sound.parent (h : p.Sound) : p.parent.Sound := fun part hpart =>
  h part (List.dropLast_subset _ hpart)

theorem Sound.inside (h : p.Sound) (hname : IsName name) : (p.inside name).Sound := by
  intro part hpart
  rcases List.mem_append.1 hpart with hpart | hpart
  · exact h part hpart
  · obtain rfl := List.mem_singleton.1 hpart
    exact ⟨hname.isPart, hname.slash⟩

end Path

namespace FileSystem

open FreeLabel.Path (IsName)

-- =============================================================== success

section Success

variable {ε α β : Type} {x : Except ε α} {b : β}

theorem exists_of_bind {f : α → Except ε β} (h : x.bind f = .ok b) :
    ∃ a, x = .ok a ∧ f a = .ok b := by
  cases x with
  | error e => cases h
  | ok a => exact ⟨a, rfl, h⟩

theorem exists_of_map {f : α → β} (h : x.map f = .ok b) : ∃ a, x = .ok a ∧ f a = b := by
  cases x with
  | error e => cases h
  | ok a => exact ⟨a, rfl, Except.ok.inj h⟩

end Success

-- ============================================================= following

variable {fs fs' fs'' : FileSystem} {start there place : Location} {part name : Text}
  {parts : List Text} {p q : Path}

/-- A sound path is followed part by part. -/
theorem locatePath_eq (hsound : p.Sound) (hne : p.parts ≠ []) :
    fs.locatePath p = fs.follow (if p.absolute then [] else fs.here) p.parts := by
  have hslash : ∀ part ∈ p.parts, '/' ∉ part := fun part hpart => (hsound part hpart).2
  unfold locatePath Path.toText
  by_cases habsolute : p.absolute = true
  · rw [if_pos habsolute, if_pos habsolute, locate_absolute hslash]
  · rw [if_neg habsolute, if_neg habsolute, if_neg hne]
    exact locate_relative hslash (fun part hpart => (hsound part hpart).1) hne

theorem follow_append (start : Location) (parts parts' : List Text) :
    fs.follow start (parts ++ parts')
      = (fs.follow start parts).bind fun there => fs.follow there parts' := by
  induction parts generalizing start with
  | nil => rfl
  | cons part parts ih =>
      simp only [List.cons_append, follow]
      split
      · rfl
      · rfl
      · split
        · rfl
        · split
          · exact ih _
          · exact ih _

theorem eq_append_of_follow (hpart : Path.isPart part = true) (hup : part ≠ "..".toList)
    (h : fs.follow there [part] = .ok place) : place = there ++ [part] := by
  simp only [follow, if_neg hup, if_pos hpart] at h
  split at h
  · cases h
  · cases h
  · split at h
    · cases h
    · exact (Except.ok.inj h).symm

/-- What has a name in a directory is where the directory is, under that
name. -/
theorem exists_of_locatePath (hsound : p.Sound) (hname : IsName name)
    (h : fs.locatePath (p.inside name) = .ok place) :
    ∃ there, fs.follow (if p.absolute then [] else fs.here) p.parts = .ok there
      ∧ place = there ++ [name] := by
  have hparts : (p.inside name).parts = p.parts ++ [name] := rfl
  rw [locatePath_eq (hsound.inside hname) (by simp [hparts]), hparts, follow_append] at h
  obtain ⟨there, hthere, hplace⟩ := exists_of_bind h
  exact ⟨there, hthere, eq_append_of_follow hname.isPart hname.up hplace⟩

/-- Different names in a directory lead to different places. -/
theorem apart_inside {a b : Text} (hsound : p.Sound) (ha : IsName a) (hb : IsName b)
    (hne : a ≠ b) : (p.inside a).Apart (p.inside b) := by
  intro fs place hplace hplace'
  obtain ⟨there, hthere, rfl⟩ := exists_of_locatePath hsound ha hplace
  obtain ⟨there', hthere', heq⟩ := exists_of_locatePath hsound hb hplace'
  exact hne (List.singleton_inj.1 (List.append_inj' heq rfl).2)

/-- So do a name in a directory and one beside it. -/
theorem apart_beside {a b last : Text} (hsound : p.Sound) (ha : IsName a) (hb : IsName b)
    (hlast : p.parts.getLast? = some last) (hup : last ≠ "..".toList) :
    (p.parent.inside a).Apart (p.inside b) := by
  intro fs place hplace hplace'
  obtain ⟨there, hthere, rfl⟩ := exists_of_locatePath hsound.parent ha hplace
  obtain ⟨directory, hdirectory, heq⟩ := exists_of_locatePath hsound hb hplace'
  have hpart := (hsound last (List.mem_of_getLast? hlast)).1
  rw [← List.dropLast_append_getLast? last hlast, follow_append] at hdirectory
  change fs.follow (if p.absolute then [] else fs.here) p.parts.dropLast = _ at hthere
  rw [hthere] at hdirectory
  rw [eq_append_of_follow hpart hup hdirectory] at heq
  have hlength := congrArg List.length heq
  simp at hlength

-- =============================================================== growth

/-- All directories stay. -/
structure Keeps (fs fs' : FileSystem) : Prop where
  here : fs'.here = fs.here
  directories : ∀ place, fs.at? place = some .directory → fs'.at? place = some .directory

/-- All that there is stays as it is. -/
structure Extends (fs fs' : FileSystem) : Prop where
  here : fs'.here = fs.here
  entries : ∀ place e, fs.at? place = some e → fs'.at? place = some e

theorem Extends.keeps (h : fs.Extends fs') : fs.Keeps fs' :=
  ⟨h.here, fun place => h.entries place .directory⟩

theorem Extends.refl (fs : FileSystem) : fs.Extends fs := ⟨rfl, fun _ _ h => h⟩

theorem Extends.trans (h : fs.Extends fs') (h' : fs'.Extends fs'') : fs.Extends fs'' :=
  ⟨h'.here.trans h.here, fun place e he => h'.entries place e (h.entries place e he)⟩

theorem Keeps.follow_eq_ok (h : fs.Keeps fs') (hplace : fs.follow start parts = .ok place) :
    fs'.follow start parts = .ok place := by
  induction parts generalizing start with
  | nil => exact hplace
  | cons part parts ih =>
      have hdirectory := at?_of_follow hplace
      simp only [follow, hdirectory, h.directories _ hdirectory] at hplace ⊢
      split at hplace
      next => cases hplace
      next hshort =>
        rw [if_neg hshort]
        split at hplace
        next hup => rw [if_pos hup, ih hplace]
        next hup => rw [if_neg hup, ih hplace]

/-- A path that leads somewhere does so as long as the directories stay. -/
theorem Keeps.locate_eq_ok (h : fs.Keeps fs') {t : Text} (hplace : fs.locate t = .ok place) :
    fs'.locate t = .ok place := by
  unfold locate at hplace ⊢
  split at hplace
  next => cases hplace
  next hne =>
    rw [if_neg hne, h.here]
    exact h.follow_eq_ok hplace

theorem here_put (fs : FileSystem) (there : Location) (e : Entry) :
    (fs.put there e).here = fs.here := by
  unfold put
  split
  · rfl
  · rfl

theorem extends_makeDirectory (h : fs.makeDirectory p = .ok fs') :
    fs.Extends fs' := by
  obtain ⟨there, -, h⟩ := exists_of_bind h
  split at h
  next => cases h
  next hnone =>
    cases h
    have hne : there ≠ [] := by
      rintro rfl
      rw [at?, if_pos rfl] at hnone
      cases hnone
    refine ⟨here_put fs there .directory, fun place e he => ?_⟩
    rw [at?_put fs hne, if_neg, he]
    rintro rfl
    rw [hnone] at he
    cases he

theorem eq_of_settle {e : FileError} (h : fs.settle p e = .ok fs') : fs' = fs := by
  unfold settle at h
  split at h
  · exact (Except.ok.inj h).symm
  · cases h

/-- Whatever directories are made, all that there is stays as it is. -/
theorem extends_ensureDirectory (h : fs.ensureDirectory p = .ok fs') :
    fs.Extends fs' := by
  fun_induction ensureDirectory fs p generalizing fs' with
  | case1 p made hmade =>
      cases h
      exact extends_makeDirectory hmade
  | case2 => cases h
  | case3 p _ _ ih =>
      obtain ⟨above, habove, h⟩ := exists_of_bind h
      split at h
      next hmade =>
        cases h
        exact (ih habove).trans (extends_makeDirectory hmade)
      next => cases h
      next => exact eq_of_settle h ▸ ih habove
  | case4 p e _ _ => exact eq_of_settle h ▸ Extends.refl fs

/-- A file is written to a place where no directory is, and nothing else
changes. -/
theorem exists_of_write {content : Text.Bytes} (h : fs.write p content = .ok fs') :
    ∃ there, fs.locatePath p = .ok there ∧ fs.Keeps fs'
      ∧ ∀ place, fs'.at? place
        = if place = there then some (.file content (fs.writes + 1)) else fs.at? place := by
  obtain ⟨there, hthere, h⟩ := exists_of_bind h
  split at h
  next => cases h
  next hfile =>
    cases h
    have hne : there ≠ [] := by
      rintro rfl
      exact hfile (if_pos rfl)
    have hat := at?_put fs hne (.file content (fs.writes + 1))
    refine ⟨there, hthere, ⟨here_put fs there _, fun place hplace => ?_⟩, hat⟩
    refine (hat place).trans ?_
    rw [if_neg, hplace]
    rintro rfl
    exact hfile hplace

-- ================================================================ files

theorem read_eq_ok_iff {content : Text.Bytes} :
    fs.read p = .ok content
      ↔ ∃ place stamp, fs.locatePath p = .ok place
        ∧ fs.at? place = some (.file content stamp) := by
  constructor
  case mp =>
    intro h
    obtain ⟨place, hplace, h⟩ := exists_of_bind h
    split at h
    next stamp hfile =>
      cases h
      exact ⟨place, stamp, hplace, hfile⟩
    next => cases h
    next => cases h
  case mpr =>
    rintro ⟨place, stamp, hplace, hfile⟩
    simp only [read, hplace, bind, Except.bind, hfile]
    rfl

/-- What was written is read. -/
theorem read_of_write {content : Text.Bytes} (h : fs.write p content = .ok fs') :
    fs'.read p = .ok content := by
  obtain ⟨there, hthere, hkeeps, hat⟩ := exists_of_write h
  exact read_eq_ok_iff.2
    ⟨there, _, hkeeps.locate_eq_ok hthere, (hat there).trans (if_pos rfl)⟩

/-- Other files are read as before. -/
theorem read_of_write_apart {content content' : Text.Bytes}
    (h : fs.write p content = .ok fs') (hq : fs.read q = .ok content') (hapart : p.Apart q) :
    fs'.read q = .ok content' := by
  obtain ⟨there, hthere, hkeeps, hat⟩ := exists_of_write h
  obtain ⟨place, stamp, hplace, hfile⟩ := read_eq_ok_iff.1 hq
  refine read_eq_ok_iff.2 ⟨place, stamp, hkeeps.locate_eq_ok hplace, ?_⟩
  rw [hat, if_neg, hfile]
  rintro rfl
  exact hapart fs place hthere hplace

theorem Extends.read_eq_ok (h : fs.Extends fs') {content : Text.Bytes}
    (hp : fs.read p = .ok content) : fs'.read p = .ok content := by
  obtain ⟨place, stamp, hplace, hfile⟩ := read_eq_ok_iff.1 hp
  exact read_eq_ok_iff.2
    ⟨place, stamp, h.keeps.locate_eq_ok hplace, h.entries place _ hfile⟩

end FileSystem

-- ================================================================= acts

namespace CommandLine

variable {session session' : Session} {content : Text.Bytes} {q : Path}

/-- Acts that are performed are performed one by one. -/
theorem Session.performAll_cons {act : Act} {acts : List Act}
    (h : session.performAll (act :: acts) = (session', none)) :
    ∃ next, session.perform act = .ok next ∧ next.performAll acts = (session', none) := by
  unfold Session.performAll at h
  split at h
  next session₁ hact => exact ⟨session₁, hact, h⟩
  next => cases h

/-- A file is read as before unless the act writes one that may be the
same. -/
theorem Session.read_of_perform {act : Act} (h : session.perform act = .ok session')
    (hq : session.files.read q = .ok content)
    (hapart : ∀ p t, act = .write p t → p.Apart q) : session'.files.read q = .ok content := by
  cases act with
  | makeDirectory p =>
      obtain ⟨files, hmade, rfl⟩ := FileSystem.exists_of_map h
      exact (FileSystem.extends_ensureDirectory hmade).read_eq_ok hq
  | write p t =>
      obtain ⟨files, hwritten, rfl⟩ := FileSystem.exists_of_map h
      exact FileSystem.read_of_write_apart hwritten hq (hapart p t rfl)
  | print line =>
      cases h
      exact hq
  | complain line =>
      cases h
      exact hq
  | giveUp why => cases h

/-- A file is read as before after all acts, or as many of them as can be
performed. -/
theorem Session.read_of_performAll (session : Session) {acts : List Act}
    (hq : session.files.read q = .ok content)
    (hapart : ∀ p t, .write p t ∈ acts → p.Apart q) :
    (session.performAll acts).1.files.read q = .ok content := by
  induction acts generalizing session with
  | nil => exact hq
  | cons act acts ih =>
      unfold Session.performAll
      cases hact : session.perform act with
      | error why => exact hq
      | ok session' =>
          have hq' := Session.read_of_perform hact hq fun p t heq =>
            hapart p t (heq ▸ List.mem_cons_self)
          exact ih session' hq' fun p t hmem => hapart p t (List.mem_cons_of_mem _ hmem)

/-- A file that is written, and behind it only others, holds what was
written. -/
theorem Session.read_of_written {acts : List Act} {t : Text}
    (h : session.performAll (.write q t :: acts) = (session', none))
    (hapart : ∀ p t', .write p t' ∈ acts → p.Apart q) :
    session'.files.read q = .ok (Text.encode t) := by
  obtain ⟨next, hact, hrest⟩ := Session.performAll_cons h
  obtain ⟨files, hwritten, rfl⟩ := FileSystem.exists_of_map hact
  have hread := Session.read_of_performAll { session with files := files }
    (FileSystem.read_of_write hwritten) hapart
  rw [hrest] at hread
  exact hread

end CommandLine

end FreeLabel
