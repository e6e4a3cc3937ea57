/-
What a source says besides its direction.

# The rest of a source

A blank line says nothing, a statement of the direction says nothing else,
and declarations say all the same: `undirected?` is what is left of a
line. What is left of the lines of a source decides its mode, the lines
that are written in its diagram, its legend and what is reported, all but
the numbers of the lines (`sameOutcome_of_undirected`).

# Two runs up to line numbers

The run over a source is put beside the run over what is left of it, where
lines have other numbers. Numbers are noted in reports and never read, so
steps that differ in them alone are alike (`Pass.Alike`); that is a case of
two passes beside each other (`Pass.alike_iff_beside`), told by an equation
so that two runs can be compared by way of a third. A line of which
nothing is left writes nothing and leaves the block and what the pass owns
as they are, and any other line is of the same kind in both runs.
-/
import FreeLabel.Proofs.Beside
import FreeLabel.Proofs.Er.Directions
import FreeLabel.Proofs.Er.Lines

namespace FreeLabel

open Text (trim)

-- =============================================================== numbers

/-- A report without the number of its line. -/
def Diagnostic.unnumbered (d : Diagnostic) : Diagnostic := { d with lineNo := 0 }

/-- Why a pass stops, without the number of the line. -/
def Halt.unnumbered : Halt → Halt
  | malformed d => .malformed d.unnumbered
  | conflict c => .conflict c

/-- Two reports are the same but for the numbers of their lines. -/
def Diagnostic.Renumbered (d d' : Diagnostic) : Prop := d.unnumbered = d'.unnumbered

theorem Halt.beside_iff_unnumbered {halt halt' : Halt} :
    halt.Beside Diagnostic.Renumbered halt' ↔ halt.unnumbered = halt'.unnumbered := by
  cases halt with
  | malformed d =>
      cases halt' with
      | malformed d' => exact ⟨congrArg malformed, malformed.inj⟩
      | conflict e => exact ⟨False.elim, nofun⟩
  | conflict e =>
      cases halt' with
      | malformed d' => exact ⟨False.elim, nofun⟩
      | conflict e' => exact ⟨fun h => congrArg conflict (Eq.symm h), fun h => (conflict.inj h).symm⟩

/-- What a pass owns, without the numbers of lines. -/
def Context.unnumbered (c : Context) : Context :=
  { c with diagnostics := c.diagnostics.map Diagnostic.unnumbered }

/-- Numbers stand in reports alone. -/
theorem Context.unnumbered_eq_iff {c c' : Context} :
    c.unnumbered = c'.unnumbered ↔
      c.padding = c'.padding ∧ c.strict = c'.strict ∧ c.allocator = c'.allocator
        ∧ c.diagnostics.map Diagnostic.unnumbered = c'.diagnostics.map Diagnostic.unnumbered
        ∧ c.nodes = c'.nodes := by
  simp [Context.unnumbered]

theorem Context.beside_iff_unnumbered {c c' : Context} :
    c.Beside Diagnostic.Renumbered c' ↔ c.unnumbered = c'.unnumbered := by
  rw [unnumbered_eq_iff]
  constructor
  · rintro ⟨hpadding, hstrict, hallocator, hnodes, hnoted⟩
    exact ⟨hpadding.symm, hstrict.symm, hallocator.symm, forall₂_map_iff.1 hnoted, hnodes.symm⟩
  · rintro ⟨hpadding, hstrict, hallocator, hnoted, hnodes⟩
    exact ⟨hpadding.symm, hstrict.symm, hallocator.symm, hnodes.symm, forall₂_map_iff.2 hnoted⟩

namespace Pass

/-- How a step ends, without the numbers of lines. -/
def unnumbered : EStateM.Result Halt Context α → EStateM.Result Halt Context α
  | .ok a c => .ok a c.unnumbered
  | .error halt c => .error halt.unnumbered c.unnumbered

/-- Two steps end alike but for the numbers of lines, wherever they begin
alike. -/
def Alike (p p' : Pass α) : Prop :=
  ∀ c c' : Context, c.unnumbered = c'.unnumbered → unnumbered (p c) = unnumbered (p' c')

variable {p p' : Pass α}

theorem endBeside_iff_unnumbered {r r' : EStateM.Result Halt Context α} :
    EndBeside Diagnostic.Renumbered Eq r r' ↔ unnumbered r = unnumbered r' := by
  cases r with
  | ok a c =>
      cases r' with
      | ok b c' => simp [EndBeside, unnumbered, Context.beside_iff_unnumbered]
      | error halt' c' => exact ⟨False.elim, nofun⟩
  | error halt c =>
      cases r' with
      | ok b c' => exact ⟨False.elim, nofun⟩
      | error halt' c' =>
          simp [EndBeside, unnumbered, Context.beside_iff_unnumbered, Halt.beside_iff_unnumbered]

/-- Steps are alike if they go beside each other with the same results. -/
theorem alike_iff_beside : p.Alike p' ↔ Beside Diagnostic.Renumbered Eq p p' :=
  forall₂_congr fun _ _ =>
    imp_congr Context.beside_iff_unnumbered.symm endBeside_iff_unnumbered.symm

theorem Alike.pure (a : α) : (Pure.pure a : Pass α).Alike (Pure.pure a) :=
  alike_iff_beside.2 (.pure rfl)

theorem Alike.bind {f f' : α → Pass β} (hp : p.Alike p') (hf : ∀ a, (f a).Alike (f' a)) :
    (p >>= f).Alike (p' >>= f') := by
  rw [alike_iff_beside] at hp ⊢
  refine hp.bind fun a a' h => ?_
  rw [← h]
  exact alike_iff_beside.1 (hf a)

theorem Alike.map (hp : p.Alike p') (f : α → β) : (f <$> p).Alike (f <$> p') :=
  alike_iff_beside.2 ((alike_iff_beside.1 hp).map fun _ _ => congrArg f)

end Pass

namespace Er

open Pass (Alike)

-- ================================================================= lines

/-- What is left of a line without the direction. Nothing is left of a
blank line or of a statement of the direction, and the same is left of all
declarations. -/
def undirected? (line : Text) : Option Text :=
  if trim line = [] || (directionStatement? (trim line)).isSome then none
  else if (declaration? (trim line)).isSome then some "erDiagram".toList
  else some line

/-- What is left of lines without the direction. -/
def undirected (lines : List Text) : List Text := lines.filterMap undirected?

/-- What is left of a line is the line, unless it is a declaration. -/
theorem eq_or_eq_of_undirected? {line left : Text} (h : undirected? line = some left) :
    left = "erDiagram".toList ∨ left = line := by
  unfold undirected? at h
  split at h
  next => cases h
  next =>
    split at h
    next => exact .inl (Option.some.inj h).symm
    next => exact .inr (Option.some.inj h).symm

theorem undirected?_of_declaration? {line : Text}
    (h : (declaration? (trim line)).isSome = true) :
    undirected? line = some "erDiagram".toList := by
  obtain ⟨d, hd⟩ := Option.isSome_iff_exists.1 h
  have hhead := head_of_declaration? hd
  have hnothing :
      ¬ (decide (trim line = []) || (directionStatement? (trim line)).isSome) = true := by
    intro hor
    rcases Bool.or_eq_true_iff.1 hor with hnil | hstatement
    · rw [of_decide_eq_true hnil] at hhead
      cases hhead
    · obtain ⟨e, he⟩ := Option.isSome_iff_exists.1 hstatement
      rw [head_of_directionStatement? he] at hhead
      exact absurd hhead (by decide)
  unfold undirected?
  rw [if_neg hnothing, if_pos h]

theorem undirected?_of_directionStatement? {line : Text}
    (h : (directionStatement? (trim line)).isSome = true) : undirected? line = none := by
  unfold undirected?
  rw [if_pos (by rw [h, Bool.or_true])]

theorem undirected?_of_blank {line : Text} (h : ∀ c ∈ line, isBlank c = true) :
    undirected? line = none := by
  unfold undirected?
  rw [if_pos]
  rw [decide_eq_true (Text.trim_eq_nil_iff.2 h), Bool.true_or]

theorem undirected_append_cons (before : List Text) (line : Text) (after : List Text) :
    undirected (before ++ line :: after)
      = undirected before ++ ((undirected? line).toList ++ undirected after) :=
  filterMap_append_cons ..

/-- A line is translated alike under any number. -/
theorem alike_translateLine (lineNo lineNo' : Nat) (line : Text) (inBlock : Bool) :
    (translateLine lineNo line (Line.classify inBlock line)).Alike
      (translateLine lineNo' line (Line.classify inBlock line)) := by
  have hline : StandsFor Diagnostic.Renumbered Eq (lineNo, line) (lineNo', line) :=
    ⟨rfl, fun _ => rfl, fun _ => rfl, rfl⟩
  exact Pass.alike_iff_beside.2 (beside_translateLine (fun _ => rfl) hline inBlock).2

/-- A line of which nothing is left writes nothing, and changes at most the
direction that was read. -/
theorem of_undirected?_eq_none {line : Text} (h : undirected? line = none) (lineNo : Int)
    (r : Reading) :
    (∃ out, translateLine lineNo line (Line.classify r.inBlock line) = pure out
        ∧ out.toList.flatMap Text.writtenLines = [])
      ∧ (r.next (Line.classify r.inBlock line)).inBlock = r.inBlock := by
  unfold undirected? at h
  split at h
  next hnothing =>
    rcases Bool.or_eq_true_iff.1 hnothing with hblank | hstatement
    · have hblank := of_decide_eq_true hblank
      have hkind : Line.classify r.inBlock line = .inert := by
        unfold Line.classify
        simp only [hblank]
        rfl
      rw [hkind]
      exact ⟨⟨some line, rfl, by simp [Text.writtenLines_eq_nil hblank]⟩, rfl⟩
    · obtain ⟨d, hd⟩ := Option.isSome_iff_exists.1 hstatement
      rw [classify_of_directionStatement? hd]
      exact ⟨⟨none, rfl, rfl⟩, rfl⟩
  next => split at h <;> cases h

/-- What is left of a line is translated as the line is. -/
theorem of_undirected?_eq_some {line left : Text} (h : undirected? line = some left)
    (lineNo lineNo' : Nat) {r r' : Reading} (hblock : r.inBlock = r'.inBlock) :
    (translateLine lineNo line (Line.classify r.inBlock line)).Alike
        (translateLine lineNo' left (Line.classify r'.inBlock left))
      ∧ (r.next (Line.classify r.inBlock line)).inBlock
        = (r'.next (Line.classify r'.inBlock left)).inBlock := by
  unfold undirected? at h
  split at h
  next => cases h
  next =>
    split at h
    next hdeclaration =>
      cases h
      obtain ⟨d, hd⟩ := Option.isSome_iff_exists.1 hdeclaration
      have hword : declaration? (trim "erDiagram".toList) = some none := by decide
      rw [classify_of_declaration? hd, classify_of_declaration? hword]
      refine ⟨.pure _, ?_⟩
      cases d <;> exact hblock
    next =>
      cases h
      rw [hblock]
      refine ⟨alike_translateLine lineNo lineNo' line _, ?_⟩
      unfold Reading.next
      split
      next => exact hblock
      next => exact hblock
      next => rfl
      next => rfl
      next => exact hblock

-- ================================================================== runs

/-- What is written by a run over lines. -/
def writtenBy (run : List Text × Reading) : List Text := run.1.flatMap Text.writtenLines

theorem writtenBy_translateLines_cons (r : Reading) (line : Nat × Text)
    (lines : List (Nat × Text)) :
    writtenBy <$> translateLines r (line :: lines)
      = translateLine line.1 line.2 (Line.classify r.inBlock line.2) >>= fun out =>
          (out.toList.flatMap Text.writtenLines ++ ·) <$>
            (writtenBy <$> translateLines (r.next (Line.classify r.inBlock line.2)) lines) := by
  rw [translateLines]
  simp only [map_eq_pure_bind, bind_assoc, pure_bind]
  unfold writtenBy
  simp only [List.flatMap_append]

/-- The run lemma: lines and what is left of them are written alike. -/
theorem alike_translateLines (lines : List (Nat × Text)) {lines' : List (Nat × Text)}
    (hleft : lines'.map Prod.snd = undirected (lines.map Prod.snd)) {r r' : Reading}
    (hblock : r.inBlock = r'.inBlock) :
    (writtenBy <$> translateLines r lines).Alike (writtenBy <$> translateLines r' lines') := by
  induction lines generalizing lines' r r' with
  | nil =>
      obtain rfl : lines' = [] := List.map_eq_nil_iff.1 hleft
      exact .pure []
  | cons line lines ih =>
      rw [writtenBy_translateLines_cons]
      unfold undirected at hleft
      rw [List.map_cons] at hleft
      cases hline : undirected? line.2 with
      | none =>
          rw [List.filterMap_cons_none hline] at hleft
          obtain ⟨⟨out, htranslate, hout⟩, hnext⟩ := of_undirected?_eq_none hline line.1 r
          rw [htranslate, pure_bind, hout]
          have hsame : ([] ++ · : List Text → List Text) = id := rfl
          rw [hsame, id_map]
          exact ih hleft (hnext.trans hblock)
      | some left =>
          rw [List.filterMap_cons_some hline] at hleft
          obtain ⟨line', lines', rfl, hline', hrest⟩ := List.map_eq_cons_iff.1 hleft
          rw [writtenBy_translateLines_cons]
          obtain ⟨halike, hnext⟩ := of_undirected?_eq_some hline line.1 line'.1 hblock
          rw [← hline'] at halike hnext
          exact halike.bind fun out => (ih hrest hnext).map _

end Er

-- ================================================================== modes

open Text (hasKeyword)

namespace Er

/-- A declaration is the word, and blanks if anything follows. -/
theorem exists_of_declaration? {t : Text} {d : Option Direction} (h : declaration? t = some d) :
    ∃ word rest : Text, t = word ++ rest ∧ word.map foldCase = erWord
      ∧ ∀ c ∈ rest.head?, isBlank c = true := by
  unfold declaration? at h
  obtain ⟨rest, hrest, hd⟩ := Option.bind_eq_some_iff.1 h
  obtain ⟨word, rfl, hword⟩ := Text.afterAnyCase?_eq_some_iff.1 hrest
  refine ⟨word, rest, rfl, hword, ?_⟩
  cases rest with
  | nil => exact nofun
  | cons c rest =>
      rintro c' ⟨⟩
      obtain ⟨name, hname, -⟩ := Option.bind_eq_some_iff.1 hd
      rw [Text.afterBlanks?] at hname
      split at hname
      next hc => exact hc
      next => cases hname

/-- A declaration begins with the word that makes a source an
entity-relationship diagram. -/
theorem afterKeyword?_of_declaration? {line : Text} {d : Option Direction}
    (h : declaration? (trim line) = some d) :
    (Text.afterKeyword? erWord (Text.trimLeft line)).isSome = true := by
  obtain ⟨word, rest, htrim, hword, hhead⟩ := exists_of_declaration? h
  generalize hends : ((Text.trimLeft line).reverse.takeWhile isBlank).reverse = blanks
  have hblanks : ∀ c ∈ blanks, isBlank c = true := by
    intro c hc
    rw [← hends, List.mem_reverse] at hc
    exact List.all_eq_true.1 List.all_takeWhile c hc
  have hline : Text.trimLeft line = word ++ (rest ++ blanks) := by
    rw [← Text.trimRight_append (Text.trimLeft line), ← trim, htrim, hends, List.append_assoc]
  have hend : Text.atWordEnd (rest ++ blanks) = true := by
    -- the word ends where the line does, or at a blank
    cases hbehind : rest ++ blanks with
    | nil => rfl
    | cons c t =>
        have hc : isBlank c = true := by
          cases rest with
          | nil =>
              rw [List.nil_append] at hbehind
              exact hblanks c (hbehind ▸ List.mem_cons_self)
          | cons c' rest =>
              obtain ⟨rfl, -⟩ := List.cons.inj hbehind
              exact hhead c' rfl
        show (!isWordChar c) = true
        rw [isWordChar_of_isBlank hc]
        rfl
  rw [hline, Text.afterKeyword?, Text.afterAnyCase?_append hword, Option.filter_some, if_pos hend]
  rfl

/-- A source that declares its diagram is an entity-relationship source. -/
theorem mode_of_declaration? {source line : Text} (hline : line ∈ Text.lines source)
    (h : (declaration? (trim line)).isSome = true) : Mode.ofSource source = .er := by
  obtain ⟨d, hd⟩ := Option.isSome_iff_exists.1 h
  exact mode_eq_er_iff.2 ⟨line, hline,
    Text.hasKeyword_of_afterKeyword? (by decide) (afterKeyword?_of_declaration? hd)⟩

/-- Neither a blank line nor a statement of the direction holds an m, which
is in the word. -/
theorem foldCase_ne_of_undirected? {line : Text} (h : undirected? line = none) :
    ∀ c ∈ line, foldCase c ≠ 'm' := by
  intro c hc hfold
  have hletter : isBlank c = false := by
    rw [Bool.eq_false_iff]
    intro hblank
    rw [foldCase_of_isBlank hblank] at hfold
    rw [hfold] at hblank
    exact absurd hblank (by decide)
  have hmem := Text.mem_trim_of_mem hc hletter
  unfold undirected? at h
  split at h
  next hnothing =>
    rcases Bool.or_eq_true_iff.1 hnothing with hblank | hstatement
    · rw [of_decide_eq_true hblank] at hmem
      cases hmem
    · obtain ⟨d, hd⟩ := Option.isSome_iff_exists.1 hstatement
      unfold directionStatement? at hd
      obtain ⟨rest, hrest, hd⟩ := Option.bind_eq_some_iff.1 hd
      obtain ⟨name, hname, hd⟩ := Option.bind_eq_some_iff.1 hd
      have hrest := (mem_of_afterAnyCase? hrest hmem).resolve_left (hfold ▸ by decide)
      have hname := (mem_of_afterBlanks? hname hrest).resolve_left (by simp [hletter])
      exact absurd (mem_of_ofName? hd hname) (hfold ▸ by decide)
  next => split at h <;> cases h

/-- What is left of a line decides whether the word stands in it. -/
theorem hasKeyword_iff_undirected? (line : Text) :
    hasKeyword erWord line false = true
      ↔ ∃ left, undirected? line = some left ∧ hasKeyword erWord left false = true := by
  cases hline : undirected? line with
  | none =>
      refine ⟨fun h => ?_, fun ⟨_, hleft, _⟩ => by cases hleft⟩
      obtain ⟨c, hc, hfold⟩ := Text.exists_mem_of_hasKeyword h (show 'm' ∈ erWord by decide)
      exact absurd hfold (foldCase_ne_of_undirected? hline c hc)
  | some left =>
      have hsame : hasKeyword erWord line false = hasKeyword erWord left false := by
        unfold undirected? at hline
        split at hline
        next => cases hline
        next =>
          split at hline
          next hdeclaration =>
            cases hline
            obtain ⟨d, hd⟩ := Option.isSome_iff_exists.1 hdeclaration
            rw [Text.hasKeyword_of_afterKeyword? (by decide) (afterKeyword?_of_declaration? hd)]
            decide
          next =>
            cases hline
            rfl
      rw [hsame]
      simp

end Er

/-- What is left of a source decides its mode. -/
theorem mode_eq_er_iff_undirected {source : Text} :
    Mode.ofSource source = .er
      ↔ ∃ left ∈ Er.undirected (Text.lines source), hasKeyword erWord left false = true := by
  rw [mode_eq_er_iff]
  unfold Er.undirected
  constructor
  · rintro ⟨line, hline, hword⟩
    obtain ⟨left, hleft, hword⟩ := (Er.hasKeyword_iff_undirected? line).1 hword
    exact ⟨left, List.mem_filterMap.2 ⟨line, hline, hleft⟩, hword⟩
  · rintro ⟨left, hmem, hword⟩
    obtain ⟨line, hline, hleft⟩ := List.mem_filterMap.1 hmem
    exact ⟨line, hline, (Er.hasKeyword_iff_undirected? line).2 ⟨left, hleft, hword⟩⟩

-- ============================================================== outcomes

/-- Two sources compile to one diagram: what is written in it, what its
identifiers stand for and what is reported are the same. Blank lines, the
direction and the numbers of lines may differ. -/
structure Compiled.SameDiagram (a b : Compiled) : Prop where
  mode : a.mode = b.mode
  written : Text.writtenLines a.code = Text.writtenLines b.code
  legend : a.legend = b.legend
  reported : a.diagnostics.map Diagnostic.unnumbered = b.diagnostics.map Diagnostic.unnumbered

/-- Two passes compile to one diagram, or stop for the same reason. -/
def SameOutcome : Except Halt Compiled → Except Halt Compiled → Prop
  | .ok a, .ok b => a.SameDiagram b
  | .error halt, .error halt' => halt.unnumbered = halt'.unnumbered
  | _, _ => False

/-- What is left of two sources decides that they compile to one
diagram. -/
theorem sameOutcome_of_undirected {source source' : Text}
    (hleft : Er.undirected (Text.lines source') = Er.undirected (Text.lines source))
    (hmode : Mode.ofSource source = .er) (strict : Bool) (padding : Int) :
    SameOutcome (compile source strict padding) (compile source' strict padding) := by
  have hmode' : Mode.ofSource source' = .er := by
    rw [mode_eq_er_iff_undirected] at hmode ⊢
    rwa [hleft]
  -- both runs are put beside the one over what is left
  have hshared : ((Er.undirected (Text.lines source)).map fun left => (0, left)).map Prod.snd
      = Er.undirected (Text.lines source) := by
    rw [List.map_map]
    exact List.map_id _
  have hrun := Er.alike_translateLines (Text.numberedLines source)
    (hshared.trans (by rw [Text.map_snd_numberedLines])) (rfl : Er.Reading.inBlock {} = _)
  have hrun' := Er.alike_translateLines (Text.numberedLines source')
    (hshared.trans (by rw [Text.map_snd_numberedLines, hleft])) (rfl : Er.Reading.inBlock {} = _)
  have hends := (hrun { strict := strict, padding := padding } _ rfl).trans
    (hrun' { strict := strict, padding := padding } _ rfl).symm
  rw [compile_er hmode, compile_er hmode']
  rw [map_eq_pure_bind, map_eq_pure_bind] at hends
  simp only [Bind.bind, EStateM.bind] at hends
  generalize Er.translateLines {} (Text.numberedLines source)
    { strict := strict, padding := padding } = result at hends
  generalize Er.translateLines {} (Text.numberedLines source')
    { strict := strict, padding := padding } = result' at hends
  cases result with
  | ok run c =>
      cases result' with
      | ok run' c' =>
          obtain ⟨hwritten, hc⟩ := EStateM.Result.ok.inj hends
          obtain ⟨-, -, hallocator, hreported, -⟩ := Context.unnumbered_eq_iff.1 hc
          refine ⟨rfl, ?_, congrArg Naming.Allocator.legend hallocator, hreported⟩
          show Text.writtenLines (Text.joinLines run.1) = Text.writtenLines (Text.joinLines run'.1)
          rw [Text.writtenLines_joinLines, Text.writtenLines_joinLines]
          exact hwritten
      | error halt' c' => cases hends
  | error halt c =>
      cases result' with
      | ok run' c' => cases hends
      | error halt' c' =>
          obtain ⟨hhalt, -⟩ := EStateM.Result.error.inj hends
          exact hhalt

end FreeLabel
