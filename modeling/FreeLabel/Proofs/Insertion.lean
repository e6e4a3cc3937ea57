/-
Sources with inert lines put in.

# Own lines and lines put in

A source into which lines have been put is given as a list of `Mixed`
lines: each is one of the source's own, or a blank line or comment that
was put in, at whatever place. An inert line is kept as it stands and
changes nothing else, inside a block or outside; so what becomes of the
mixed lines is what becomes of the own ones, with the lines put in back at
their places (`weave`). Own lines are counted on past the lines put in,
which only reports can tell (`Diagnostic.Moved`).

# The mode

The mode of a source is read off all its lines, comments not excepted. A
comment may therefore make a flowchart an entity-relationship diagram, and
this is the only thing that a line put in can do: `compile_of_mixed` says
so for all that compiling gives.
-/
import FreeLabel.Proofs.Beside
import FreeLabel.Proofs.Er.Directions

namespace FreeLabel

open Text (trim)

-- ============================================================ mixed lines

/-- A line of a source into which lines have been put. -/
inductive Mixed
  /-- A line of the source itself. -/
  | own (line : Text)
  /-- A blank line or a comment that was put in. -/
  | put (line : Text) (inert : isInert (trim line) = true)

namespace Mixed

/-- The line as it stands. -/
def text : Mixed → Text
  | own line => line
  | put line _ => line

/-- The line, if it is one of the source's own. -/
def own? : Mixed → Option Text
  | own line => some line
  | put .. => none

/-- The line, if it was put in. -/
def put? : Mixed → Option Text
  | own _ => none
  | put line _ => some line

end Mixed

/-- All lines. -/
def allLines (ms : List Mixed) : List Text := ms.map Mixed.text

/-- The source's own lines. -/
def ownLines (ms : List Mixed) : List Text := ms.filterMap Mixed.own?

/-- The lines that were put in. -/
def putLines (ms : List Mixed) : List Text := ms.filterMap Mixed.put?

/-- The source's own lines with their numbers among all lines, the first of
which is numbered `n`. -/
def ownPlaces (n : Nat) (ms : List Mixed) : List (Nat × Text) :=
  (ms.zipIdx n).filterMap fun (m, n) => m.own?.map (n, ·)

/-- What becomes of all lines, given what becomes of the source's own. -/
def weave : List Mixed → List (Option Text) → List (Option Text)
  | [], _ => []
  | .put line _ :: ms, outs => some line :: weave ms outs
  | .own _ :: ms, out :: outs => out :: weave ms outs
  | .own _ :: _, [] => []

variable {ms : List Mixed} {source source' : Text}

theorem ownPlaces_own (n : Nat) (line : Text) (ms : List Mixed) :
    ownPlaces n (.own line :: ms) = (n, line) :: ownPlaces (n + 1) ms :=
  List.filterMap_cons_some rfl

theorem ownPlaces_put (n : Nat) (line : Text) (h : isInert (trim line) = true)
    (ms : List Mixed) : ownPlaces n (.put line h :: ms) = ownPlaces (n + 1) ms :=
  List.filterMap_cons_none rfl

theorem map_snd_ownPlaces (n : Nat) (ms : List Mixed) :
    (ownPlaces n ms).map Prod.snd = ownLines ms := by
  induction ms generalizing n with
  | nil => rfl
  | cons m ms ih =>
      cases m with
      | own line => rw [ownPlaces_own, List.map_cons, ih]; rfl
      | put line h => rw [ownPlaces_put, ih]; rfl

/-- Lines numbered from `n`. -/
def numberedFrom (n : Nat) (ls : List Text) : List (Nat × Text) :=
  (ls.zipIdx n).map fun (line, n) => (n, line)

theorem numberedFrom_cons (n : Nat) (m : Mixed) (ms : List Mixed) :
    numberedFrom n (allLines (m :: ms)) = (n, m.text) :: numberedFrom (n + 1) (allLines ms) :=
  rfl

-- ============================================================ translating

/-- All lines are translated as the source's own are. -/
theorem Er.translateEach_mixed (r : Reading) (n : Nat) (ms : List Mixed) :
    translateEach r (numberedFrom n (allLines ms))
      = (fun run => (weave ms run.1, run.2)) <$> translateEach r (ownPlaces n ms) := by
  induction ms generalizing r n with
  | nil => rfl
  | cons m ms ih =>
      cases m with
      | own line =>
          rw [ownPlaces_own, numberedFrom_cons, Mixed.text, translateEach, translateEach]
          simp only [ih, map_eq_pure_bind, bind_assoc, pure_bind]
          rfl
      | put line h =>
          rw [ownPlaces_put, numberedFrom_cons, Mixed.text, translateEach]
          simp only [classify_of_isInert h, translateLine, Reading.next, ih, map_eq_pure_bind,
            bind_assoc, pure_bind]
          rfl

theorem Flow.mapM_translateNumbered_mixed (n : Nat) (ms : List Mixed) :
    ((numberedFrom n (allLines ms)).mapM fun line => some <$> translateNumbered line)
      = weave ms <$> (ownPlaces n ms).mapM fun line => some <$> translateNumbered line := by
  induction ms generalizing n with
  | nil => rfl
  | cons m ms ih =>
      cases m with
      | own line =>
          rw [ownPlaces_own, numberedFrom_cons, Mixed.text, List.mapM_cons, List.mapM_cons, ih]
          simp only [map_eq_pure_bind, bind_assoc, pure_bind]
          rfl
      | put line h =>
          have hkept : translateNumbered (n, line) = pure line := by
            unfold translateNumbered
            rw [if_pos (isKept_of_isInert h)]
          rw [ownPlaces_put, numberedFrom_cons, Mixed.text, List.mapM_cons, ih, hkept]
          simp only [map_eq_pure_bind, bind_assoc, pure_bind]
          rfl

/-- What becomes of all lines is what becomes of the source's own, with the
lines put in at their places. -/
theorem translateEach_mixed (n : Nat) (ms : List Mixed) (mode : Mode) :
    translateEach (numberedFrom n (allLines ms)) mode
      = (fun run => (weave ms run.1, run.2)) <$> translateEach (ownPlaces n ms) mode := by
  cases mode with
  | er =>
      unfold translateEach
      rw [Er.translateEach_mixed]
      simp only [map_eq_pure_bind, bind_assoc, pure_bind]
  | flowchart =>
      unfold translateEach
      rw [Flow.mapM_translateNumbered_mixed]
      simp only [map_eq_pure_bind, bind_assoc, pure_bind]

/-- Each line becomes a line, or none. -/
theorem Er.length_translateEach {r : Reading} {lines : List (Nat × Text)} {c d : Context}
    {run : List (Option Text) × Reading} (h : translateEach r lines c = .ok run d) :
    run.1.length = lines.length := by
  induction lines generalizing r c run with
  | nil =>
      cases h
      rfl
  | cons line lines ih =>
      obtain ⟨out, e, -, hrest⟩ := Pass.exists_of_bind_eq_ok h
      obtain ⟨run', e', hrun, hpure⟩ := Pass.exists_of_bind_eq_ok hrest
      cases hpure
      exact congrArg (· + 1) (ih hrun)

theorem Pass.length_mapM {α β : Type} {f : α → Pass β} {as : List α} {bs : List β}
    {c d : Context} (h : as.mapM f c = .ok bs d) : bs.length = as.length := by
  induction as generalizing c bs with
  | nil =>
      cases h
      rfl
  | cons a as ih =>
      rw [List.mapM_cons] at h
      obtain ⟨b, e, -, hrest⟩ := Pass.exists_of_bind_eq_ok h
      obtain ⟨bs', e', hrun, hpure⟩ := Pass.exists_of_bind_eq_ok hrest
      cases hpure
      exact congrArg (· + 1) (ih hrun)

theorem length_translateEach {lines : List (Nat × Text)} {mode : Mode} {c d : Context}
    {run : List (Option Text) × Option Direction} (h : translateEach lines mode c = .ok run d) :
    run.1.length = lines.length := by
  cases mode with
  | er =>
      unfold translateEach at h
      rw [map_eq_pure_bind] at h
      obtain ⟨run', e, hrun, hpure⟩ := Pass.exists_of_bind_eq_ok h
      cases hpure
      exact Er.length_translateEach hrun
  | flowchart =>
      unfold translateEach at h
      rw [map_eq_pure_bind] at h
      obtain ⟨outs, e, hrun, hpure⟩ := Pass.exists_of_bind_eq_ok h
      cases hpure
      exact Pass.length_mapM hrun

-- =============================================================== reports

/-- A report about one of the source's own lines, moved to where the line
stands among all lines. -/
structure Diagnostic.Moved (ms : List Mixed) (d d' : Diagnostic) : Prop where
  line : d'.line = d.line
  complaint : d'.complaint = d.complaint
  place : ∃ i n : Nat, d.lineNo = i + 1 ∧ d'.lineNo = n ∧ (ownPlaces 1 ms)[i]? = some (n, d.line)

/-- The source's own lines, wherever they stand, stand for themselves. -/
theorem standsFor_ownPlaces (ms : List Mixed) :
    List.Forall₂ (StandsFor (Diagnostic.Moved ms) Eq) (numberedFrom 1 (ownLines ms))
      (ownPlaces 1 ms) := by
  rw [← map_snd_ownPlaces 1 ms, List.forall₂_iff_get]
  refine ⟨by simp [numberedFrom], fun i hi hi' => ?_⟩
  have hget : (numberedFrom 1 ((ownPlaces 1 ms).map Prod.snd)).get ⟨i, hi⟩
      = (i + 1, ((ownPlaces 1 ms).get ⟨i, hi'⟩).2) := by
    simp [numberedFrom, Nat.add_comm]
  rw [hget]
  refine ⟨rfl, fun _ => rfl, fun complaint => ⟨rfl, rfl, i, _, rfl, rfl, ?_⟩, rfl⟩
  exact List.getElem?_eq_getElem hi'

-- ================================================================= modes

theorem any_allLines (p : Text → Bool) (ms : List Mixed) :
    (allLines ms).any p = ((ownLines ms).any p || (putLines ms).any p) := by
  induction ms with
  | nil => rfl
  | cons m ms ih =>
      rw [allLines, List.map_cons, List.any_cons, ← allLines, ih]
      cases m with
      | own line => exact (Bool.or_assoc _ _ _).symm
      | put line h => exact Bool.or_left_comm _ _ _

/-- A source keeps its mode unless a line that is put in makes a flowchart an
entity-relationship diagram. -/
theorem mode_eq_of_mixed_iff (hown : Text.lines source = ownLines ms)
    (hall : Text.lines source' = allLines ms) :
    Mode.ofSource source' = Mode.ofSource source
      ↔ Mode.ofSource source = .er
        ∨ ∀ line ∈ putLines ms, Text.hasKeyword erWord line false = false := by
  rw [mode_eq, mode_eq, hall, hown, any_allLines]
  cases (ownLines ms).any fun line => Text.hasKeyword erWord line false with
  | true => simp
  | false =>
      cases hput : (putLines ms).any fun line => Text.hasKeyword erWord line false with
      | true =>
          obtain ⟨line, hline, hword⟩ := List.any_eq_true.1 hput
          refine ⟨nofun, fun h => ?_⟩
          have hnone := (h.resolve_left nofun) line hline
          rw [hword] at hnone
          cases hnone
      | false =>
          refine ⟨fun _ => .inr fun line hline => ?_, fun _ => rfl⟩
          exact Bool.eq_false_iff.2 (List.any_eq_false.1 hput line hline)

-- ============================================================== outcomes

/-- What becomes of each line of a source, if it compiles; none where a line
is not kept. -/
def becomes (source : Text) (strict : Bool) (padding : Int) : Option (List (Option Text)) :=
  match translateEach (Text.numberedLines source) (Mode.ofSource source)
      { strict := strict, padding := padding } with
  | .ok run _ => some run.1
  | .error _ _ => none

/-- What the mixed lines compile to beside what the source compiles to,
whose lines become `outs`. -/
structure Compiled.SameButFor (ms : List Mixed) (outs : List (Option Text)) (a b : Compiled) :
    Prop where
  mode : b.mode = a.mode
  legend : b.legend = a.legend
  direction : b.direction = a.direction
  each : outs.length = (ownLines ms).length
  ownCode : a.code = joined outs
  code : b.code = joined (weave ms outs)
  diagnostics : List.Forall₂ (Diagnostic.Moved ms) a.diagnostics b.diagnostics

/-- Two passes compile to the same but for lines put in, or stop for the same
reason. -/
def SameButFor (ms : List Mixed) (outs? : Option (List (Option Text))) :
    Except Halt Compiled → Except Halt Compiled → Prop
  | .ok a, .ok b => ∃ outs, outs? = some outs ∧ a.SameButFor ms outs b
  | .error halt, .error halt' => halt.Beside (Diagnostic.Moved ms) halt'
  | _, _ => False

/-- Inert lines may be put in anywhere. The source keeps its mode unless it is
a flowchart and a comment that is put in names the entity-relationship
diagram. If not, each of its lines becomes what it became before, the lines
put in stand between them as they are, and all else is the same but for the
numbers of the lines. -/
theorem compile_of_mixed (hown : Text.lines source = ownLines ms)
    (hall : Text.lines source' = allLines ms) (strict : Bool) (padding : Int) :
    (Mode.ofSource source' = Mode.ofSource source
        ↔ Mode.ofSource source = .er
          ∨ ∀ line ∈ putLines ms, Text.hasKeyword erWord line false = false)
      ∧ ((Mode.ofSource source = .er
          ∨ ∀ line ∈ putLines ms, Text.hasKeyword erWord line false = false) →
        SameButFor ms (becomes source strict padding) (compile source strict padding)
          (compile source' strict padding)) := by
  refine ⟨mode_eq_of_mixed_iff hown hall, fun hword => ?_⟩
  have hmode := (mode_eq_of_mixed_iff hown hall).2 hword
  have hlines : Text.numberedLines source = numberedFrom 1 (ownLines ms) := by
    rw [← hown]
    rfl
  have hlines' : Text.numberedLines source' = numberedFrom 1 (allLines ms) := by
    rw [← hall]
    rfl
  have hends := beside_translateEach (fun _ => rfl) (standsFor_ownPlaces ms)
    (Mode.ofSource source) { strict := strict, padding := padding }
    { strict := strict, padding := padding } ⟨rfl, rfl, rfl, rfl, .nil⟩
  have hmixed : translateEach (numberedFrom 1 (allLines ms)) (Mode.ofSource source)
        { strict := strict, padding := padding }
      = ((fun run => (weave ms run.1, run.2)) <$>
          translateEach (ownPlaces 1 ms) (Mode.ofSource source))
          { strict := strict, padding := padding } := by
    rw [translateEach_mixed]
  rw [map_eq_pure_bind] at hmixed
  simp only [Bind.bind, EStateM.bind] at hmixed
  unfold becomes
  rw [compile_eq_joined, compile_eq_joined, hmode, hlines, hlines', hmixed]
  obtain ⟨run, c, run', c', hrun, hrun', ⟨houts, hdirection⟩, hc⟩
      | ⟨halt, c, halt', c', hrun, hrun', hhalt, -⟩ := hends.ok_or_error
  · have hlength : run.1.length = (ownLines ms).length := by
      rw [length_translateEach hrun]
      simp [numberedFrom]
    rw [List.forall₂_eq_eq_eq] at houts
    rw [hrun, hrun']
    refine ⟨run.1, rfl, rfl, congrArg Naming.Allocator.legend hc.allocator, hdirection,
      hlength, rfl, ?_, hc.diagnostics⟩
    rw [houts]
  · rw [hrun, hrun']
    exact hhalt

/-- A flowchart with a comment and a blank line put in. -/
def commentedFlowchart : List Mixed :=
  [.own "flowchart TD".toList, .put "%% who knows whom".toList rfl,
    .own "\"a\" -->? \"b\"".toList, .put "  ".toList rfl, .own "\"b\" --> \"a\"".toList]

/-- Two of its own lines are moved by the lines put in. -/
theorem compile_of_commentedFlowchart :
    Text.lines "flowchart TD\n\"a\" -->? \"b\"\n\"b\" --> \"a\"".toList
        = ownLines commentedFlowchart
      ∧ Text.lines ("flowchart TD\n%% who knows whom\n\"a\" -->? \"b\"\n  \n" ++
            "\"b\" --> \"a\"").toList
        = allLines commentedFlowchart
      ∧ (∀ line ∈ putLines commentedFlowchart, Text.hasKeyword erWord line false = false)
      ∧ SameButFor commentedFlowchart
          (becomes "flowchart TD\n\"a\" -->? \"b\"\n\"b\" --> \"a\"".toList false 2)
          (compile "flowchart TD\n\"a\" -->? \"b\"\n\"b\" --> \"a\"".toList false 2)
          (compile ("flowchart TD\n%% who knows whom\n\"a\" -->? \"b\"\n  \n" ++
            "\"b\" --> \"a\"").toList false 2) := by
  have hown : Text.lines "flowchart TD\n\"a\" -->? \"b\"\n\"b\" --> \"a\"".toList
      = ownLines commentedFlowchart := by decide +kernel
  have hall : Text.lines ("flowchart TD\n%% who knows whom\n\"a\" -->? \"b\"\n  \n" ++
        "\"b\" --> \"a\"").toList
      = allLines commentedFlowchart := by decide +kernel
  have hword : ∀ line ∈ putLines commentedFlowchart,
      Text.hasKeyword erWord line false = false := by decide +kernel
  exact ⟨hown, hall, hword, (compile_of_mixed hown hall false 2).2 (.inr hword)⟩

/-- A comment that names the entity-relationship diagram makes a flowchart
one, and nothing of it is translated. -/
theorem comment_changes_mode :
    ∃ (ms : List Mixed) (before after : Compiled),
      Text.lines "flowchart TD\n\"a\" --> \"b\"".toList = ownLines ms
        ∧ Text.lines "%% erDiagram\nflowchart TD\n\"a\" --> \"b\"".toList = allLines ms
        ∧ compile "flowchart TD\n\"a\" --> \"b\"".toList false 2 = .ok before
        ∧ before.mode = .flowchart
        ∧ before.code = "flowchart TD\na[\"a\"] --> b[\"b\"]".toList
        ∧ before.legend.entries = [("a".toList, "a".toList), ("b".toList, "b".toList)]
        ∧ compile "%% erDiagram\nflowchart TD\n\"a\" --> \"b\"".toList false 2 = .ok after
        ∧ after.mode = .er
        ∧ after.code = "%% erDiagram\nflowchart TD\n\"a\" --> \"b\"".toList
        ∧ after.legend.entries = [] := by
  obtain ⟨before, hbefore, hmode, hcode, hentries⟩ := exists_compiled
    "flowchart TD\n\"a\" --> \"b\"".toList "flowchart TD\na[\"a\"] --> b[\"b\"]".toList
    .flowchart [("a".toList, "a".toList), ("b".toList, "b".toList)] (by decide +kernel)
  obtain ⟨after, hafter, hmode', hcode', hentries'⟩ := exists_compiled
    "%% erDiagram\nflowchart TD\n\"a\" --> \"b\"".toList
    "%% erDiagram\nflowchart TD\n\"a\" --> \"b\"".toList .er [] (by decide +kernel)
  exact ⟨[.put "%% erDiagram".toList rfl, .own "flowchart TD".toList,
      .own "\"a\" --> \"b\"".toList], before, after, by decide +kernel, by decide +kernel,
    hbefore, hmode, hcode, hentries, hafter, hmode', hcode', hentries'⟩

end FreeLabel
