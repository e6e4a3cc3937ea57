/-
Sources with other line ends.

# A carriage return behind a line

`Text.withReturns` puts a carriage return before every line feed of a
text. Its lines are those of the text, and behind each but the last one
there is a carriage return (`Text.lines_withReturns`). A carriage return
is a blank. So the line is trimmed to the same text and has the same
indent, and it stands for the line without the carriage return wherever
lines are translated (`Beside.lean`).

# What is left of it

The carriage return stays in a line that is kept as it is, and in what a
report says of its line. But a diagram is checked, and drawn, without its
carriage returns, and the reported line is trimmed in the words of the
report. So the same drawing is asked for, and the same is shown
(`preview_withReturns`).
-/
import FreeLabel.Proofs.Beside
import FreeLabel.Proofs.Preview

namespace FreeLabel

namespace Text

-- ============================================================= line ends

/-- A text with a carriage return before every line feed. -/
def withReturns (s : Text) : Text :=
  s.flatMap fun c => if c = '\n' then ['\r', '\n'] else [c]

/-- A line is another one, or is it but for a carriage return behind
it. -/
def SameButReturn (line line' : Text) : Prop := line' = line ∨ line' = line ++ ['\r']

variable {line line' s : Text}

theorem withReturns_append (s t : Text) :
    withReturns (s ++ t) = withReturns s ++ withReturns t :=
  List.flatMap_append

theorem withReturns_eq_self (hs : '\n' ∉ s) : withReturns s = s := by
  have hchar : ∀ c ∈ s, (if c = '\n' then ['\r', '\n'] else [c]) = [c] := by
    intro c hc
    rw [if_neg]
    rintro rfl
    exact hs hc
  unfold withReturns
  rw [List.flatMap_congr hchar, List.flatMap_singleton']

/-- The lines of a text with carriage returns. -/
theorem lines_withReturns (s : Text) :
    List.Forall₂ SameButReturn (lines s) (lines (withReturns s)) := by
  have hfree : ∀ line ∈ lines s, '\n' ∉ line := fun _ => newline_not_mem_of_mem_lines
  have hne : lines s ≠ [] := List.splitOn_ne_nil '\n' s
  conv => arg 3; rw [← joinLines_lines s]
  generalize lines s = ls at hfree hne
  induction ls with
  | nil => exact absurd rfl hne
  | cons line rest ih =>
      have hline := hfree line List.mem_cons_self
      cases rest with
      | nil =>
          rw [joinLines, List.intercalate_singleton, withReturns_eq_self hline,
            lines_eq_singleton hline]
          exact .cons (.inl rfl) .nil
      | cons next rest =>
          have hsplit : withReturns (joinLines (line :: next :: rest))
              = (line ++ ['\r']) ++ '\n' :: withReturns (joinLines (next :: rest)) := by
            rw [joinLines_cons_cons, withReturns_append, withReturns_eq_self hline,
              List.append_assoc]
            rfl
          have hreturn : '\n' ∉ line ++ ['\r'] := by simp [hline]
          rw [hsplit, lines_append_newline, lines_eq_singleton hreturn]
          exact .cons (.inr rfl)
            (ih (fun line h => hfree line (List.mem_cons_of_mem _ h)) (List.cons_ne_nil _ _))

theorem SameButReturn.trim_eq (h : SameButReturn line line') : trim line' = trim line := by
  rcases h with rfl | rfl
  · rfl
  · exact trim_append_blanks (forall_mem_of_all (by decide))

theorem SameButReturn.indent_eq (h : SameButReturn line line') (hne : trim line ≠ []) :
    indent line' = indent line := by
  rcases h with rfl | rfl
  · rfl
  · exact indent_append_of_trim hne _

theorem SameButReturn.dropReturns_eq (h : SameButReturn line line') :
    dropReturns line' = dropReturns line := by
  rcases h with rfl | rfl
  · rfl
  · unfold dropReturns
    rw [List.filter_append]
    exact List.append_nil _

theorem SameButReturn.hasKeyword_eq (h : SameButReturn line line') :
    hasKeyword erWord line' false = hasKeyword erWord line false := by
  rcases h with rfl | rfl
  · rfl
  · rw [hasKeyword_append_blank (by decide) (by decide) (by decide)]
    exact Bool.or_false _

theorem dropReturns_joinLines (ls : List Text) :
    dropReturns (joinLines ls) = joinLines (ls.map dropReturns) := by
  induction ls with
  | nil => rfl
  | cons line rest ih =>
      cases rest with
      | nil =>
          rw [List.map_singleton, joinLines, joinLines, List.intercalate_singleton,
            List.intercalate_singleton]
      | cons next rest =>
          rw [joinLines_cons_cons, List.map_cons, List.map_cons, joinLines_cons_cons,
            ← List.map_cons, ← ih]
          unfold dropReturns
          rw [List.filter_append]
          rfl

end Text

theorem mode_withReturns (source : Text) :
    Mode.ofSource source.withReturns = Mode.ofSource source := by
  have hany := Text.lines_withReturns source
  rw [mode_eq, mode_eq]
  generalize Text.lines source = ls, Text.lines source.withReturns = ls' at hany
  have hsame : (ls'.any fun line => Text.hasKeyword erWord line false)
      = ls.any fun line => Text.hasKeyword erWord line false := by
    induction hany with
    | nil => rfl
    | cons hline _ ih => rw [List.any_cons, List.any_cons, hline.hasKeyword_eq, ih]
  rw [hsame]

-- ============================================================== compiling

/-- Two reports say the same of lines that are the same but for a carriage
return. -/
structure Diagnostic.SameButReturn (d d' : Diagnostic) : Prop where
  lineNo : d'.lineNo = d.lineNo
  line : Text.SameButReturn d.line d'.line
  complaint : d'.complaint = d.complaint

/-- Two sources compile to the same but for carriage returns. -/
structure Compiled.SameButReturns (a b : Compiled) : Prop where
  mode : b.mode = a.mode
  code : dropReturns b.code = dropReturns a.code
  legend : b.legend = a.legend
  direction : b.direction = a.direction
  diagnostics : List.Forall₂ Diagnostic.SameButReturn a.diagnostics b.diagnostics

/-- Two passes compile to the same but for carriage returns, or stop for
the same reason. -/
def SameCompiled : Except Halt Compiled → Except Halt Compiled → Prop
  | .ok a, .ok b => a.SameButReturns b
  | .error halt, .error halt' => halt.Beside Diagnostic.SameButReturn halt'
  | _, _ => False

/-- The lines with carriage returns stand for those without. -/
theorem standsFor_withReturns (source : Text) :
    List.Forall₂
      (StandsFor Diagnostic.SameButReturn fun out out' =>
        out.map dropReturns = out'.map dropReturns)
      (Text.numberedLines source) (Text.numberedLines source.withReturns) := by
  refine (Text.forall₂_numberedLines (Text.lines_withReturns source)).imp ?_
  rintro line line' ⟨hnumber, hline⟩
  exact
    { trimmed := hline.trim_eq
      indent := hline.indent_eq
      reported := fun complaint =>
        { lineNo := congrArg Int.ofNat hnumber, line := hline, complaint := rfl }
      kept := congrArg some hline.dropReturns_eq.symm }

/-- Lines that are the same but for carriage returns make such a diagram. -/
theorem dropReturns_joined {outs outs' : List (Option Text)}
    (h : List.Forall₂ (fun out out' => out.map dropReturns = out'.map dropReturns) outs outs') :
    dropReturns (joined outs') = dropReturns (joined outs) := by
  have hmap : outs.map (Option.map dropReturns) = outs'.map (Option.map dropReturns) :=
    forall₂_map_iff.1 h
  unfold joined
  rw [Text.dropReturns_joinLines, Text.dropReturns_joinLines, ← List.reduceOption_map,
    ← List.reduceOption_map, hmap]

theorem sameCompiled_withReturns (source : Text) (strict : Bool) (padding : Int) :
    SameCompiled (compile source strict padding) (compile source.withReturns strict padding) := by
  have hends := beside_translateEach
    (K := fun out out' => out.map dropReturns = out'.map dropReturns) (fun _ => rfl)
    (standsFor_withReturns source) (Mode.ofSource source) { strict := strict, padding := padding }
    { strict := strict, padding := padding } ⟨rfl, rfl, rfl, rfl, .nil⟩
  rw [compile_eq_joined, compile_eq_joined, mode_withReturns]
  obtain ⟨run, c, run', c', hrun, hrun', ⟨houts, hdirection⟩, hc⟩
      | ⟨halt, c, halt', c', hrun, hrun', hhalt, -⟩ := hends.ok_or_error
  · rw [hrun, hrun']
    exact ⟨rfl, dropReturns_joined houts, congrArg Naming.Allocator.legend hc.allocator,
      hdirection, hc.diagnostics⟩
  · rw [hrun, hrun']
    exact hhalt

-- ============================================================= previewing

/-- The reason to stop is told in the same words. -/
theorem Halt.message_eq {halt halt' : Halt}
    (h : halt.Beside Diagnostic.SameButReturn halt') : halt'.message = halt.message := by
  cases halt with
  | malformed d =>
      cases halt' with
      | malformed d' =>
          have hsame : d.SameButReturn d' := h
          unfold message
          dsimp only
          rw [hsame.lineNo, hsame.complaint, hsame.line.trim_eq]
      | conflict e => exact h.elim
  | conflict e =>
      cases halt' with
      | malformed d' => exact h.elim
      | conflict e' =>
          cases h
          rfl

/-- Two previews show the same, of sources that compile to the same but for
carriage returns. -/
structure Preview.SameShown (p q : Preview) : Prop where
  drawing : q.drawing? = p.drawing?
  error : q.error? = p.error?
  placeholder : q.placeholder? = p.placeholder?
  compiled : Option.Rel Compiled.SameButReturns p.compiled? q.compiled?

/-- Two previews show the same, or the same obstacle is in the way of both. -/
def SameAnswer : Except Obstacle Preview → Except Obstacle Preview → Prop
  | .ok p, .ok q => p.SameShown q
  | .error o, .error o' => o' = o
  | _, _ => False

/-- Two drafts show the same, or ask for the same drawing. -/
def SameDraft : Preview.Draft → Preview.Draft → Prop
  | .settled p, .settled q => p.SameShown q
  | .awaiting a request, .awaiting b request' => a.SameButReturns b ∧ request' = request
  | _, _ => False

theorem trim_withReturns_eq_nil_iff (source : Text) :
    Text.trim source.withReturns = [] ↔ Text.trim source = [] := by
  rw [Text.trim_eq_nil_iff, Text.trim_eq_nil_iff]
  unfold Text.withReturns
  constructor
  · intro h c hc
    refine h c (List.mem_flatMap.2 ⟨c, hc, ?_⟩)
    split <;> simp_all
  · intro h c hc
    obtain ⟨d, hd, hc⟩ := List.mem_flatMap.1 hc
    split at hc
    next =>
      rcases List.mem_cons.1 hc with rfl | hc
      · decide
      · obtain rfl := List.mem_singleton.1 hc
        decide
    next =>
      obtain rfl := List.mem_singleton.1 hc
      exact h c hd

theorem checkContent_eq {code code' : Text} (h : dropReturns code' = dropReturns code) :
    checkContent code' = checkContent code := by
  unfold checkContent
  rw [h]

theorem sameDraft_withReturns (source : Text) (strict : Bool) (padding : Int) :
    SameDraft (Preview.draft source strict padding)
      (Preview.draft source.withReturns strict padding) := by
  have hcompile := sameCompiled_withReturns source strict padding
  unfold Preview.draft
  simp only [trim_withReturns_eq_nil_iff]
  split
  next => exact ⟨rfl, rfl, rfl, .none⟩
  next =>
    generalize compile source strict padding = outcome at hcompile
    generalize compile source.withReturns strict padding = outcome' at hcompile
    cases outcome with
    | error why =>
        cases outcome' with
        | error why' =>
            refine ⟨rfl, congrArg some ?_, rfl, .none⟩
            show _ ++ Markup.escapeText why'.message = _ ++ Markup.escapeText why.message
            rw [Halt.message_eq hcompile]
            rfl
        | ok compiled' => exact hcompile.elim
    | ok compiled =>
        cases outcome' with
        | error why' => exact hcompile.elim
        | ok compiled' =>
            have hsame : compiled.SameButReturns compiled' := hcompile
            simp only [checkContent_eq hsame.code]
            cases checkContent compiled.code with
            | error why => exact ⟨rfl, rfl, rfl, .some hsame⟩
            | ok diagram =>
                refine ⟨hsame, ?_⟩
                rw [hsame.direction]

theorem sameAnswer_finish {a b : Compiled} (h : a.SameButReturns b) (room : Room)
    (nowrap : Bool) (answer : Except Refusal CodePoints) :
    SameAnswer (Preview.finish room a nowrap answer) (Preview.finish room b nowrap answer) := by
  generalize hfinish : Preview.finish room a nowrap answer = outcome
  -- what is finished for `a` is finished for `b` too
  cases finish_eq_iff.1 hfinish with
  | refused => exact ⟨rfl, rfl, rfl, .some h⟩
  | unencodable hencode =>
      rw [finish_unencodable hencode]
      exact rfl
  | unreadable hread =>
      rw [finish_eq_iff.2 (.unreadable hread)]
      exact ⟨rfl, rfl, rfl, .some h⟩
  | tooDeep hread hdeep =>
      rw [finish_eq_iff.2 (.tooDeep hread hdeep)]
      exact rfl
  | drawn hread hfits =>
      rw [finish_eq_iff.2 (.drawn hread hfits), h.legend]
      exact ⟨rfl, rfl, rfl, .some h⟩

/-- Line ends make no difference. A source and the one with a carriage
return before every line feed compile to the same but for carriage
returns, or both stop for the same reason; and the same is shown of them,
whatever draws them. -/
theorem preview_withReturns (render : Engine.Renderer) (room : Room) (source : Text)
    (strict : Bool) (padding : Int) (nowrap : Bool) :
    SameCompiled (compile source strict padding) (compile source.withReturns strict padding)
      ∧ SameAnswer (preview render room source strict padding nowrap)
          (preview render room source.withReturns strict padding nowrap) := by
  refine ⟨sameCompiled_withReturns source strict padding, ?_⟩
  have hdraft := sameDraft_withReturns source strict padding
  unfold preview
  generalize Preview.draft source strict padding = draft at hdraft
  generalize Preview.draft source.withReturns strict padding = draft' at hdraft
  cases draft with
  | settled p =>
      cases draft' with
      | settled q => exact hdraft
      | awaiting b request' => exact hdraft.elim
  | awaiting a request =>
      cases draft' with
      | settled q => exact hdraft.elim
      | awaiting b request' =>
          obtain ⟨hsame, rfl⟩ := hdraft
          simp only
          cases render request'.diagram (request'.direction.map Direction.name) with
          | error missing => exact rfl
          | ok answer => exact sameAnswer_finish hsame room nowrap answer

end FreeLabel
