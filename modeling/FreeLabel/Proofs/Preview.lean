/-
What can come of a preview.

# One call at most

`preview` takes its renderer for a function, and a function leaves no trace
of having been asked. `Preview.make` is the same preview for a renderer
with effects (`preview_eq_make`), and `recorded` keeps account of what a
renderer is asked for. So it can be told how often that happens, and what
had been settled before: the source compiled, and the diagram carries no
active content (`Call.Due`).

# Trouble and obstacles

What goes wrong is shown in the preview or keeps it from being made.
`Finishes` says which of both becomes of an answer, once for all that
follows. `Trouble.Arises` and `Obstacle.Arises` say what goes wrong, stage
by stage, without reference to the preview; a preview reports a trouble
exactly if it arises (`error?_eq_some_iff`), and it is not made exactly if
an obstacle does (`preview_eq_error_iff`).

Most of what can be wrong with a drawing is a trouble. But before a drawing
is read it has to be encoded, and after that it has to be written again;
what goes wrong there is an obstacle, though the engine is not missing
(`preview_unmade`). Drawings that are made offline are never in the way, and
those of the engine are if they are too deep (`Obstacle.arises_under_iff`).
A source is a text here, so no surrogate gets into a drawing from it.
-/
import FreeLabel.Proofs.Drawing.Depth
import FreeLabel.Proofs.Reports
import FreeLabel.Proofs.Strictness

namespace FreeLabel

open Engine (Missing Renderer)
open Markup (Element)

-- ================================================================== calls

/-- What a renderer is asked for: a diagram, and a direction for it. -/
structure Call where
  diagram : Text
  direction : Option Text

/-- The answer of a renderer. -/
def Engine.Renderer.answer (render : Renderer) (call : Call) :
    Except Missing (Except Refusal CodePoints) := render call.diagram call.direction

/-- A preview whose renderer has effects. -/
def Preview.make {m : Type → Type} [Monad m]
    (render : Text → Option Text → m (Except Missing (Except Refusal CodePoints)))
    (room : Room) (source : Text) (strict : Bool) (padding : Int) (nowrap : Bool) :
    m (Except Obstacle Preview) :=
  match Preview.draft source strict padding with
  | .settled p => pure (.ok p)
  | .awaiting compiled request => do
    match ← render request.diagram (request.direction.map Direction.name) with
    | .error why => pure (.error (.noEngine why))
    | .ok answer => pure (Preview.finish room compiled nowrap answer)

/-- Without effects, it is the preview. -/
theorem preview_eq_make (render : Renderer) (room : Room) (source : Text) (strict : Bool)
    (padding : Int) (nowrap : Bool) :
    preview render room source strict padding nowrap
      = Id.run (Preview.make render room source strict padding nowrap) := by
  unfold preview Preview.make
  cases Preview.draft source strict padding with
  | settled p => rfl
  | awaiting compiled request =>
      simp only
      cases render request.diagram (request.direction.map Direction.name) with
      | error why => rfl
      | ok answer => rfl

/-- A call that a source gives cause for: it says something and compiles,
and the call is for its diagram without carriage returns, which carries no
active content, in the direction that was compiled. -/
structure Call.Due (call : Call) (source : Text) (strict : Bool) (padding : Int)
    (compiled : Compiled) : Prop where
  written : Text.trim source ≠ []
  compiles : compile source strict padding = .ok compiled
  diagram : call.diagram = dropReturns compiled.code
  inactive : ∀ k : ActiveContent, k.occurs call.diagram = false
  direction : call.direction = compiled.direction.map Direction.name

variable {source : Text} {strict : Bool} {padding : Int} {compiled : Compiled}

theorem checkContent_eq_ok_iff {code diagram : Text} :
    checkContent code = .ok diagram
      ↔ diagram = dropReturns code ∧ ∀ k : ActiveContent, k.occurs diagram = false := by
  have hall : ∀ k : ActiveContent, k ∈ ActiveContent.all := by
    intro k
    cases k <;> decide
  unfold checkContent
  simp only
  split
  next hnone =>
    rw [List.filter_eq_nil_iff] at hnone
    constructor
    · intro h
      cases h
      exact ⟨rfl, fun k => by simpa using hnone k (hall k)⟩
    · rintro ⟨rfl, -⟩
      rfl
  next hfound =>
    refine ⟨nofun, ?_⟩
    rintro ⟨rfl, hquiet⟩
    refine absurd (List.filter_eq_nil_iff.2 fun k _ => ?_) hfound
    simp [hquiet k]

/-- A draft awaits an answer exactly if a call is due. -/
theorem draft_eq_awaiting_iff {request : Preview.Request} :
    Preview.draft source strict padding = .awaiting compiled request
      ↔ request.direction = compiled.direction
        ∧ Call.Due { diagram := request.diagram
                     direction := request.direction.map Direction.name }
            source strict padding compiled := by
  unfold Preview.draft
  split
  next hblank => exact ⟨nofun, fun h => absurd hblank h.2.written⟩
  next hwritten =>
    split
    next why hcompile =>
      refine ⟨nofun, fun h => ?_⟩
      cases hcompile.symm.trans h.2.compiles
    next compiled' hcompile =>
      split
      next why hcheck =>
        refine ⟨nofun, fun h => ?_⟩
        cases hcompile.symm.trans h.2.compiles
        cases hcheck.symm.trans (checkContent_eq_ok_iff.2 ⟨h.2.diagram, h.2.inactive⟩)
      next diagram hcheck =>
        obtain ⟨hdiagram, hquiet⟩ := checkContent_eq_ok_iff.1 hcheck
        constructor
        · intro h
          cases h
          exact ⟨rfl, hwritten, hcompile, hdiagram, hquiet, rfl⟩
        · rintro ⟨hdirection, h⟩
          cases hcompile.symm.trans h.compiles
          obtain ⟨d, dir⟩ := request
          obtain rfl : d = diagram := h.diagram.trans hdiagram.symm
          obtain rfl : dir = compiled.direction := hdirection
          rfl

theorem draft_of_due {call : Call} (h : Call.Due call source strict padding compiled) :
    Preview.draft source strict padding
      = .awaiting compiled { diagram := call.diagram, direction := compiled.direction } :=
  draft_eq_awaiting_iff.2 ⟨rfl, { h with direction := rfl }⟩

/-- A draft is settled if the source says nothing, does not compile, or
compiles to a diagram with active content. -/
theorem draft_eq_settled_iff {p : Preview} :
    Preview.draft source strict padding = .settled p
      ↔ Text.trim source = [] ∧ p = .placeholder
        ∨ Text.trim source ≠ []
          ∧ ((∃ why, compile source strict padding = .error why
              ∧ p = .failed none (.notCompiled why))
            ∨ ∃ compiled why, compile source strict padding = .ok compiled
              ∧ checkContent compiled.code = .error why
              ∧ p = .failed (some compiled) (.blocked why)) := by
  unfold Preview.draft
  split
  next hblank =>
    constructor
    · intro h
      cases h
      exact .inl ⟨hblank, rfl⟩
    · rintro (⟨-, rfl⟩ | ⟨hwritten, -⟩)
      · rfl
      · exact absurd hblank hwritten
  next hwritten =>
    split
    next why hcompile =>
      constructor
      · intro h
        cases h
        exact .inr ⟨hwritten, .inl ⟨why, hcompile, rfl⟩⟩
      · rintro (⟨h, -⟩ | ⟨-, ⟨_, h, rfl⟩ | ⟨_, _, h, -⟩⟩)
        · exact absurd h hwritten
        · cases hcompile.symm.trans h
          rfl
        · cases hcompile.symm.trans h
    next compiled hcompile =>
      split
      next why hcheck =>
        constructor
        · intro h
          cases h
          exact .inr ⟨hwritten, .inr ⟨compiled, why, hcompile, hcheck, rfl⟩⟩
        · rintro (⟨h, -⟩ | ⟨-, ⟨_, h, -⟩ | ⟨_, _, h, h', rfl⟩⟩)
          · exact absurd h hwritten
          · cases hcompile.symm.trans h
          · cases hcompile.symm.trans h
            cases hcheck.symm.trans h'
            rfl
      next diagram hcheck =>
        refine ⟨nofun, ?_⟩
        rintro (⟨h, -⟩ | ⟨-, ⟨_, h, -⟩ | ⟨_, _, h, h', -⟩⟩)
        · exact absurd h hwritten
        · cases hcompile.symm.trans h
        · cases hcompile.symm.trans h
          cases hcheck.symm.trans h'

-- ================================================================ answers

/-- What becomes of an answer: a preview, or an obstacle to one. -/
inductive Preview.Finishes (room : Room) (compiled : Compiled) (nowrap : Bool) :
    Except Refusal CodePoints → Except Obstacle Preview → Prop
  /-- It is a refusal. -/
  | refused {why : Refusal} :
    Finishes room compiled nowrap (.error why) (.ok (.failed (some compiled) (.refused why)))
  /-- It cannot be encoded. -/
  | unencodable {answer : CodePoints} {why : Unencodable}
    (unencoded : Text.ofCodePoints answer = .error why) :
    Finishes room compiled nowrap (.ok answer) (.error (.unencodable why))
  /-- It cannot be read. -/
  | unreadable {drawing : Text} {why : Refusal} (unread : readDrawing drawing = .error why) :
    Finishes room compiled nowrap (.ok drawing.codePoints)
      (.ok (.failed (some compiled) (.refused why)))
  /-- There is no room to write it again. -/
  | tooDeep {drawing : Text} {element : Element} (read : readDrawing drawing = .ok element)
    (deep : room.levels < element.depth) :
    Finishes room compiled nowrap (.ok drawing.codePoints) (.error (.tooDeep {}))
  /-- It is shown with the names in it. -/
  | drawn {drawing : Text} {element : Element} (read : readDrawing drawing = .ok element)
    (fits : element.depth ≤ room.levels) :
    Finishes room compiled nowrap (.ok drawing.codePoints)
      (.ok (.drawn compiled (restore compiled.legend nowrap element).write))

variable {room : Room} {nowrap : Bool}

theorem finish_unencodable {answer : CodePoints} {why : Unencodable}
    (h : Text.ofCodePoints answer = .error why) :
    Preview.finish room compiled nowrap (.ok answer) = .error (.unencodable why) := by
  unfold Preview.finish
  simp only [h]

theorem finish_codePoints (drawing : Text) :
    Preview.finish room compiled nowrap (.ok drawing.codePoints)
      = match readDrawing drawing with
        | .error why => .ok (.failed (some compiled) (.refused why))
        | .ok element =>
          if element.depth ≤ room.levels then
            .ok (.drawn compiled (restore compiled.legend nowrap element).write)
          else .error (.tooDeep {}) := by
  unfold Preview.finish
  simp only [Text.ofCodePoints_codePoints]
  cases readDrawing drawing with
  | error why => rfl
  | ok element =>
      simp only [Markup.Element.writeWithin_eq, Restore.depth_restore]
      by_cases hfits : element.depth ≤ room.levels
      · simp only [if_pos hfits]
      · simp only [if_neg hfits]

theorem finish_eq_iff {answer : Except Refusal CodePoints} {outcome : Except Obstacle Preview} :
    Preview.finish room compiled nowrap answer = outcome
      ↔ Preview.Finishes room compiled nowrap answer outcome := by
  constructor
  · rintro rfl
    cases answer with
    | error why => exact .refused
    | ok answer =>
        cases hencode : Text.ofCodePoints answer with
        | error why =>
            rw [finish_unencodable hencode]
            exact .unencodable hencode
        | ok drawing =>
            obtain rfl := Text.ofCodePoints_eq_ok_iff.1 hencode
            rw [finish_codePoints]
            split
            next why hread => exact .unreadable hread
            next element hread =>
              split
              next hfits => exact .drawn hread hfits
              next hdeep => exact .tooDeep hread (Nat.lt_of_not_le hdeep)
  · intro h
    cases h with
    | refused => rfl
    | unencodable hencode => exact finish_unencodable hencode
    | unreadable hread => rw [finish_codePoints, hread]
    | tooDeep hread hdeep =>
        rw [finish_codePoints, hread]
        exact if_neg (Nat.not_le.2 hdeep)
    | drawn hread hfits =>
        rw [finish_codePoints, hread]
        exact if_pos hfits

variable {render : Renderer}

/-- A call that is due is made, and the preview finished from the
answer. -/
theorem preview_of_due {call : Call} (h : Call.Due call source strict padding compiled) :
    preview render room source strict padding nowrap
      = match render.answer call with
        | .error why => .error (.noEngine why)
        | .ok answer => Preview.finish room compiled nowrap answer := by
  have hcall : render call.diagram (compiled.direction.map Direction.name)
      = render.answer call := by
    rw [Renderer.answer, h.direction]
  cases hanswer : render.answer call with
  | error why => simp only [preview, draft_of_due h, hcall, hanswer]
  | ok answer => simp only [preview, draft_of_due h, hcall, hanswer]

/-- A preview is a settled draft, or it comes of the answer to the call that
is due. -/
theorem of_preview_eq {outcome : Except Obstacle Preview}
    (h : preview render room source strict padding nowrap = outcome) :
    (∃ p, Preview.draft source strict padding = .settled p ∧ outcome = .ok p)
      ∨ ∃ call compiled, Call.Due call source strict padding compiled
        ∧ ((∃ why, render.answer call = .error why ∧ outcome = .error (.noEngine why))
          ∨ ∃ answer, render.answer call = .ok answer
            ∧ Preview.Finishes room compiled nowrap answer outcome) := by
  unfold preview at h
  split at h
  next p hdraft => exact .inl ⟨p, hdraft, h.symm⟩
  next compiled request hdraft =>
    obtain ⟨-, hdue⟩ := draft_eq_awaiting_iff.1 hdraft
    refine .inr ⟨_, compiled, hdue, ?_⟩
    split at h
    next why hanswer => exact .inl ⟨why, hanswer, h.symm⟩
    next answer hanswer => exact .inr ⟨answer, hanswer, finish_eq_iff.1 h⟩

/-- A drawing is shown exactly if the call that is due is answered with one
that can be read and written again, and it is that one with the names in
it. -/
theorem preview_eq_drawn_iff {shown : Text} :
    preview render room source strict padding nowrap = .ok (.drawn compiled shown)
      ↔ ∃ call drawing element, Call.Due call source strict padding compiled
        ∧ render.answer call = .ok (.ok drawing.codePoints)
        ∧ readDrawing drawing = .ok element ∧ element.depth ≤ room.levels
        ∧ shown = (restore compiled.legend nowrap element).write := by
  constructor
  · intro h
    rcases of_preview_eq h with ⟨p, hdraft, hp⟩
      | ⟨call, compiled', hdue, ⟨why, -, hp⟩ | ⟨answer, hanswer, hfinishes⟩⟩
    · cases hp
      rcases draft_eq_settled_iff.1 hdraft with ⟨-, hp⟩ | ⟨-, ⟨_, -, hp⟩ | ⟨_, _, -, -, hp⟩⟩
      all_goals cases hp
    · cases hp
    · cases hfinishes with
      | drawn hread hfits => exact ⟨call, _, _, hdue, hanswer, hread, hfits, rfl⟩
  · rintro ⟨call, drawing, element, hdue, hanswer, hread, hfits, rfl⟩
    rw [preview_of_due hdue, hanswer]
    exact finish_eq_iff.2 (.drawn hread hfits)

-- ================================================================ trouble

variable {trouble : Trouble}

namespace Engine

theorem offline_eq_ok_iff {diagram drawing : Text} :
    offline diagram = .ok drawing ↔ draw diagram = .ok drawing := by
  unfold offline
  cases draw diagram with
  | error why => exact ⟨nofun, nofun⟩
  | ok drawing' =>
      show Except.ok drawing' = _ ↔ _
      rw [Except.ok.injEq, Except.ok.injEq]

variable {s : Settings} {run : Job → Outcome} {diagram : Text} {direction : Option Text}

theorem map_codePoints_eq_ok_iff {answer : Except Refusal Text} {ps : CodePoints} :
    answer.map Text.codePoints = .ok ps ↔ ∃ drawing, answer = .ok drawing
      ∧ ps = drawing.codePoints := by
  cases answer with
  | error why => exact ⟨nofun, fun ⟨_, h, _⟩ => nomatch h⟩
  | ok drawing =>
      rw [Except.map, Except.ok.injEq]
      constructor
      · rintro rfl
        exact ⟨drawing, rfl, rfl⟩
      · rintro ⟨_, h, rfl⟩
        cases h
        rfl

/-- The offline drawing of a diagram is what is drawn for it. -/
theorem answer_offlineRenderer {call : Call} {drawing : Text} :
    offlineRenderer.answer call = .ok (.ok drawing.codePoints)
      ↔ draw call.diagram = .ok drawing := by
  unfold Renderer.answer offlineRenderer
  rw [Except.ok.injEq, map_codePoints_eq_ok_iff, ← offline_eq_ok_iff]
  constructor
  · rintro ⟨drawing', hdrawn, heq⟩
    exact Text.codePoints_inj.1 heq ▸ hdrawn
  · intro hdrawn
    exact ⟨drawing, hdrawn, rfl⟩

end Engine

end FreeLabel
