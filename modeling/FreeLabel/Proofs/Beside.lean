/-
Two passes followed side by side.

# Related steps

`Pass.Beside S R` says of two steps that they go well together, with
results that are related by `R`, or stop together. What the passes own is
the same but for their reports, which are related one by one by `S`; a
step puts a report or a reason to stop on both sides or on none. So the
relation goes through `bind` and `mapM`, and what remains for two
translations is to follow their text.

# Related lines

A line is translated by its trimmed text and its indent; as it stands, it
is only kept or reported. `StandsFor S K` says what it takes for a
numbered line to be put in the place of another: the same trimmed text
and, unless the line is blank, the same indent. `K` relates the two lines
if they are kept, and `S` the reports about them. Then a whole source may
be followed beside another (`beside_translateEach`), line by line.

For this a translation is needed that says what becomes of each line.
`translateEach` is that translation, and the diagram of a source is what
becomes of its lines, joined (`translate_eq_joined`).
-/
import FreeLabel.Proofs.Flow.Capture
import Mathlib.Data.List.Forall2
import Mathlib.Data.List.ReduceOption

namespace FreeLabel

variable {S : Diagnostic → Diagnostic → Prop}

/-- Members that are alike under a map, one by one. -/
theorem forall₂_map_iff {f : α → β} {as bs : List α} :
    List.Forall₂ (fun a b => f a = f b) as bs ↔ as.map f = bs.map f := by
  rw [← List.forall₂_eq_eq_eq, List.forall₂_map_left_iff, List.forall₂_map_right_iff]

-- ============================================================= contexts

/-- Two passes own the same but for their reports, which are related. -/
structure Context.Beside (S : Diagnostic → Diagnostic → Prop) (c c' : Context) : Prop where
  padding : c'.padding = c.padding
  strict : c'.strict = c.strict
  allocator : c'.allocator = c.allocator
  nodes : c'.nodes = c.nodes
  diagnostics : List.Forall₂ S c.diagnostics c'.diagnostics

/-- Two passes stop for the same reason, or at related reports. -/
def Halt.Beside (S : Diagnostic → Diagnostic → Prop) : Halt → Halt → Prop
  | .malformed d, .malformed d' => S d d'
  | .conflict e, .conflict e' => e' = e
  | _, _ => False

namespace Pass

/-- Two steps end together: well, with related results, or not. -/
def EndBeside (S : Diagnostic → Diagnostic → Prop) (R : α → β → Prop) :
    EStateM.Result Halt Context α → EStateM.Result Halt Context β → Prop
  | .ok a c, .ok b c' => R a b ∧ c.Beside S c'
  | .error halt c, .error halt' c' => halt.Beside S halt' ∧ c.Beside S c'
  | _, _ => False

/-- Two steps end together wherever they begin together. -/
def Beside (S : Diagnostic → Diagnostic → Prop) (R : α → β → Prop) (p : Pass α)
    (q : Pass β) : Prop :=
  ∀ c c' : Context, c.Beside S c' → EndBeside S R (p c) (q c')

variable {R : α → β → Prop}

/-- Two steps that end together both go well or both stop. -/
theorem EndBeside.ok_or_error {r : EStateM.Result Halt Context α}
    {r' : EStateM.Result Halt Context β} (h : EndBeside S R r r') :
    (∃ a c b c', r = .ok a c ∧ r' = .ok b c' ∧ R a b ∧ c.Beside S c')
      ∨ ∃ halt c halt' c', r = .error halt c ∧ r' = .error halt' c'
        ∧ halt.Beside S halt' ∧ c.Beside S c' := by
  cases r with
  | ok a c =>
      cases r' with
      | ok b c' => exact .inl ⟨a, c, b, c', rfl, rfl, h⟩
      | error halt' c' => exact h.elim
  | error halt c =>
      cases r' with
      | ok b c' => exact h.elim
      | error halt' c' => exact .inr ⟨halt, c, halt', c', rfl, rfl, h⟩

theorem Beside.pure {a : α} {b : β} (h : R a b) : Beside S R (Pure.pure a) (Pure.pure b) :=
  fun _ _ hc => ⟨h, hc⟩

theorem Beside.bind {p : Pass α} {q : Pass β} {f : α → Pass γ} {g : β → Pass δ}
    {T : γ → δ → Prop} (hp : Beside S R p q)
    (hf : ∀ a b, R a b → Beside S T (f a) (g b)) : Beside S T (p >>= f) (q >>= g) := by
  intro c c' h
  simp only [Bind.bind, EStateM.bind]
  obtain ⟨a, d, b, d', hpc, hqc, hab, hd⟩ | ⟨halt, d, halt', d', hpc, hqc, hends⟩ :=
    (hp c c' h).ok_or_error
  · rw [hpc, hqc]
    exact hf a b hab d d' hd
  · rw [hpc, hqc]
    exact hends

theorem Beside.map {p : Pass α} {q : Pass β} {f : α → γ} {g : β → δ} {T : γ → δ → Prop}
    (hp : Beside S R p q) (hf : ∀ a b, R a b → T (f a) (g b)) :
    Beside S T (f <$> p) (g <$> q) := by
  rw [map_eq_pure_bind, map_eq_pure_bind]
  exact hp.bind fun a b h => .pure (hf a b h)

theorem Beside.mapM {α α' β β' : Type} {A : α → α' → Prop} {R : β → β' → Prop}
    {f : α → Pass β} {g : α' → Pass β'} (hf : ∀ a a', A a a' → Beside S R (f a) (g a'))
    {as : List α} {as' : List α'} (h : List.Forall₂ A as as') :
    Beside S (List.Forall₂ R) (as.mapM f) (as'.mapM g) := by
  induction h with
  | nil =>
      rw [List.mapM_nil, List.mapM_nil]
      exact .pure .nil
  | cons ha _ ih =>
      rw [List.mapM_cons, List.mapM_cons]
      exact (hf _ _ ha).bind fun b b' hb => ih.bind fun bs bs' hbs => .pure (.cons hb hbs)

/-- Steps that read what the passes own, but no report. -/
theorem Beside.get_bind {f g : Context → Pass α} {T : α → α → Prop}
    (hf : ∀ c c' : Context, c.Beside S c' → Beside S T (f c) (g c')) :
    Beside S T ((MonadState.get : Pass Context) >>= f) (MonadState.get >>= g) :=
  fun c c' h => hf c c' h c c' h

theorem Beside.allocate (name : Text) (minLength : Nat) :
    Beside S Eq (allocate name minLength) (allocate name minLength) := by
  refine Beside.get_bind fun c c' h => ?_
  rw [h.allocator]
  generalize c.allocator.allocate name minLength = answered
  obtain ⟨answer, allocator⟩ := answered
  intro _ _ _
  cases answer with
  | ok id => exact ⟨rfl, { h with allocator := rfl }⟩
  | error conflict => exact ⟨rfl, { h with allocator := rfl }⟩

/-- Noting a label's identifier. -/
theorem Beside.note (label id : Text) :
    Beside S Eq
      (modify fun c => { c with nodes := c.nodes ++ [(label, id)] } : Pass Unit)
      (modify fun c => { c with nodes := c.nodes ++ [(label, id)] }) := by
  intro c c' h
  refine ⟨rfl, { h with nodes := ?_ }⟩
  show c'.nodes ++ [(label, id)] = c.nodes ++ [(label, id)]
  rw [h.nodes]

theorem Beside.report {d d' : Diagnostic} (h : S d d') :
    Beside S Eq (report d.lineNo d.line d.complaint) (report d'.lineNo d'.line d'.complaint) := by
  intro c c' hc
  rw [report_eq, report_eq, hc.strict]
  split
  next => exact ⟨h, hc⟩
  next =>
    exact ⟨rfl, hc.padding, rfl, hc.allocator, hc.nodes,
      List.rel_append hc.diagnostics (.cons h .nil)⟩

end Pass

-- ================================================================= lines

/-- A numbered line may be put in the place of another: it is translated
alike. `K` relates the lines if they are kept, and `S` relates reports
about them. -/
structure StandsFor (S : Diagnostic → Diagnostic → Prop) (K : Option Text → Option Text → Prop)
    (line line' : Nat × Text) : Prop where
  trimmed : Text.trim line'.2 = Text.trim line.2
  indent : Text.trim line.2 ≠ [] → Text.indent line'.2 = Text.indent line.2
  reported : ∀ complaint,
    S { lineNo := line.1, line := line.2, complaint := complaint }
      { lineNo := line'.1, line := line'.2, complaint := complaint }
  kept : K (some line.2) (some line'.2)

variable {K : Option Text → Option Text → Prop} (hK : ∀ out, K out out)

open Pass (Beside)

namespace Er

open Text (trim indent)

variable {line line' : Nat × Text}

include hK

theorem beside_translateAttribute (h : StandsFor S K line line') (hne : trim line.2 ≠ []) :
    Beside S (fun out out' => K (some out) (some out')) (translateAttribute line.1 line.2)
      (translateAttribute line'.1 line'.2) := by
  have hsame : Attribute.ofLine? line'.2 = Attribute.ofLine? line.2 := by
    unfold Attribute.ofLine?
    rw [h.trimmed]
  unfold translateAttribute
  rw [hsame]
  split
  next a _ =>
    unfold Attribute.translate
    refine Beside.get_bind fun c c' hc => ?_
    rw [hc.padding, h.indent hne]
    refine (Beside.allocate _ _).bind fun id _ hid => ?_
    rw [← hid]
    exact .pure (hK _)
  next => exact (Beside.report (h.reported _)).bind fun _ _ _ => .pure h.kept

theorem beside_translateRelationship (h : StandsFor S K line line') (hne : trim line.2 ≠ []) :
    Beside S (fun out out' => K (some out) (some out')) (translateRelationship line.2)
      (translateRelationship line'.2) := by
  have hsame : Relationship.ofLine? line'.2 = Relationship.ofLine? line.2 := by
    unfold Relationship.ofLine?
    rw [h.trimmed]
  unfold translateRelationship
  rw [hsame]
  split
  next => exact .pure h.kept
  next r _ =>
    rw [h.indent hne]
    refine (Beside.allocate _ _).bind fun left _ hleft => ?_
    refine (Beside.allocate _ _).bind fun right _ hright => ?_
    rw [← hleft, ← hright]
    exact .pure (hK _)

/-- The step lemma: lines that stand for each other are of the same kind,
and become related lines. -/
theorem beside_translateLine (h : StandsFor S K line line') (inBlock : Bool) :
    Line.classify inBlock line'.2 = Line.classify inBlock line.2
      ∧ Beside S K (translateLine line.1 line.2 (Line.classify inBlock line.2))
          (translateLine line'.1 line'.2 (Line.classify inBlock line.2)) := by
  refine ⟨by simp only [Line.classify, h.trimmed], ?_⟩
  -- only lines on which something is written are rewritten
  have hwritten : Line.classify inBlock line.2 ≠ .inert → trim line.2 ≠ [] := by
    intro hkind hnil
    refine hkind ?_
    simp only [Line.classify, hnil]
    rfl
  generalize Line.classify inBlock line.2 = kind at hwritten
  unfold translateLine
  split
  next => exact .pure (hK _)
  next => exact .pure (hK _)
  next => exact (beside_translateAttribute hK h (hwritten Line.noConfusion)).map fun _ _ => id
  next name =>
    refine (Beside.allocate name 0).bind fun id _ hid => ?_
    rw [← hid, h.indent (hwritten Line.noConfusion)]
    exact .pure (hK _)
  next =>
    exact (beside_translateRelationship hK h (hwritten Line.noConfusion)).map fun _ _ => id
  next => exact .pure h.kept
  next => exact .pure h.kept
  next => exact .pure h.kept

end Er

namespace Flow

open Text (trim indent)

theorem beside_nodeId (label : Text) : Beside S Eq (nodeId label) (nodeId label) := by
  unfold nodeId
  refine Beside.get_bind fun c c' hc => ?_
  rw [hc.nodes]
  cases c.nodes.lookup label with
  | some id => exact .pure rfl
  | none =>
      refine (Beside.allocate label 0).bind fun id _ hid => ?_
      rw [← hid]
      exact (Beside.note label id).bind fun _ _ _ => .pure rfl

theorem beside_token (t : Token) : Beside S Eq t.translate t.translate := by
  cases t with
  | arrow spelling => exact .pure rfl
  | reference spelling => exact .pure rfl
  | node shape label => exact (beside_nodeId label).map fun _ _ hid => by rw [hid]

theorem beside_translateTokens (ts : List Token) :
    Beside S Eq (translateTokens ts) (translateTokens ts) := by
  have hspelled := Beside.mapM (S := S) (A := Eq) (R := Eq)
    (f := fun t : Token => (t.isArrow, ·) <$> t.translate)
    (g := fun t : Token => (t.isArrow, ·) <$> t.translate)
    (fun t _ ht => ht ▸ (beside_token t).map fun _ _ hs => by rw [hs])
    (List.forall₂_refl ts)
  rw [List.forall₂_eq_eq_eq] at hspelled
  exact hspelled.map fun _ _ hs => by rw [hs]

include hK

/-- The step lemma for flowcharts. -/
theorem beside_translateNumbered {line line' : Nat × Text} (h : StandsFor S K line line') :
    Beside S (fun out out' => K (some out) (some out')) (translateNumbered line)
      (translateNumbered line') := by
  unfold translateNumbered
  rw [h.trimmed]
  split
  next => exact .pure h.kept
  next hkept =>
    have hne : trim line.2 ≠ [] := by
      intro hnil
      refine hkept (isKept_of_isInert ?_)
      rw [hnil]
      rfl
    have hrow : Beside S (fun out out' => K (some out) (some out'))
        (do return indent line.2 ++ (← translateTokens (tokens (trim line.2))))
        (do return indent line'.2 ++ (← translateTokens (tokens (trim line.2)))) := by
      rw [h.indent hne]
      refine (beside_translateTokens _).bind fun row _ hrow => ?_
      rw [← hrow]
      exact .pure (hK _)
    unfold translateLine
    rw [h.trimmed]
    split
    next => exact hrow
    next => exact (Beside.report (h.reported _)).bind fun _ _ _ => hrow

end Flow

-- ============================================================ line by line

/-- What becomes of each of the numbered lines of a source, and what has
been read at their end. -/
def Er.translateEach : Reading → List (Nat × Text) → Pass (List (Option Text) × Reading)
  | r, [] => pure ([], r)
  | r, line :: rest => do
    let kind := Line.classify r.inBlock line.2
    let out ← translateLine line.1 line.2 kind
    let (outs, last) ← translateEach (r.next kind) rest
    pure (out :: outs, last)

/-- What becomes of each of the numbered lines of a source in a mode, and
the direction that they ask for. -/
def translateEach (lines : List (Nat × Text)) : Mode → Pass (List (Option Text) × Option Direction)
  | .er => (fun run => (run.1, run.2.direction)) <$> Er.translateEach {} lines
  | .flowchart =>
    (fun outs => (outs, none)) <$> lines.mapM fun line => some <$> Flow.translateNumbered line

/-- The text of the lines that are left. -/
def joined (outs : List (Option Text)) : Text := Text.joinLines outs.reduceOption

theorem Er.translateLines_eq_each (r : Reading) (lines : List (Nat × Text)) :
    translateLines r lines
      = (fun run => (run.1.reduceOption, run.2)) <$> translateEach r lines := by
  induction lines generalizing r with
  | nil => rfl
  | cons line lines ih =>
      rw [translateLines, translateEach]
      simp only [ih, map_eq_pure_bind, bind_assoc, pure_bind]
      refine bind_congr fun out => bind_congr fun run => ?_
      cases out <;> rfl

theorem Pass.mapM_some {α β : Type} (f : α → Pass β) (as : List α) :
    (as.mapM fun a => some <$> f a) = List.map some <$> as.mapM f := by
  induction as with
  | nil => rfl
  | cons a as ih =>
      rw [List.mapM_cons, List.mapM_cons, ih]
      simp only [map_eq_pure_bind, bind_assoc, pure_bind, List.map_cons]

/-- The diagram of a source is what becomes of its lines. -/
theorem translate_eq_joined (source : Text) (mode : Mode) :
    translate source mode
      = (fun run => (joined run.1, run.2)) <$>
          translateEach (Text.numberedLines source) mode := by
  cases mode with
  | er =>
      show Er.translate source = _
      unfold Er.translate translateEach
      rw [Er.translateLines_eq_each]
      simp only [map_eq_pure_bind, bind_assoc, pure_bind]
      rfl
  | flowchart =>
      show (do return (← Flow.translate source, none)) = _
      unfold Flow.translate translateEach
      rw [Pass.mapM_some]
      simp only [map_eq_pure_bind, bind_assoc, pure_bind]
      refine bind_congr fun lines => ?_
      rw [joined, List.reduceOption, List.filterMap_map]
      exact congrArg (fun lines => Pure.pure (Text.joinLines lines, none)) List.filterMap_some.symm

/-- Compiling a source is translating its lines. -/
theorem compile_eq_joined (source : Text) (strict : Bool) (padding : Int) :
    compile source strict padding
      = match translateEach (Text.numberedLines source) (Mode.ofSource source)
            { strict := strict, padding := padding } with
        | .ok (outs, direction) c =>
          .ok
            { mode := Mode.ofSource source, code := joined outs, legend := c.legend
              direction := direction, diagnostics := c.diagnostics }
        | .error halt _ => .error halt := by
  have hrun : translate source (Mode.ofSource source) { strict := strict, padding := padding }
      = ((fun run => (joined run.1, run.2)) <$>
          translateEach (Text.numberedLines source) (Mode.ofSource source))
          { strict := strict, padding := padding } := by
    rw [translate_eq_joined]
  rw [map_eq_pure_bind] at hrun
  simp only [Bind.bind, EStateM.bind] at hrun
  unfold compile
  simp only [EStateM.run, hrun]
  generalize translateEach (Text.numberedLines source) (Mode.ofSource source)
    { strict := strict, padding := padding } = result
  cases result <;> rfl

include hK

theorem Er.beside_translateEach {lines lines' : List (Nat × Text)}
    (h : List.Forall₂ (StandsFor S K) lines lines') (r : Reading) :
    Beside S (fun run run' => List.Forall₂ K run.1 run'.1 ∧ run'.2 = run.2)
      (translateEach r lines) (translateEach r lines') := by
  induction h generalizing r with
  | nil => exact .pure ⟨.nil, rfl⟩
  | cons hline _ ih =>
      obtain ⟨hkind, hstep⟩ := beside_translateLine hK hline r.inBlock
      rw [translateEach, translateEach]
      simp only [hkind]
      refine hstep.bind fun out out' hout => (ih _).bind fun run run' hrun => ?_
      exact .pure ⟨.cons hout hrun.1, hrun.2⟩

/-- The run lemma: lines that stand for each other, one by one, become
related lines. -/
theorem beside_translateEach {lines lines' : List (Nat × Text)}
    (h : List.Forall₂ (StandsFor S K) lines lines') (mode : Mode) :
    Beside S (fun run run' => List.Forall₂ K run.1 run'.1 ∧ run'.2 = run.2)
      (translateEach lines mode) (translateEach lines' mode) := by
  cases mode with
  | er =>
      refine (Er.beside_translateEach hK h {}).map fun run run' hrun => ⟨hrun.1, ?_⟩
      rw [hrun.2]
  | flowchart =>
      have hlines := Beside.mapM (A := StandsFor S K)
        (fun _ _ hline => (Flow.beside_translateNumbered hK hline).map fun _ _ => id) h
      exact hlines.map fun _ _ houts => ⟨houts, rfl⟩

end FreeLabel
