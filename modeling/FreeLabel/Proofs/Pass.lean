/-
What every pass keeps to, whatever it translates.

# The invariant

`Context.Sound` says of what a pass owns that its allocator is exact and
that it has issued nothing but identifiers. A pass starts sound, and each
of the four things that a step can do keeps it so: issue an identifier,
report a line, note a label's identifier, read what it owns. `Pass.Keeps`
says of a step that it leaves a sound context sound and its legend no
smaller.

# Steps put together

Steps are put together by `bind`, and by `mapM` over a list. What is said
of steps is often said with a list, of what they ask for or what they
report, and of steps in a row with the lists one after the other
(`Pass.Graded`). All that is graded in this way goes through `mapM`
(`Graded.mapM`); what remains for a translation is to follow its text.
-/
import FreeLabel.Compile
import FreeLabel.Proofs.Naming.Grammar
import FreeLabel.Proofs.Naming.Issuing

namespace FreeLabel

open Naming (Legend isIdentifier)

-- ============================================================= contexts

/-- What a pass owns is in order. -/
structure Context.Sound (c : Context) : Prop where
  exact : c.allocator.Exact
  issued : ∀ id ∈ c.legend.ids, isIdentifier id = true

/-- A pass starts sound. -/
theorem Context.sound_start (strict : Bool) (padding : Int) :
    Context.Sound { strict := strict, padding := padding } where
  exact := Naming.Allocator.exact_empty
  issued := by
    intro id hid
    cases hid

theorem Context.Sound.issue {c : Context} (h : c.Sound) (name : Text)
    (minLength : Nat) :
    Context.Sound { c with allocator := c.allocator.issue name minLength } := by
  obtain ⟨hall, hexact, -, hget⟩ := h.exact.allocate name minLength
  refine ⟨hexact, ?_⟩
  -- the legend holds what it held, and the identifier that was chosen
  intro id hid
  have hids : id ∈ c.legend.ids ∨ id = c.allocator.choose name minLength := by
    unfold Context.legend at hid ⊢
    simp only at hid
    rw [← hexact] at hid
    rw [← h.exact]
    have hused : (c.allocator.issue name minLength).used
        = (c.allocator.markUsed (c.allocator.choose name minLength)).used := by
      unfold Naming.Allocator.issue Naming.Allocator.allocate
      simp only
      split <;> rfl
    rw [hused] at hid
    unfold Naming.Allocator.markUsed at hid
    split at hid
    next => exact .inl hid
    next => simpa using hid
  rcases hids with hid | rfl
  · exact h.issued id hid
  · exact Naming.Allocator.isIdentifier_choose ..

-- ================================================================ steps

namespace Pass

/-- What is said of a step with a list. It is said of the step that does
nothing with the empty list, and of two steps in a row with the list of the
first one and that of the second one behind it. -/
structure Graded (Holds : {α : Type} → Pass α → List γ → Prop) : Prop where
  pure : ∀ {α : Type} (a : α), Holds (Pure.pure a : Pass α) []
  bind : ∀ {α β : Type} {p : Pass α} {f : α → Pass β} {xs ys : List γ},
    Holds p xs → (∀ a, Holds (f a) ys) → Holds (p >>= f) (xs ++ ys)

section Graded

variable {Holds : {α : Type} → Pass α → List γ → Prop}

theorem Graded.map (hgraded : Graded Holds) (xs : List γ) {p : Pass α} (hp : Holds p xs)
    (f : α → β) : Holds (f <$> p) xs := by
  rw [map_eq_pure_bind]
  have h := hgraded.bind hp fun a => hgraded.pure (f a)
  rwa [List.append_nil] at h

/-- The steps for the members of a list, one after another. -/
theorem Graded.mapM (hgraded : Graded Holds) (grade : α → List γ) {f : α → Pass β}
    (hf : ∀ a, Holds (f a) (grade a)) (as : List α) : Holds (as.mapM f) (as.flatMap grade) := by
  induction as with
  | nil =>
      rw [List.mapM_nil]
      exact hgraded.pure []
  | cons a as ih =>
      rw [List.mapM_cons, List.flatMap_cons]
      exact hgraded.bind (hf a) fun b => hgraded.map _ ih fun bs => b :: bs

end Graded

/-- What a pass owns after a step, also if the step stops it. -/
def after (p : Pass α) (c : Context) : Context :=
  match p c with
  | .ok _ d => d
  | .error _ d => d

/-- A step leaves what is sound sound, and no legend smaller. -/
def Keeps (p : Pass α) : Prop :=
  ∀ c, c.Sound → (p.after c).Sound ∧ c.legend.Within (p.after c).legend

theorem Keeps.pure (a : α) : Keeps (Pure.pure a : Pass α) :=
  fun _ hc => ⟨hc, .refl _⟩

theorem Keeps.get : Keeps (MonadState.get : Pass Context) :=
  fun _ hc => ⟨hc, .refl _⟩

theorem Keeps.bind {p : Pass α} {f : α → Pass β} (hp : p.Keeps)
    (hf : ∀ a, (f a).Keeps) : Keeps (p >>= f) := by
  intro c hc
  obtain ⟨hsound, hwithin⟩ := hp c hc
  have hafter : (p >>= f).after c
      = match p c with
        | .ok a d => (f a).after d
        | .error _ d => d := by
    unfold after
    simp only [Bind.bind, EStateM.bind]
    cases p c <;> rfl
  rw [hafter]
  unfold after at hsound hwithin
  cases hpc : p c with
  | ok a d =>
      rw [hpc] at hsound hwithin
      obtain ⟨hlast, hgrown⟩ := hf a d hsound
      exact ⟨hlast, hwithin.trans hgrown⟩
  | error halt d =>
      rw [hpc] at hsound hwithin
      exact ⟨hsound, hwithin⟩

/-- This is said with no list at all. -/
theorem graded_keeps : Graded fun p (_ : List Empty) => p.Keeps where
  pure := .pure
  bind := .bind

theorem Keeps.map {p : Pass α} (hp : p.Keeps) (f : α → β) : Keeps (f <$> p) :=
  graded_keeps.map [] hp f

theorem Keeps.mapM {f : α → Pass β} (hf : ∀ a, (f a).Keeps) (as : List α) :
    Keeps (as.mapM f) :=
  graded_keeps.mapM (fun _ => []) hf as

/-- A note that leaves the allocator alone keeps what is sound. -/
theorem Keeps.note {f : Context → Context} (hf : ∀ c, (f c).allocator = c.allocator) :
    Keeps (modify f : Pass Unit) := by
  intro c hc
  have hafter : (modify f : Pass Unit).after c = f c := rfl
  have hlegend : (f c).legend = c.legend := by
    unfold Context.legend
    rw [hf c]
  rw [hafter, hlegend]
  exact ⟨⟨hf c ▸ hc.exact, hlegend ▸ hc.issued⟩, .refl _⟩

/-- Steps in a row go well only if each of them does. -/
theorem exists_of_bind_eq_ok {p : Pass α} {f : α → Pass β} {c e : Context} {b : β}
    (h : (p >>= f) c = .ok b e) : ∃ a d, p c = .ok a d ∧ f a d = .ok b e := by
  simp only [Bind.bind, EStateM.bind] at h
  split at h
  next a d hpc => exact ⟨a, d, hpc, h⟩
  next => cases h

theorem get_bind (f : Context → Pass α) (c : Context) : (get >>= f) c = f c c :=
  rfl

/-- Issuing an identifier goes well, and it is the one that is chosen. -/
theorem allocate_eq_of_exact {c : Context} (hc : c.allocator.Exact) (name : Text)
    (minLength : Nat) :
    allocate name minLength c
      = .ok (c.allocator.choose name minLength)
          { c with allocator := c.allocator.issue name minLength } := by
  obtain ⟨hall, -, -, -⟩ := hc.allocate name minLength
  unfold allocate
  rw [get_bind]
  simp only [hall]
  rfl

theorem allocate_eq {c : Context} (hc : c.Sound) (name : Text) (minLength : Nat) :
    allocate name minLength c
      = .ok (c.allocator.choose name minLength)
          { c with allocator := c.allocator.issue name minLength } :=
  allocate_eq_of_exact hc.exact name minLength

theorem Keeps.allocate (name : Text) (minLength : Nat) :
    Keeps (allocate name minLength) := by
  intro c hc
  have hafter : (Pass.allocate name minLength).after c
      = { c with allocator := c.allocator.issue name minLength } := by
    unfold after
    rw [allocate_eq hc]
  obtain ⟨-, -, hwithin, -⟩ := hc.exact.allocate name minLength
  rw [hafter]
  exact ⟨hc.issue name minLength, hwithin⟩

/-- What a report does: it stops a strict pass, and a lenient one notes
it. -/
theorem report_eq (lineNo : Int) (line : Text) (complaint : Complaint) (c : Context) :
    report lineNo line complaint c
      = if c.strict then
          .error (.malformed { lineNo := lineNo, line := line, complaint := complaint }) c
        else
          .ok ()
            { c with
              diagnostics := c.diagnostics ++
                [{ lineNo := lineNo, line := line, complaint := complaint }] } := by
  unfold report
  rw [get_bind]
  cases c.strict <;> rfl

theorem Keeps.report (lineNo : Int) (line : Text) (complaint : Complaint) :
    Keeps (report lineNo line complaint) := by
  intro c hc
  unfold after
  rw [report_eq]
  cases c.strict with
  | true => exact ⟨hc, .refl _⟩
  | false => exact ⟨⟨hc.exact, hc.issued⟩, .refl _⟩

end Pass

-- ========================================================= translations

open Pass (Keeps)

theorem Er.keeps_translateAttribute (lineNo : Int) (line : Text) :
    Keeps (Er.translateAttribute lineNo line) := by
  unfold Er.translateAttribute
  split
  next a _ =>
    unfold Er.Attribute.translate
    exact Keeps.get.bind fun _ => (Keeps.allocate _ _).bind fun _ => .pure _
  next => exact (Keeps.report _ _ _).bind fun _ => .pure _

theorem Er.keeps_translateRelationship (line : Text) :
    Keeps (Er.translateRelationship line) := by
  unfold Er.translateRelationship
  split
  next => exact .pure _
  next =>
    exact (Keeps.allocate _ _).bind fun _ => (Keeps.allocate _ _).bind fun _ => .pure _

theorem Er.keeps_translateLine (lineNo : Int) (line : Text) (kind : Er.Line) :
    Keeps (Er.translateLine lineNo line kind) := by
  unfold Er.translateLine
  split
  next => exact .pure _
  next => exact .pure _
  next => exact (Er.keeps_translateAttribute lineNo line).map _
  next => exact (Keeps.allocate _ _).bind fun _ => .pure _
  next => exact (Er.keeps_translateRelationship line).map _
  next => exact .pure _
  next => exact .pure _
  next => exact .pure _

theorem Er.keeps_translateLines (r : Er.Reading) (lines : List (Nat × Text)) :
    Keeps (Er.translateLines r lines) := by
  induction lines generalizing r with
  | nil => exact .pure _
  | cons line lines ih =>
      exact (Er.keeps_translateLine _ _ _).bind fun _ => (ih _).bind fun _ => .pure _

theorem Flow.keeps_nodeId (label : Text) : Keeps (Flow.nodeId label) := by
  refine Keeps.get.bind fun c => ?_
  cases c.nodes.lookup label with
  | some id => exact .pure id
  | none =>
      refine (Keeps.allocate _ _).bind fun id => Keeps.bind ?_ fun _ => .pure _
      exact Keeps.note (f := fun c => { c with nodes := c.nodes ++ [(label, id)] })
        fun _ => rfl

theorem Flow.keeps_translateToken (t : Flow.Token) : Keeps t.translate := by
  cases t with
  | arrow spelling => exact .pure _
  | reference spelling => exact .pure _
  | node shape label => exact (Flow.keeps_nodeId label).bind fun _ => .pure _

theorem Flow.keeps_translateLine (lineNo : Int) (line : Text) :
    Keeps (Flow.translateLine lineNo line) := by
  have hrest : Keeps
      (do return Text.indent line ++ (← Flow.translateTokens (Flow.tokens (Text.trim line))) :
        Pass Text) := by
    refine Keeps.bind ?_ fun _ => .pure _
    exact (Keeps.mapM (fun t => (Flow.keeps_translateToken t).bind fun _ => .pure _) _).bind
      fun _ => .pure _
  unfold Flow.translateLine
  split
  next => exact hrest
  next => exact (Keeps.report _ _ _).bind fun _ => hrest

/-- Translating a source keeps what a pass owns in order. -/
theorem keeps_translate (source : Text) (mode : Mode) :
    Keeps (translate source mode) := by
  cases mode with
  | er => exact (Er.keeps_translateLines _ _).bind fun _ => .pure _
  | flowchart =>
      refine Keeps.bind (Keeps.bind (Keeps.mapM ?_ _) fun _ => .pure _) fun _ => .pure _
      intro line
      simp only
      split
      next => exact .pure _
      next => exact Flow.keeps_translateLine _ _

/-- The legend that a source compiles to consists of identifiers. -/
theorem isIdentifier_of_compile {source : Text} {strict : Bool} {padding : Int}
    {compiled : Compiled} (h : compile source strict padding = .ok compiled)
    {id : Text} (hid : id ∈ compiled.legend.ids) : isIdentifier id = true := by
  obtain ⟨hsound, -⟩ := keeps_translate source (Mode.ofSource source) _
    (Context.sound_start strict padding)
  unfold Pass.after at hsound
  unfold compile at h
  simp only [EStateM.run] at h
  split at h
  next heq =>
    rw [heq] at hsound
    cases h
    exact hsound.issued id hid
  next => cases h

/-- What a source compiles to, if its parts are known. -/
theorem exists_compiled (source code : Text) (mode : Mode) (entries : List (Text × Text))
    (h : ((compile source false 2).toOption.map fun c => (c.mode, c.code, c.legend.entries))
      = some (mode, code, entries)) :
    ∃ compiled, compile source false 2 = .ok compiled ∧ compiled.mode = mode
      ∧ compiled.code = code ∧ compiled.legend.entries = entries := by
  cases hcompile : compile source false 2 with
  | error halt =>
      rw [hcompile] at h
      cases h
  | ok compiled =>
      rw [hcompile] at h
      simp only [Except.toOption, Option.map_some, Option.some.injEq, Prod.mk.injEq] at h
      exact ⟨compiled, rfl, h⟩

end FreeLabel
