/-
What a sketch compiles to: each walk becomes a row of nodes with
identifiers, and all other lines stay as they are.

# Identifiers before they are final

A label gets its identifier where it is first mentioned, and has it from
then on. `Context.Noted` says that the pass remembers for each label just
what its allocator chooses for it, and so it makes no difference whether an
identifier is issued or looked up: `Pass.Mentions` says of a step that it
goes well, reports nothing, and yields what `value` says of the identifiers
that any later allocator chooses. Steps are put together by
`Mentions.bind` and `Mentions.mapM`.
-/
import FreeLabel.Proofs.Flow.References
import FreeLabel.Proofs.Pass
import FreeLabel.Proofs.Text.Lines

namespace FreeLabel

open Naming (Allocator)

-- ============================================================= contexts

/-- The identifiers that an allocator chooses for labels. -/
def Naming.Allocator.ids (a : Allocator) (label : Text) : Text := a.choose label 0

/-- What a pass owns is in order, and the labels that it remembers have the
identifiers that are chosen for them. -/
structure Context.Noted (c : Context) : Prop where
  sound : c.Sound
  nodes : ∀ label id, c.nodes.lookup label = some id →
    id = c.allocator.ids label ∧ c.legend.get? id = some label

theorem Context.noted_start (strict : Bool) (padding : Int) :
    Context.Noted { strict := strict, padding := padding } where
  sound := Context.sound_start strict padding
  nodes := nofun

/-- A label whose identifier is held keeps it. -/
theorem Naming.Allocator.Exact.ids_eq {a b : Allocator} {label : Text} (ha : a.Exact)
    (hb : b.Exact) (hab : a.legend.Within b.legend)
    (hheld : a.legend.get? (a.ids label) = some label) : b.ids label = a.ids label :=
  ha.choose_eq hb hab (hab.get? hheld)

namespace Pass

/-- A step goes well and reports nothing; then the legend holds the labels
that were mentioned, and the step yields what `value` says of the
identifiers that any later allocator chooses. -/
def Mentions (p : Pass α) (labels : List Text) (value : (Text → Text) → α) : Prop :=
  ∀ c : Context, c.Noted → ∃ a d, p c = .ok a d ∧ d.Noted ∧ c.legend.Within d.legend
    ∧ d.diagnostics = c.diagnostics
    ∧ (∀ label ∈ labels, d.legend.get? (d.allocator.ids label) = some label)
    ∧ ∀ last : Allocator, last.Exact → d.legend.Within last.legend → a = value last.ids

variable {labels labels' : List Text}

theorem Mentions.pure (a : α) : (Pure.pure a : Pass α).Mentions [] fun _ => a :=
  fun c hc => ⟨a, c, rfl, hc, .refl _, rfl, nofun, fun _ _ _ => rfl⟩

theorem Mentions.bind {p : Pass α} {f : α → Pass β} {v : (Text → Text) → α}
    {w : α → (Text → Text) → β} (hp : p.Mentions labels v)
    (hf : ∀ a, (f a).Mentions labels' (w a)) :
    (p >>= f).Mentions (labels ++ labels') fun ids => w (v ids) ids := by
  intro c hc
  obtain ⟨a, d, hpc, hd, hcd, hdiagnostics, hlabels, ha⟩ := hp c hc
  obtain ⟨b, e, hfd, he, hde, hdiagnostics', hlabels', hb⟩ := hf a d hd
  refine ⟨b, e, ?_, he, hcd.trans hde, hdiagnostics'.trans hdiagnostics, ?_, ?_⟩
  · simp only [Bind.bind, EStateM.bind, hpc, hfd]
  · intro label hlabel
    rcases List.mem_append.1 hlabel with hlabel | hlabel
    · have hheld := hlabels label hlabel
      rw [hd.sound.exact.ids_eq he.sound.exact hde hheld]
      exact hde.get? hheld
    · exact hlabels' label hlabel
  · intro last hlast hwithin
    obtain rfl := ha last hlast (hde.trans hwithin)
    exact hb last hlast hwithin

/-- What is said of the identifiers need only hold of those that are
chosen. -/
theorem Mentions.congr {p : Pass α} {v w : (Text → Text) → α} (hp : p.Mentions labels v)
    (hvw : ∀ last : Allocator, v last.ids = w last.ids) : p.Mentions labels w := by
  intro c hc
  obtain ⟨a, d, hpc, hd, hcd, hdiagnostics, hlabels, ha⟩ := hp c hc
  refine ⟨a, d, hpc, hd, hcd, hdiagnostics, hlabels, ?_⟩
  intro last hlast hwithin
  rw [ha last hlast hwithin, hvw last]

theorem Mentions.map {p : Pass α} {v : (Text → Text) → α} (hp : p.Mentions labels v)
    (f : α → β) : (f <$> p).Mentions labels fun ids => f (v ids) := by
  rw [map_eq_pure_bind]
  have h := hp.bind fun a => Mentions.pure (f a)
  rwa [List.append_nil] at h

theorem Mentions.mapM {f : α → Pass β} {labels : α → List Text}
    {v : α → (Text → Text) → β} {as : List α}
    (hf : ∀ a ∈ as, (f a).Mentions (labels a) (v a)) :
    (as.mapM f).Mentions (as.flatMap labels) fun ids => as.map fun a => v a ids := by
  induction as with
  | nil =>
      rw [List.mapM_nil]
      exact .pure []
  | cons a as ih =>
      rw [List.mapM_cons]
      have hrest := ih fun b hb => hf b (List.mem_cons_of_mem a hb)
      exact (hf a List.mem_cons_self).bind fun b => hrest.map fun bs => b :: bs

end Pass

namespace Flow

open Naming (isIdentifier)
open Pass (Mentions)
open Text (trim indent)

-- ============================================================= the steps

/-- Looked up or issued, the identifier of a label is the one chosen for
it. -/
theorem mentions_nodeId (label : Text) :
    (nodeId label).Mentions [label] fun ids => ids label := by
  intro c hc
  unfold nodeId
  rw [Pass.get_bind]
  cases hlookup : c.nodes.lookup label with
  | some id =>
      obtain ⟨rfl, hheld⟩ := hc.nodes label id hlookup
      refine ⟨_, c, rfl, hc, .refl _, rfl, by simpa using hheld, ?_⟩
      intro last hlast hwithin
      exact (hc.sound.exact.ids_eq hlast hwithin hheld).symm
  | none =>
      obtain ⟨-, hexact, hwithin, hheld⟩ := hc.sound.exact.allocate label 0
      have hsame : (c.allocator.issue label 0).ids label = c.allocator.ids label :=
        hc.sound.exact.choose_eq hexact hwithin hheld
      refine ⟨c.allocator.ids label,
        { c with allocator := c.allocator.issue label 0
                 nodes := c.nodes ++ [(label, c.allocator.ids label)] },
        ?_, ⟨⟨hexact, (hc.sound.issue label 0).issued⟩, ?_⟩, hwithin, rfl, ?_, ?_⟩
      · simp only [Bind.bind, EStateM.bind, Pass.allocate_eq hc.sound]
        rfl
      · intro other id hother
        rw [List.lookup_append] at hother
        rcases Option.or_eq_some_iff.1 hother with hother | ⟨-, hother⟩
        · obtain ⟨rfl, hheld'⟩ := hc.nodes other id hother
          exact ⟨(hc.sound.exact.ids_eq hexact hwithin hheld').symm, hwithin.get? hheld'⟩
        · by_cases heq : other = label
          · subst heq
            obtain rfl : c.allocator.ids other = id := by simpa using hother
            exact ⟨hsame.symm, hheld⟩
          · rw [List.lookup_cons, beq_false_of_ne heq] at hother
            cases hother
      · intro other hother
        obtain rfl := List.mem_singleton.1 hother
        rw [hsame]
        exact hheld
      · intro last hlast hlater
        exact (hc.sound.exact.choose_eq hlast (hwithin.trans hlater) (hlater.get? hheld)).symm

/-- How a token is spelled in a diagram. -/
def Token.written (ids : Text → Text) : Token → Text
  | .arrow spelling => spelling
  | .reference spelling => spelling
  | .node shape label => ids label ++ shape.bracket.enclose label

/-- The label of a token that is given by one. -/
def Token.labels : Token → List Text
  | .node _ label => [label]
  | _ => []

theorem mentions_token (t : Token) :
    t.translate.Mentions t.labels fun ids => t.written ids := by
  cases t with
  | arrow spelling => exact .pure spelling
  | reference spelling => exact .pure spelling
  | node shape label =>
      exact (mentions_nodeId label).map fun id => id ++ shape.bracket.enclose label

-- ================================================================= rows

/-- A walk as a row of a diagram. -/
def Walk.row (ids : Text → Text) : Walk → Text
  | stop shape label => ids label ++ shape.bracket.enclose (squeeze label)
  | go shape label arrow rest =>
    ids label ++ shape.bracket.enclose (squeeze label)
      ++ ' ' :: (squeeze arrow ++ ' ' :: rest.row ids)

variable {ids : Text → Text}

/-- A node begins with its identifier and ends with a bracket. -/
theorem trim_node {id : Text} (hid : isIdentifier id = true) (b : Bracket) (label : Text) :
    trim (id ++ b.enclose label) = id ++ b.enclose label := by
  have hclosing : b.closing ≠ [] ∧ trim b.closing = b.closing := by
    cases b <;> decide
  exact Text.trim_between (Naming.isIdentChar_of_isIdentifier hid).1
    (Drawing.trim_identifier hid) hclosing.1 hclosing.2 (b.opening ++ ['"'] ++ label ++ ['"'])

/-- A row begins with the identifier of the label that its walk starts
from. -/
theorem Walk.row_eq (ids : Text → Text) (w : Walk) :
    ∃ (shape : Shape) (rest : Text),
      w.row ids = ids w.first ++ (shape.bracket.enclose (squeeze w.first) ++ rest) := by
  cases w with
  | stop shape label => exact ⟨shape, [], by rw [row, first, List.append_nil]⟩
  | go shape label arrow rest => exact ⟨shape, _, by rw [row, first, List.append_assoc]⟩

/-- Behind an arrow, the tokens of a walk are laid out as its row. -/
theorem squeeze_layOutBehind_walk (hids : ∀ label, isIdentifier (ids label) = true) {w : Walk}
    (hw : ∀ a ∈ w.arrows, IsArrow a) :
    squeeze (layOutBehind true (w.tokens.map fun t => (t.isArrow, t.written ids)))
      = ' ' :: w.row ids := by
  have hword : ∀ (shape : Shape) (label : Text),
      IsWord (ids label ++ shape.bracket.enclose label) := fun shape label =>
    ⟨by simp [(Naming.isIdentChar_of_isIdentifier (hids label)).1], trim_node (hids label) _ _⟩
  have hnode : ∀ (shape : Shape) (label : Text),
      squeeze (ids label ++ shape.bracket.enclose label)
        = ids label ++ shape.bracket.enclose (squeeze label) := by
    intro shape label
    have hid := isName_of_isIdentifier (hids label)
    rw [squeeze_append (.inl (getLast?_ne_space hid.isWord.trimmed)), hid.squeeze_eq,
      squeeze_enclose]
  induction w with
  | stop shape label =>
      show squeeze (layOutBehind true [(false, ids label ++ shape.bracket.enclose label)]) = _
      rw [squeeze_layOutBehind_cons (hword shape label), hnode, Walk.row]
      exact List.append_nil _
  | go shape label arrow rest ih =>
      have hrest := ih fun a ha => hw a (List.mem_cons_of_mem arrow ha)
      show squeeze (layOutBehind true ((false, ids label ++ shape.bracket.enclose label)
        :: (true, arrow) :: rest.tokens.map _)) = _
      rw [squeeze_layOutBehind_cons (hword shape label), hnode,
        squeeze_layOutBehind_cons (hw arrow List.mem_cons_self).isWord, hrest, Walk.row]
      simp

/-- The tokens of a walk are laid out as its row. -/
theorem squeeze_layOut_walk (hids : ∀ label, isIdentifier (ids label) = true) {w : Walk}
    (hw : ∀ a ∈ w.arrows, IsArrow a) :
    squeeze (layOut false (w.tokens.map fun t => (t.isArrow, t.written ids))) = w.row ids := by
  have hbehind := squeeze_layOutBehind_walk hids hw
  obtain ⟨shape, rest, hfirst⟩ := w.exists_node_tokens
  have hhead : (layOut false (w.tokens.map fun t => (t.isArrow, t.written ids))).head?
      ≠ some ' ' := by
    have hid := hids w.first
    rw [hfirst]
    show (ids w.first ++ shape.bracket.enclose w.first ++ layOut true (rest.map _)).head? ≠ _
    rw [List.append_assoc]
    exact head?_ne_space (Naming.isIdentChar_of_isIdentifier hid).1 (Drawing.trim_identifier hid) _
  rw [layOutBehind, if_pos rfl, squeeze_cons, if_neg fun h => hhead h.2] at hbehind
  exact (List.cons.inj hbehind).2

-- ============================================================== the lines

theorem Walk.flatMap_labels_tokens (w : Walk) : w.tokens.flatMap Token.labels = w.labels := by
  induction w with
  | stop shape label => rfl
  | go shape label arrow rest ih =>
      show label :: rest.tokens.flatMap Token.labels = label :: rest.labels
      rw [ih]

theorem isIdentifier_ids (a : Allocator) (label : Text) : isIdentifier (a.ids label) = true :=
  Naming.Allocator.isIdentifier_choose ..

/-- Tokens become the row of their spellings. -/
theorem mentions_tokens (ts : List Token) :
    (translateTokens ts).Mentions (ts.flatMap Token.labels) fun ids =>
      squeeze (layOut false (ts.map fun t => (t.isArrow, t.written ids))) := by
  have htoken : ∀ t ∈ ts, (do return (t.isArrow, ← t.translate) : Pass _).Mentions
      t.labels fun ids => (t.isArrow, t.written ids) :=
    fun t _ => (mentions_token t).map fun spelled => (t.isArrow, spelled)
  exact (Mentions.mapM htoken).map fun spelled => squeeze (layOut false spelled)

/-- The tokens of a walk become its row. -/
theorem mentions_translateTokens {w : Walk} (hw : ∀ a ∈ w.arrows, IsArrow a) :
    (translateTokens w.tokens).Mentions w.labels fun ids => w.row ids := by
  have hrow := mentions_tokens w.tokens
  rw [w.flatMap_labels_tokens] at hrow
  exact hrow.congr fun last => squeeze_layOut_walk (isIdentifier_ids last) hw

/-- A line of a sketch as a line of the diagram. -/
def rewrite (ids : Text → Text) (line : Text) : Text :=
  match Walk.ofLine? (trim line) with
  | some w => indent line ++ w.row ids
  | none => line

theorem mentions_translateLine {line : Text} {w : Walk}
    (hwalk : Walk.ofLine? (trim line) = some w) (lineNo : Int) :
    (translateLine lineNo line).Mentions w.labels fun ids => rewrite ids line := by
  obtain ⟨hstrays, htokens⟩ := Walk.of_ofLine? hwalk
  have hrow := (mentions_translateTokens (Walk.isArrow_of_ofLine? hwalk)).map
    fun row => indent line ++ row
  have hrewrite : ∀ ids, rewrite ids line = indent line ++ w.row ids := by
    intro ids
    rw [rewrite, hwalk]
  simp only [hrewrite]
  unfold translateLine
  rw [hstrays, htokens]
  exact hrow

/-- The labels on a line. -/
def lineLabels (line : Text) : List Text := (Walk.ofLine? (trim line)).elim [] Walk.labels

/-- A line that says nothing is kept. -/
theorem isKept_of_isInert {trimmed : Text} (h : isInert trimmed = true) :
    isKept trimmed = true := by
  unfold isKept
  rw [h]
  rfl

/-- A kept line holds no walk. -/
theorem ofLine?_eq_none {line : Text} (hkept : isKept (trim line) = true) :
    Walk.ofLine? (trim line) = none := by
  cases hwalk : Walk.ofLine? (trim line) with
  | none => rfl
  | some w =>
      rw [Walk.isKept_of_ofLine? (Text.trim_trim line) hwalk] at hkept
      cases hkept

/-- What a sketch compiles to: its lines rewritten with the identifiers
that the allocator chooses in the end. The legend then holds each label
under its identifier. -/
theorem Sketch.translate_eq {source : Text} (hsketch : Sketch source) (strict : Bool)
    (padding : Int) :
    ∃ d : Context, Flow.translate source { strict := strict, padding := padding }
        = .ok (Text.joinLines ((Text.lines source).map (rewrite d.allocator.ids))) d
      ∧ d.diagnostics = []
      ∧ ∀ w ∈ walks source, ∀ label ∈ w.labels,
          d.legend.get? (d.allocator.ids label) = some label := by
  have hline : ∀ p ∈ Text.numberedLines source,
      (if isKept (trim p.2) then pure p.2 else translateLine p.1 p.2 : Pass Text).Mentions
        (lineLabels p.2) fun ids => rewrite ids p.2 := by
    intro p hp
    unfold lineLabels
    split
    next hkept =>
      rw [ofLine?_eq_none hkept]
      refine (Mentions.pure p.2).congr fun last => ?_
      rw [rewrite, ofLine?_eq_none hkept]
    next hkept =>
      obtain ⟨w, hwalk, -⟩ := hsketch.walk p.2 (Text.mem_lines_of_mem_numberedLines hp)
        (by simpa using hkept)
      rw [hwalk]
      exact mentions_translateLine hwalk p.1
  obtain ⟨code, d, hrun, hd, -, hdiagnostics, hlabels, hcode⟩ :=
    (Mentions.mapM hline).map Text.joinLines _ (Context.noted_start strict padding)
  refine ⟨d, ?_, hdiagnostics, ?_⟩
  · have hlines : (Text.numberedLines source).map (fun p => rewrite d.allocator.ids p.2)
        = (Text.lines source).map (rewrite d.allocator.ids) := by
      rw [← Text.map_snd_numberedLines, List.map_map]
      rfl
    rw [hcode d.allocator hd.sound.exact (.refl _)] at hrun
    rw [← hlines]
    exact hrun
  · intro w hw label hlabel
    obtain ⟨line, hline, hwalk⟩ := List.mem_filterMap.1 hw
    rw [← Text.map_snd_numberedLines] at hline
    obtain ⟨p, hp, rfl⟩ := List.mem_map.1 hline
    refine hlabels label (List.mem_flatMap.2 ⟨p, hp, ?_⟩)
    rw [lineLabels, hwalk]
    exact hlabel

end Flow

end FreeLabel
