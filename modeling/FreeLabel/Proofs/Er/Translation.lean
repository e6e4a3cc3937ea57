/-
What a document compiles to: the declaration, and then for each item the
lines of its entry, with identifiers for names.

# Identifiers before they are final

A line is translated by the allocator of that moment. But what is chosen
for a name then is what any later allocator chooses for it, so each line
can be described by the allocator at the end of the pass. `Pass.Issues`
says this of a step: it makes the requests `rs`, goes well, reports
nothing, and yields what `value` says of the allocator after these and any
later requests. Such steps are put together by `Issues.bind`, and no step
needs to know of the others what they issued.
-/
import FreeLabel.Proofs.Er.Lines
import FreeLabel.Proofs.Pass

namespace FreeLabel

open Naming (Allocator)
open Naming.Allocator (Request)

-- ============================================================= requests

/-- What a pass owns once it has made requests. -/
def Context.issueAll (c : Context) (rs : List Request) : Context :=
  { c with allocator := c.allocator.issueAll rs }

theorem Context.Sound.issueAll {c : Context} (hc : c.Sound) (rs : List Request) :
    (c.issueAll rs).Sound := by
  induction rs generalizing c with
  | nil => exact hc
  | cons r rs ih => exact ih (hc.issue r.name r.minLength)

theorem Context.issueAll_append (c : Context) (rs rs' : List Request) :
    c.issueAll (rs ++ rs') = (c.issueAll rs).issueAll rs' := by
  unfold Context.issueAll Allocator.issueAll
  rw [List.foldl_append]

namespace Pass

/-- A step makes requests, and yields what `value` says of the allocator
after these and any later ones. -/
def Issues (p : Pass α) (padding : Int) (rs : List Request) (value : Allocator → α) :
    Prop :=
  ∀ c, c.Sound → c.padding = padding → ∀ later : List Request,
    p c = .ok (value (c.issueAll (rs ++ later)).allocator) (c.issueAll rs)

variable {padding : Int} {rs rs' : List Request}

theorem Issues.pure (padding : Int) (a : α) :
    (Pure.pure a : Pass α).Issues padding [] fun _ => a :=
  fun _ _ _ _ => rfl

theorem Issues.bind {p : Pass α} {f : α → Pass β} {v : Allocator → α}
    {w : α → Allocator → β} (hp : p.Issues padding rs v)
    (hf : ∀ a, (f a).Issues padding rs' (w a)) :
    (p >>= f).Issues padding (rs ++ rs') fun last => w (v last) last := by
  intro c hc hpadding later
  have hfirst := hp c hc hpadding (rs' ++ later)
  have hsecond := hf (v (c.issueAll (rs ++ (rs' ++ later))).allocator) (c.issueAll rs)
    (hc.issueAll rs) hpadding later
  rw [← Context.issueAll_append, ← Context.issueAll_append] at hsecond
  simp only [Bind.bind, EStateM.bind, hfirst, hsecond, List.append_assoc]

theorem Issues.map {p : Pass α} {v : Allocator → α} (hp : p.Issues padding rs v)
    (f : α → β) : (f <$> p).Issues padding rs fun last => f (v last) := by
  rw [map_eq_pure_bind]
  have h := hp.bind fun a => Issues.pure padding (f a)
  rwa [List.append_nil] at h

/-- A step may read the padding of its pass. -/
theorem Issues.get_bind {f : Context → Pass α} {v : Allocator → α}
    (hf : ∀ c, c.padding = padding → (f c).Issues padding rs v) :
    ((MonadState.get : Pass Context) >>= f).Issues padding rs v :=
  fun c hc hpadding => hf c hpadding c hc hpadding

/-- What is chosen for a name is what any later allocator chooses. -/
theorem Issues.allocate (name : Text) (minLength : Nat) :
    (Pass.allocate name minLength).Issues padding
      [{ name := name, minLength := minLength }] fun last => last.choose name minLength := by
  intro c hc _ later
  obtain ⟨hall, -⟩ := hc.exact.allocate name minLength
  have hreply : ({ request := { name := name, minLength := minLength }
                   answer := .ok (c.allocator.choose name minLength)
                   after := c.allocator.issue name minLength } : Allocator.Reply)
      ∈ c.allocator.replies ({ name := name, minLength := minLength } :: later) := by
    rw [Allocator.replies_cons]
    simp only [hall, List.mem_cons, true_or]
  obtain ⟨-, -, -, hlast, -⟩ := hc.exact.of_mem_replies hreply
  rw [allocate_eq hc, Except.ok.inj hlast]
  rfl

end Pass

namespace Er

open Pass (Issues)

-- ========================================================= identifiers

/-- The identifiers that an allocator chooses for names. -/
def identifiers (padding : Int) (a : Allocator) : NameMap where
  ofEntity name := a.choose name 0
  ofAttribute name := a.choose name (name.length + padding).toNat

/-- What is requested for a line of a block. -/
def Field.request (padding : Int) (f : Field) : Request where
  name := f.name.text
  minLength := (f.name.text.length + padding).toNat

/-- What is requested for an item. -/
def Item.requests (padding : Int) : Item → List Request
  | block name fields =>
    { name := name.text, minLength := 0 } :: fields.map (Field.request padding)
  | relation left _ right _ =>
    [{ name := left.text, minLength := 0 }, { name := right.text, minLength := 0 }]

variable {padding : Int} {rs rs' : List Request}

-- ================================================================ lines

theorem issues_blockLine (n : DisplayName) (lineNo : Int) :
    (translateLine lineNo (blockLine n.text) (.blockStart n.text)).Issues padding
      [{ name := n.text, minLength := 0 }]
      fun last => some (blockLine ((identifiers padding last).ofEntity n.text)) := by
  rw [translateLine, Text.indent_eq_nil (trim_blockLine n)]
  exact (Issues.allocate n.text 0).bind fun id => .pure _ (some (blockLine id))

theorem issues_line (f : Field) (lineNo : Int) :
    (translateLine lineNo f.line .attribute).Issues padding [f.request padding]
      fun last => some (rowLine (f.row (identifiers padding last))) := by
  have hattribute : (translateAttribute lineNo f.line).Issues padding [f.request padding]
      fun last => rowLine (f.row (identifiers padding last)) := by
    rw [translateAttribute, Attribute.ofLine?_line]
    simp only [Attribute.translate, Text.indent_eq_nil f.trim_line]
    refine Issues.get_bind fun c hpadding => ?_
    rw [hpadding]
    exact (Issues.allocate _ _).bind fun id => .pure _ _
  exact hattribute.map some

theorem issues_relationLine (left right : DisplayName) (op : Cardinality)
    (label : Option Remark) (lineNo : Int) :
    (translateLine lineNo (relationLine left.text op right.text (remarkText label))
        .relationship).Issues padding
      [{ name := left.text, minLength := 0 }, { name := right.text, minLength := 0 }]
      fun last =>
        some
          (relationLine ((identifiers padding last).ofEntity left.text) op
            ((identifiers padding last).ofEntity right.text)
            (labelSpelling (remarkText label))) := by
  have hrelationship :
      (translateRelationship (relationLine left.text op right.text (remarkText label))).Issues
        padding [{ name := left.text, minLength := 0 }, { name := right.text, minLength := 0 }]
        fun last =>
          relationLine ((identifiers padding last).ofEntity left.text) op
            ((identifiers padding last).ofEntity right.text)
            (labelSpelling (remarkText label)) := by
    rw [translateRelationship, Relationship.ofLine?_relationLine]
    simp only [Text.indent_eq_nil (trim_relationLine left right op label)]
    exact (Issues.allocate left.text 0).bind fun l =>
      (Issues.allocate right.text 0).bind fun r =>
        .pure _ (relationLine l op r (labelSpelling (remarkText label)))
  exact hrelationship.map some

/-- The step lemma: a line makes its requests and then those behind it make
theirs. -/
theorem issues_cons {r : Reading} {lineNo : Nat} {line : Text} {kind : Line}
    {rest : List (Nat × Text)} {out : Allocator → Option Text}
    {outs : Allocator → List Text} {last : Reading}
    (hkind : Line.classify r.inBlock line = kind)
    (hline : (translateLine lineNo line kind).Issues padding rs out)
    (hrest : (translateLines (r.next kind) rest).Issues padding rs'
      fun a => (outs a, last)) :
    (translateLines r ((lineNo, line) :: rest)).Issues padding (rs ++ rs')
      fun a => ((out a).toList ++ outs a, last) := by
  subst hkind
  rw [translateLines]
  have h := hline.bind fun o => hrest.bind fun p =>
    Issues.pure padding (o.toList ++ p.1, p.2)
  rwa [List.append_nil] at h

-- ================================================================ items

variable {rest : List Text} {outs : Allocator → List Text} {last : Reading}

/-- The lines of a block up to its end. -/
theorem issues_fields
    (hrest : ∀ n, (translateLines {} (number n rest)).Issues padding rs
      fun a => (outs a, last)) (fields : List Field) (n : Nat) :
    (translateLines { inBlock := true }
        (number n (fields.map Field.line ++ ['}'] :: rest))).Issues padding
      (fields.map (Field.request padding) ++ rs)
      fun a =>
        ((fields.map (Field.row (identifiers padding a))).map rowLine ++ ['}'] :: outs a,
          last) := by
  induction fields generalizing n with
  | nil =>
      rw [List.map_nil, List.nil_append, number_cons]
      exact issues_cons (r := { inBlock := true }) classify_blockEnd (.pure _ _)
        (hrest (n + 1))
  | cons f fields ih =>
      rw [List.map_cons, List.cons_append, number_cons]
      exact issues_cons (r := { inBlock := true }) (classify_line f) (issues_line f n)
        (ih (n + 1))

/-- The run lemma: the lines of items make the items' requests, and become
the lines of the items' entries. -/
theorem issues_items (items : List Item) (n : Nat) :
    (translateLines {} (number n (items.flatMap Item.lines))).Issues padding
      (items.flatMap (Item.requests padding))
      fun a =>
        ((items.map (Item.entry (identifiers padding a))).flatMap Entry.lines, {}) := by
  induction items generalizing n with
  | nil => exact .pure _ _
  | cons item items ih =>
      cases item with
      | block name fields =>
          rw [List.flatMap_cons, Item.lines, List.cons_append, List.append_assoc, number_cons]
          have hfields := issues_fields ih fields (n + 1)
          have h := issues_cons (r := {}) (classify_blockLine name)
            (issues_blockLine name n) hfields
          simpa [Item.requests, Item.entry, Entry.lines] using h
      | relation left op right label =>
          rw [List.flatMap_cons, Item.lines, List.singleton_append, number_cons]
          exact issues_cons (r := {}) (classify_relationLine left right op label)
            (issues_relationLine left right op label n) (ih (n + 1))

-- ============================================================ documents

/-- What is requested for a document. -/
def Document.requests (d : Document) (padding : Int) : List Request :=
  d.items.flatMap (Item.requests padding)

theorem Phrase.newline_not_mem {kind : Char → Bool} (p : Phrase kind) : '\n' ∉ p.text :=
  Er.newline_not_mem fun c hc => (p.chars c hc).1

theorem newline_not_mem_spelling (op : Cardinality) : '\n' ∉ op.spelling :=
  fun h => absurd (Cardinality.mem_of_mem_spelling h) (by decide)

theorem Field.newline_not_mem (f : Field) : '\n' ∉ f.line := by
  have hkey : ∀ k : Key, '\n' ∉ k.text :=
    fun k hmem => absurd (k.mem_keyLetters hmem) (by decide)
  rw [Field.line, Field.columns]
  cases f.key with
  | none =>
      cases f.comment with
      | none => simp [f.name.newline_not_mem, f.type.newline_not_mem]
      | some t => simp [f.name.newline_not_mem, f.type.newline_not_mem, t.newline_not_mem]
  | some k =>
      cases f.comment with
      | none => simp [f.name.newline_not_mem, f.type.newline_not_mem, hkey]
      | some t =>
          simp [f.name.newline_not_mem, f.type.newline_not_mem, hkey, t.newline_not_mem]

/-- No line of a document holds a line feed. -/
theorem Document.newline_not_mem (d : Document) : ∀ line ∈ d.lines, '\n' ∉ line := by
  intro line hline
  rcases List.mem_cons.1 hline with rfl | hline
  · decide
  obtain ⟨item, -, hline⟩ := List.mem_flatMap.1 hline
  cases item with
  | block name fields =>
      rcases List.mem_cons.1 hline with rfl | hline
      · simp [blockLine, name.newline_not_mem]
      · rcases List.mem_append.1 hline with hline | hline
        · obtain ⟨f, -, rfl⟩ := List.mem_map.1 hline
          exact f.newline_not_mem
        · obtain rfl := List.mem_singleton.1 hline
          decide
  | relation left op right label =>
      obtain rfl := List.mem_singleton.1 hline
      rw [relationLine_eq]
      cases label with
      | none =>
          simp [labelPart_none, left.newline_not_mem, right.newline_not_mem,
            newline_not_mem_spelling]
      | some t =>
          simp [labelPart_some, left.newline_not_mem, right.newline_not_mem,
            newline_not_mem_spelling, t.newline_not_mem]

theorem Document.lines_source (d : Document) : Text.lines d.source = d.lines :=
  List.splitOn_intercalate _ d.newline_not_mem (by simp [Document.lines])

/-- A document is an entity-relationship source. -/
theorem Document.ofSource_source (d : Document) : Mode.ofSource d.source = .er := by
  have hsource : ∃ rest, d.source = "erDiagram".toList ++ rest
      ∧ Text.atWordEnd rest = true := by
    unfold Document.source Text.joinLines Document.lines
    cases d.items.flatMap Item.lines with
    | nil => exact ⟨[], rfl, rfl⟩
    | cons line rest =>
        have hend : (!isWordChar '\n') = true := by decide
        refine ⟨'\n' :: ['\n'].intercalate (line :: rest), ?_, hend⟩
        rw [List.intercalate_cons_cons]
        rfl
  obtain ⟨rest, hsource, hend⟩ := hsource
  have hread : Text.afterAnyCase? erWord d.source = some rest := by
    rw [hsource, Text.afterAnyCase?_eq_some_iff]
    exact ⟨"erDiagram".toList, rfl, by decide⟩
  have hkeyword : Text.afterKeyword? erWord d.source = some rest := by
    rw [Text.afterKeyword?, hread, Option.filter_some, if_pos hend]
  have hfound : Text.hasKeyword erWord d.source false = true := by
    rw [hsource] at hkeyword ⊢
    rw [show "erDiagram".toList ++ rest = 'e' :: ("rDiagram".toList ++ rest) from rfl]
      at hkeyword ⊢
    rw [Text.hasKeyword, hkeyword]
    rfl
  rw [Mode.ofSource, if_pos hfound]

/-- The allocator once a document has been compiled. -/
def Document.allocator (d : Document) (padding : Int) : Allocator :=
  Allocator.issueAll {} (d.requests padding)

/-- What a document compiles to. -/
theorem Document.compile_source (d : Document) (strict : Bool) (padding : Int) :
    compile d.source strict padding
      = .ok
          { mode := .er
            code := Entry.diagram (d.entries (identifiers padding (d.allocator padding)))
            legend := (d.allocator padding).legend, direction := none
            diagnostics := [] } := by
  have hlines : Text.numberedLines d.source
      = (1, "erDiagram".toList) :: number 2 (d.items.flatMap Item.lines) := by
    rw [← number_cons, Text.numberedLines, d.lines_source]
    rfl
  have hissues : (translateLines {}
      ((1, "erDiagram".toList) :: number 2 (d.items.flatMap Item.lines))).Issues padding _ _ :=
    issues_cons (r := {}) classify_declaration (.pure _ (some "erDiagram".toList))
      (issues_items d.items 2)
  have hrun := hissues { strict := strict, padding := padding }
    (Context.sound_start strict padding) rfl []
  rw [← hlines, List.append_nil] at hrun
  have htranslate : FreeLabel.translate d.source .er { strict := strict, padding := padding }
      = .ok (Entry.diagram (d.entries (identifiers padding (d.allocator padding))), none)
          (Context.issueAll { strict := strict, padding := padding }
            (d.requests padding)) := by
    show Er.translate d.source _ = _
    unfold Er.translate
    simp only [bind, EStateM.bind, hrun]
    rfl
  unfold compile
  rw [d.ofSource_source]
  simp only [EStateM.run, htranslate]
  rfl

/-- The legend that a document compiles to holds each name that was
requested under its identifier. -/
theorem Document.get?_of_mem_requests (d : Document) {padding : Int} {r : Request}
    (hr : r ∈ d.requests padding) :
    (d.allocator padding).legend.get? ((d.allocator padding).choose r.name r.minLength)
      = some r.name :=
  Allocator.exact_empty.get?_issueAll hr

end Er

end FreeLabel
