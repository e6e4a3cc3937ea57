/-
The graph that a flowchart source describes, told from its tokens alone.

# Walks

A line of labels with an arrow between any two is a walk from label to
label. The graph of a source has the labels of its walks for nodes, and
their arrows for edges. `picture` is that graph as a drawing, given the
identifiers under which the labels are drawn; nothing in it depends on how
the diagram is written or read.

# What is known of a walk

A walk that was read from a line holds no line feed, and its arrows are
spelled as arrows are (`Walk.Plain`): every token stands in the line that
it was read from (`exists_read?_of_mem_tokens`). It begins with a quote or
a bracket, so its line is none of those that the compiler keeps
(`isKept_of_ofLine?`).
-/
import FreeLabel.Drawing.Flow
import FreeLabel.Proofs.Text.Span

namespace FreeLabel.Flow

open Drawing (Edge FlowDrawing Node)
open Text (trim)

-- ================================================================ walks

/-- Labels in a row, each with the outline that is given it there, and an
arrow between any two. -/
inductive Walk
  /-- A label alone. -/
  | stop (shape : Shape) (label : Text)
  /-- A label, and an arrow from it to where the rest starts. -/
  | go (shape : Shape) (label arrow : Text) (rest : Walk)
deriving DecidableEq, Repr

namespace Walk

/-- The label that a walk starts from. -/
def first : Walk → Text
  | stop _ label => label
  | go _ label _ _ => label

/-- The labels of a walk, in order. -/
def labels : Walk → List Text
  | stop _ label => [label]
  | go _ label _ rest => label :: rest.labels

/-- The arrows of a walk, in order. -/
def arrows : Walk → List Text
  | stop _ _ => []
  | go _ _ arrow rest => arrow :: rest.arrows

/-- The arrows of a walk, each between the labels that it connects. -/
def links : Walk → List (Text × Text × Text)
  | stop _ _ => []
  | go _ label arrow rest => (label, arrow, rest.first) :: rest.links

/-- The walk that tokens are, if they are one. -/
def ofTokens? : List Token → Option Walk
  | [.node shape label] => some (.stop shape label)
  | .node shape label :: .arrow arrow :: rest => (ofTokens? rest).map (.go shape label arrow)
  | _ => none

/-- The walk on a trimmed line, if the line holds nothing else. -/
def ofLine? (line : Text) : Option Walk :=
  if strays line = [] then ofTokens? (tokens line) else none

end Walk

-- ============================================================= the graph

/-- The walks of a source, line by line. -/
def walks (source : Text) : List Walk :=
  (Text.lines source).filterMap fun line => Walk.ofLine? (trim line)

/-- The label of an arrow: what stands between its bars, without the
quotes around it. -/
def arrowLabel (arrow : Text) : Text :=
  Text.peel (((arrow.dropWhile (· != '|')).drop 1).takeWhile (· != '|'))

/-- The node of a label. It shows the label with single spaces. -/
def nodeOf (ids : Text → Text) (label : Text) : Node :=
  { name := ids label, label := squeeze label }

/-- The edge of an arrow between two labels. It shows the label of the
arrow with single spaces. -/
def edgeOf (ids : Text → Text) (link : Text × Text × Text) : Edge :=
  { source := ids link.1, target := ids link.2.2, label := squeeze (arrowLabel link.2.1) }

/-- The graph of walks as a drawing: one node for each label, in the order
of first mention, and one edge for each arrow, in order. -/
def picture (ids : Text → Text) (ws : List Walk) : FlowDrawing where
  nodes := (ws.flatMap Walk.labels).eraseDups.map (nodeOf ids)
  edges := (ws.flatMap Walk.links).map (edgeOf ids)

/-- A source that describes a graph: it begins with a header, and each
line behind it is kept and draws nothing, or is a walk over labels without
quotes. -/
structure Sketch (source : Text) : Prop where
  header : ∃ p ∈ (contentLines source).head?, startsWithAnyCase headerWords p.2 = true
  kept : ∀ p ∈ (contentLines source).tail, isKept p.2 = true →
    startsWithWord Drawing.ignoredWords p.2 = true
  walk : ∀ line ∈ Text.lines source, isKept (trim line) = false →
    ∃ w ∈ Walk.ofLine? (trim line), ∀ l ∈ w.labels, '"' ∉ l

instance (source : Text) : Decidable (Sketch source) :=
  decidable_of_iff
    ((∃ p ∈ (contentLines source).head?, startsWithAnyCase headerWords p.2 = true)
      ∧ (∀ p ∈ (contentLines source).tail, isKept p.2 = true →
          startsWithWord Drawing.ignoredWords p.2 = true)
      ∧ ∀ line ∈ Text.lines source, isKept (trim line) = false →
          ∃ w ∈ Walk.ofLine? (trim line), ∀ l ∈ w.labels, '"' ∉ l)
    ⟨fun ⟨header, kept, walk⟩ => ⟨header, kept, walk⟩,
      fun ⟨header, kept, walk⟩ => ⟨header, kept, walk⟩⟩

theorem Sketch.exists_header {source : Text} (h : Sketch source) :
    ∃ n line rest, contentLines source = (n, line) :: rest
      ∧ startsWithAnyCase headerWords line = true
      ∧ ∀ p ∈ rest, isKept p.2 = true → startsWithWord Drawing.ignoredWords p.2 = true := by
  obtain ⟨⟨n, line⟩, hhead, hheader⟩ := h.header
  obtain ⟨rest, hcontent⟩ := List.head?_eq_some_iff.1 hhead
  exact ⟨n, line, rest, hcontent, hheader, by simpa [hcontent] using h.kept⟩

-- ================================================================= tokens

theorem scan_blank {c : Char} (hc : isBlank c = true) (s : Text) :
    scan (c :: s) = .blank c :: scan s := by
  rw [scan.eq_def (c :: s)]
  dsimp only
  rw [if_pos hc]

theorem scan_token {c : Char} {s rest : Text} {t : Token} (hc : isBlank c = false)
    (h : Token.read? (c :: s) = some (t, rest)) : scan (c :: s) = .token t :: scan rest := by
  -- not the equation of the case, which takes seconds to derive
  rw [scan.eq_def (c :: s)]
  dsimp only
  rw [if_neg (by simp [hc])]
  split
  next u after hread =>
    rw [h] at hread
    cases hread
    rfl
  next hread =>
    rw [h] at hread
    cases hread

theorem scan_stray {c : Char} {s : Text} (hc : isBlank c = false)
    (h : Token.read? (c :: s) = none) : scan (c :: s) = .stray c :: scan s := by
  rw [scan.eq_def (c :: s)]
  dsimp only
  rw [if_neg (by simp [hc])]
  split
  next hread =>
    rw [h] at hread
    cases hread
  next => rfl

/-- Every token was read in the line. -/
theorem exists_read?_of_mem_tokens {line : Text} {t : Token} (h : t ∈ tokens line) :
    ∃ s rest, Token.read? s = some (t, rest) ∧ s <:+ line := by
  unfold tokens at h
  fun_induction scan line with
  | case1 => simp at h
  | case2 c s hblank ih =>
      obtain ⟨u, rest, hread, hu⟩ := ih (by simpa [Piece.token?] using h)
      exact ⟨u, rest, hread, hu.trans (List.suffix_cons c s)⟩
  | case3 c s hblank u rest hread ih =>
      rw [List.filterMap_cons] at h
      rcases List.mem_cons.1 h with rfl | h
      · exact ⟨c :: s, rest, hread, List.suffix_rfl⟩
      · obtain ⟨v, rest', hread', hv⟩ := ih h
        obtain ⟨w, -, -, hw⟩ := Token.read?_spelled hread
        exact ⟨v, rest', hread', hv.trans ⟨w, hw.symm⟩⟩
  | case4 c s hblank hread ih =>
      obtain ⟨u, rest, hread', hu⟩ := ih (by simpa [Piece.token?] using h)
      exact ⟨u, rest, hread', hu.trans (List.suffix_cons c s)⟩

/-- A text that was read as an arrow. -/
def IsArrow (w : Text) : Prop := ∃ s a rest, Arrow.read? s = some (a, rest) ∧ w = a.spelling

/-- Arrows and references each have a reader of their own. -/
theorem of_read? {s rest : Text} {t : Token} (h : Token.read? s = some (t, rest)) :
    match t with
    | .arrow _ => Token.arrow? s = some (t, rest)
    | .reference _ => Token.reference? s = some (t, rest)
    | .node _ _ => True := by
  simp only [Token.read?, Option.orElse_eq_orElse, Option.orElse_eq_or,
    Option.or_eq_some_iff] at h
  rcases h with h | ⟨-, h | ⟨-, h | ⟨-, h | ⟨-, h⟩⟩⟩⟩
  · obtain ⟨⟨a, after⟩, -, heq⟩ := Option.map_eq_some_iff.1 h
    cases heq
    exact h
  · unfold Token.diamond? at h
    split at h
    next =>
      obtain ⟨⟨inner, after⟩, -, heq⟩ := Option.map_eq_some_iff.1 h
      cases heq
      trivial
    next => cases h
  · unfold Token.rectangle? at h
    split at h
    next =>
      obtain ⟨⟨label, after⟩, -, heq⟩ := Option.map_eq_some_iff.1 h
      cases heq
      trivial
    next => cases h
  · unfold Token.rounded? at h
    split at h
    next =>
      obtain ⟨⟨label, after⟩, -, heq⟩ := Option.map_eq_some_iff.1 h
      cases heq
      trivial
    next => cases h
  · cases t with
    | reference spelling => exact h
    | arrow spelling =>
        cases s with
        | nil => cases h
        | cons c s => simp [Token.reference?] at h
    | node shape label => trivial

/-- An arrow among the tokens was read as one. -/
theorem isArrow_of_read? {s rest spelling : Text}
    (h : Token.read? s = some (.arrow spelling, rest)) : IsArrow spelling := by
  obtain ⟨⟨a, after⟩, hread, heq⟩ := Option.map_eq_some_iff.1 (of_read? h)
  cases heq
  exact ⟨s, a, rest, hread, rfl⟩

theorem mem_of_mem_bracedLabel {inner : Text} {c : Char} (h : c ∈ Token.bracedLabel inner) :
    c ∈ inner := by
  have hopening : ∀ s : Text, c ∈ Text.dropOpeningQuote s → c ∈ s := by
    intro s
    fun_cases Text.dropOpeningQuote s
    · exact List.mem_cons_of_mem _
    · exact id
  have hclosing : ∀ s : Text, c ∈ Text.dropClosingQuote s → c ∈ s := by
    intro s
    unfold Text.dropClosingQuote
    split
    next => exact fun h => (List.dropLast_sublist s).subset h
    next => exact id
  exact Text.mem_of_mem_trim (hopening _ (hclosing _ h))

/-- A label stands in the spelling of its node. -/
theorem mem_of_spelled {shape : Shape} {label w : Text}
    (h : Token.Spelled (.node shape label) w) {c : Char} (hc : c ∈ label) : c ∈ w := by
  cases h with
  | rectangle => simp [hc]
  | rounded => simp [hc]
  | diamond inner => simp [mem_of_mem_bracedLabel hc]

namespace Walk

/-- The tokens of a walk. -/
def tokens : Walk → List Token
  | stop shape label => [.node shape label]
  | go shape label arrow rest => .node shape label :: .arrow arrow :: rest.tokens

theorem eq_tokens_of_ofTokens? {ts : List Token} {w : Walk} (h : ofTokens? ts = some w) :
    ts = w.tokens := by
  fun_induction ofTokens? ts generalizing w with
  | case1 shape label =>
      cases h
      rfl
  | case2 shape label arrow rest ih =>
      obtain ⟨v, hv, rfl⟩ := Option.map_eq_some_iff.1 h
      rw [tokens, ← ih hv]
  | case3 => cases h

theorem node_mem_tokens {w : Walk} {label : Text} (h : label ∈ w.labels) :
    ∃ shape, .node shape label ∈ w.tokens := by
  induction w with
  | stop shape l =>
      obtain rfl := List.mem_singleton.1 h
      exact ⟨shape, List.mem_singleton.2 rfl⟩
  | go shape l arrow rest ih =>
      rcases List.mem_cons.1 h with rfl | h
      · exact ⟨shape, List.mem_cons_self⟩
      · obtain ⟨other, hother⟩ := ih h
        exact ⟨other, List.mem_cons_of_mem _ (List.mem_cons_of_mem _ hother)⟩

theorem arrow_mem_tokens {w : Walk} {arrow : Text} (h : arrow ∈ w.arrows) :
    .arrow arrow ∈ w.tokens := by
  induction w with
  | stop shape l => cases h
  | go shape l a rest ih =>
      rcases List.mem_cons.1 h with rfl | h
      · exact List.mem_cons_of_mem _ List.mem_cons_self
      · exact List.mem_cons_of_mem _ (List.mem_cons_of_mem _ (ih h))

/-- The walk of a line over labels without quotes. -/
structure Plain (w : Walk) : Prop where
  labels : ∀ l ∈ w.labels, '"' ∉ l ∧ '\n' ∉ l
  arrows : ∀ a ∈ w.arrows, IsArrow a ∧ '\n' ∉ a

theorem of_ofLine? {line : Text} {w : Walk} (h : ofLine? line = some w) :
    strays line = [] ∧ Flow.tokens line = w.tokens := by
  unfold ofLine? at h
  split at h
  next hstrays => exact ⟨hstrays, eq_tokens_of_ofTokens? h⟩
  next => cases h

theorem isArrow_of_ofLine? {line : Text} {w : Walk} (h : ofLine? line = some w) :
    ∀ a ∈ w.arrows, IsArrow a := by
  intro a ha
  have ht := arrow_mem_tokens ha
  rw [← (of_ofLine? h).2] at ht
  obtain ⟨s, rest, hread, -⟩ := exists_read?_of_mem_tokens ht
  exact isArrow_of_read? hread

theorem plain_of_ofLine? {line : Text} {w : Walk} (h : ofLine? line = some w)
    (hline : '\n' ∉ line) (hlabels : ∀ l ∈ w.labels, '"' ∉ l) : w.Plain := by
  have hspelled : ∀ t ∈ w.tokens, ∃ s, Token.Spelled t s ∧ '\n' ∉ s := by
    intro t ht
    rw [← (of_ofLine? h).2] at ht
    obtain ⟨s, rest, hread, hs⟩ := exists_read?_of_mem_tokens ht
    obtain ⟨v, hv, -, rfl⟩ := Token.read?_spelled hread
    exact ⟨v, hv, fun hmem => hline (hs.subset (List.mem_append_left _ hmem))⟩
  constructor
  · intro l hl
    obtain ⟨shape, ht⟩ := node_mem_tokens hl
    obtain ⟨s, hs, hnewline⟩ := hspelled _ ht
    exact ⟨hlabels l hl, fun hmem => hnewline (mem_of_spelled hs hmem)⟩
  · intro a ha
    obtain ⟨s, hs, hnewline⟩ := hspelled _ (arrow_mem_tokens ha)
    cases hs
    exact ⟨isArrow_of_ofLine? h a ha, hnewline⟩

/-- A walk begins with a node. -/
theorem exists_node_tokens (w : Walk) :
    ∃ shape rest, w.tokens = .node shape w.first :: rest := by
  cases w with
  | stop shape label => exact ⟨shape, _, rfl⟩
  | go shape label arrow rest => exact ⟨shape, _, rfl⟩

/-- A line with a walk is none of those that are kept. -/
theorem isKept_of_ofLine? {line : Text} {w : Walk} (htrim : trim line = line)
    (h : ofLine? line = some w) : isKept line = false := by
  obtain ⟨hstrays, htokens⟩ := of_ofLine? h
  obtain ⟨shape, rest, hfirst⟩ := w.exists_node_tokens
  rw [hfirst] at htokens
  generalize w.first = label at htokens
  cases line with
  | nil =>
      unfold Flow.tokens scan at htokens
      cases htokens
  | cons c s =>
      have hblank := (Text.trim_eq_self_iff.1 htrim).1 c rfl
      cases hread : Token.read? (c :: s) with
      | none => simp [strays, scan_stray hblank hread, Piece.stray?] at hstrays
      | some found =>
          obtain ⟨t, after⟩ := found
          have hhead : t = .node shape label := by
            simp only [Flow.tokens, scan_token hblank hread, List.filterMap_cons,
              Piece.token?] at htokens
            exact (List.cons.inj htokens).1
          subst hhead
          obtain ⟨v, hspelled, -, hv⟩ := Token.read?_spelled hread
          cases hspelled with
          | rectangle =>
              cases hv
              rfl
          | rounded =>
              cases hv
              rfl
          | diamond inner =>
              cases hv
              rfl

end Walk

end FreeLabel.Flow
