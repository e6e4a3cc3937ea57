/-
What a compiled flowchart shows: its nodes in the order of first mention,
each with the label that it was last given, and its edges in the order in
which they stand. A line is a chain of nodes with arrows between them;
arrows are looked for first, and what lies between two is a node.
-/
import FreeLabel.Drawing.Er
import FreeLabel.Flow.Translate

namespace FreeLabel.Drawing

open Text (trim trimLeft)

-- ============================================================= the value

/-- A node with its label. -/
structure Node where
  /-- The identifier. -/
  name : Text
  /-- The label. -/
  label : Text
deriving DecidableEq, Repr

/-- An edge from one node to another. -/
structure Edge where
  /-- The identifier of the node that it leaves. -/
  source : Text
  /-- The identifier of the node that it enters. -/
  target : Text
  /-- The label, empty if there is none. -/
  label : Text
deriving DecidableEq, Repr

/-- What a flowchart shows. -/
structure FlowDrawing where
  /-- The nodes, in the order of first mention. -/
  nodes : List Node := []
  /-- The edges, in order. -/
  edges : List Edge := []
deriving DecidableEq, Repr

/-- Nodes with one mentioned, under a label or bare. A label replaces the
one that the node had; without one, a new node is labelled by its
identifier. -/
def mentionNode (nodes : List Node) (name : Text) (label : Option Text) :
    List Node :=
  if nodes.any (·.name = name) then
    match label with
    | none => nodes
    | some l => nodes.map fun n => if n.name = name then { n with label := l } else n
  else nodes ++ [{ name := name, label := label.getD name }]

-- ================================================================= chains

/-- The first arrow in a text, between what stands before and behind
it. -/
def findArrow? : Text → Option (Text × Flow.Arrow × Text)
  | [] => none
  | c :: s =>
    match Flow.Arrow.read? (c :: s) with
    | some (a, rest) => some ([], a, rest)
    | none => (findArrow? s).map fun (before, a, rest) => (c :: before, a, rest)

theorem eq_of_findArrow? {s before rest : Text} {a : Flow.Arrow}
    (h : findArrow? s = some (before, a, rest)) :
    s = before ++ a.spelling ++ rest ∧ a.spelling ≠ [] := by
  induction s generalizing before with
  | nil => simp [findArrow?] at h
  | cons c s ih =>
    rw [findArrow?] at h
    split at h
    · next hr =>
      simp only [Option.some.injEq, Prod.mk.injEq] at h
      obtain ⟨rfl, rfl, rfl⟩ := h
      exact ⟨by simpa using Flow.Arrow.eq_spelling_of_read? hr,
        Flow.Arrow.spelling_ne_nil_of_read? hr⟩
    · obtain ⟨⟨b, a', r⟩, hf, heq⟩ := Option.map_eq_some_iff.1 h
      simp only [Prod.mk.injEq] at heq
      obtain ⟨rfl, rfl, rfl⟩ := heq
      simpa using ih hf

theorem length_lt_of_findArrow? {s before rest : Text} {a : Flow.Arrow}
    (h : findArrow? s = some (before, a, rest)) : rest.length < s.length := by
  obtain ⟨rfl, hne⟩ := eq_of_findArrow? h
  have := List.length_pos_iff.2 hne
  simp
  omega

/-- A line as the text before its first arrow, and its arrows each with
the text up to the next. -/
def chain (s : Text) : Text × List (Flow.Arrow × Text) :=
  match _h : findArrow? s with
  | none => (s, [])
  | some (before, a, rest) =>
    let (first, more) := chain rest
    (before, (a, first) :: more)
termination_by s.length
decreasing_by exact length_lt_of_findArrow? ‹_›

/-- The node that a text names, with the label that it gives. -/
def node? (s : Text) : Option (Text × Option Text) := do
  let (name, rest) ← ident? (trim s)
  match rest with
  | [] => some (name, none)
  | rest =>
    let (_, label, rest) ← Flow.Bracket.anyLabel? rest
    guard (rest = [])
    some (name, some label)

/-- The words that begin a line which draws nothing. -/
def ignoredWords : List Text :=
  "subgraph".toList :: "end".toList :: (Flow.styleWords ++ ["direction".toList])

-- ============================================================ the diagram

/-- Edges along a chain that starts at a node, given the nodes behind its
arrows. -/
def edgesFrom (source : Text) : List (Flow.Arrow × Text) → List Edge
  | [] => []
  | (a, target) :: rest =>
    { source := source, target := target, label := Text.peel (a.label.getD []) } ::
      edgesFrom target rest

/-- A line of a diagram, read into what the lines before it show. -/
def FlowDrawing.readLine (d : FlowDrawing) (lineNo : Nat) (line : Text) :
    Except Rejection FlowDrawing :=
  if Flow.startsWithWord ignoredWords line then .ok d
  else
    let (first, links) := chain line
    match node? first, links.mapM fun (a, s) => (node? s).map fun n => (a, n) with
    | some n, some targets =>
      .ok
        { nodes := (n :: targets.map Prod.snd).foldl
            (fun nodes n => mentionNode nodes n.1 n.2) d.nodes
          edges := d.edges ++ edgesFrom n.1 (targets.map fun (a, n) => (a, n.1)) }
    | _, _ => .error (.unexpected lineNo line .node)

/-- What a flowchart shows. -/
def FlowDrawing.ofDiagram (diagram : Text) : Except Rejection FlowDrawing :=
  match contentLines diagram with
  | [] => .error .noFlowchart
  | (_, line) :: rest =>
    if Flow.startsWithAnyCase Flow.headerWords line then
      rest.foldlM (fun d (lineNo, line) => d.readLine lineNo line) {}
    else .error .noFlowchart

end FreeLabel.Drawing
