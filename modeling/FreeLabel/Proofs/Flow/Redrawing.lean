/-
What is drawn for the rows of walks.

# Reading a row

The reader of diagrams looks for arrows first. In the row of a walk it
finds the arrows of the walk and nothing else, unless a shaft begins in a
label: then it takes that for an arrow, and what it finds before it is a
node that is cut off within its quotes, which it does not admit
(`stops?_of_not_shaftless`). So a row is read as its walk or not at all
(`Walk.stops?_row`).

# The picture

A walk that is read is added to the picture of those before it, since
equal labels have equal identifiers and no others do (`readLine_row`).
-/
import FreeLabel.Proofs.Flow.Translation

namespace FreeLabel.Flow

open Drawing (Edge FlowDrawing Node chain edgesFrom findArrow? ident? mentionNode node?)
open Naming (isIdentifier)
open Text (trim)

variable {ids : Text → Text}

-- ================================================================= nodes

/-- A node is read, also between blanks. -/
theorem node?_node {id label a b : Text} (hid : isIdentifier id = true) (shape : Shape)
    (hlabel : '"' ∉ label) (ha : ∀ c ∈ a, isBlank c = true) (hb : ∀ c ∈ b, isBlank c = true) :
    node? (a ++ (id ++ shape.bracket.enclose label ++ b)) = some (id, some label) := by
  have hstop : ∀ c ∈ (shape.bracket.enclose label).head?, isIdentChar c = false := by
    obtain ⟨c, t, heq, -, hc⟩ := head_enclose shape.bracket label []
    rw [List.append_nil] at heq
    rw [heq]
    rintro d ⟨⟩
    exact hc
  rw [node?, Text.trim_append ha hb (trim_node hid _ _), Drawing.ident?_append hid hstop]
  obtain ⟨c, t, heq, -⟩ := head_enclose shape.bracket label []
  have hread := anyLabel?_enclose shape.bracket hlabel []
  rw [List.append_nil] at heq hread
  rw [heq] at hread ⊢
  simp only [bind, Option.bind, hread]
  rfl

theorem count_quote_eq_zero {s : Text} {p : Char → Bool} (hs : ∀ c ∈ s, p c = true)
    (hp : p '"' = false) : s.count '"' = 0 := by
  rw [List.count_eq_zero]
  intro hmem
  rw [hs _ hmem] at hp
  cases hp

/-- A text with a single quote mark in it is no node: the label of a node
stands between two. -/
theorem node?_eq_none {s : Text} (hs : s.count '"' = 1) : node? s = none := by
  obtain ⟨a, b, ha, hb, -, htrim⟩ := Text.exists_trim s
  rw [htrim, List.count_append, List.count_append,
    count_quote_eq_zero (p := isBlank) ha (by decide),
    count_quote_eq_zero (p := isBlank) hb (by decide)] at hs
  cases hident : ident? (trim s) with
  | none => simp [node?, hident]
  | some found =>
      obtain ⟨name, rest⟩ := found
      obtain ⟨hname, heq⟩ := Drawing.of_ident? hident
      rw [heq, List.count_append,
        count_quote_eq_zero (List.all_eq_true.1 hname) (by decide)] at hs
      cases rest with
      | nil => simp at hs
      | cons c rest =>
          cases hlabel : Bracket.anyLabel? (c :: rest) with
          | none => simp [node?, hident, hlabel]
          | some found =>
              obtain ⟨bracket, label, after⟩ := found
              have hspelled := Bracket.eq_enclose_of_anyLabel? hlabel
              rw [hspelled] at hs
              simp [Bracket.enclose] at hs
              omega

-- ================================================================ chains

/-- What a line is read as: the node that it begins with, and its arrows
each with the node behind it. -/
def stops? (s : Text) : Option ((Text × Option Text) × List (Arrow × Text × Option Text)) :=
  (node? (chain s).1).bind fun n =>
    ((chain s).2.mapM fun (link : Arrow × Text) => (node? link.2).map fun m => (link.1, m)).map
      fun links => (n, links)

/-- One arrow of a chain after the other. -/
theorem chain_eq (s : Text) :
    chain s = (findArrow? s).elim (s, []) fun (before, a, rest) =>
      (before, (a, (chain rest).1) :: (chain rest).2) := by
  rw [chain]
  split
  next h => rw [h, Option.elim_none]
  next h => rw [h, Option.elim_some]

theorem stops?_of_none {s : Text} (h : findArrow? s = none) :
    stops? s = (node? s).map fun n => (n, []) := by
  rw [stops?, chain_eq, h, Option.elim_none]
  cases node? s <;> rfl

theorem stops?_of_some {s before rest : Text} {a : Arrow}
    (h : findArrow? s = some (before, a, rest)) :
    stops? s
      = (node? before).bind fun n =>
          (stops? rest).map fun (m, links) => (n, (a, m) :: links) := by
  rw [stops?, stops?, chain_eq s, h, Option.elim_some]
  simp only [List.mapM_cons]
  cases node? before with
  | none => rfl
  | some n =>
      cases node? (chain rest).1 with
      | none => rfl
      | some m =>
          cases (chain rest).2.mapM fun (link : Arrow × Text) =>
              (node? link.2).map fun m => (link.1, m) with
          | none => rfl
          | some links => rfl

/-- A line is added to a drawing by its stops. -/
theorem readLine_eq (d : FlowDrawing) (lineNo : Nat) (line : Text) :
    d.readLine lineNo line
      = if startsWithWord Drawing.ignoredWords line then .ok d
        else match stops? line with
          | some (n, links) =>
            .ok
              { nodes := (n :: links.map Prod.snd).foldl
                  (fun nodes n => mentionNode nodes n.1 n.2) d.nodes
                edges := d.edges ++ edgesFrom n.1 (links.map fun (a, n) => (a, n.1)) }
          | none => .error (.unexpected lineNo line .node) := by
  unfold FlowDrawing.readLine stops?
  split
  next => rfl
  next =>
    generalize chain line = line'
    obtain ⟨first, links⟩ := line'
    simp only
    cases node? first with
    | none => rfl
    | some n =>
        cases links.mapM fun (link : Arrow × Text) => (node? link.2).map fun m => (link.1, m) with
        | none => rfl
        | some links => rfl

-- ================================================================== rows

/-- What stands before a label in a node holds no quote, and no shaft begins
there. -/
theorem of_mem_opening {id a : Text} {c : Char} (hid : isIdentifier id = true)
    (ha : ∀ c ∈ a, isBlank c = true) (b : Bracket) (hc : c ∈ a ++ (id ++ b.opening)) :
    c ≠ '"' ∧ c ≠ '-' ∧ c ≠ '=' := by
  rcases List.mem_append.1 hc with hc | hc
  · have hblank := ha c hc
    exact ⟨ne_of_kind hblank (by decide), ne_of_kind hblank (by decide),
      ne_of_kind hblank (by decide)⟩
  rcases List.mem_append.1 hc with hc | hc
  · have hident := (Naming.isIdentChar_of_isIdentifier hid).2 c hc
    exact ⟨ne_of_kind hident (by decide), ne_of_kind hident (by decide),
      ne_of_kind hident (by decide)⟩
  · have hall : ∀ c ∈ b.opening, c ≠ '"' ∧ c ≠ '-' ∧ c ≠ '=' := by
      cases b <;> exact Text.forall_mem_of_all (by decide)
    exact hall c hc

/-- A node at its label. -/
theorem node_eq (a id label s : Text) (b : Bracket) :
    a ++ (id ++ b.enclose label ++ s)
      = (a ++ (id ++ b.opening)) ++ '"' :: (label ++ '"' :: (b.closing ++ s)) := by
  simp [Bracket.enclose]

theorem quote_not_mem_shaftMarks : ∀ m ∈ shaftMarks, '"' ∉ m := by decide

theorem space_not_mem_shaftMarks : ∀ m ∈ shaftMarks, ' ' ∉ m := by decide

/-- No shaft begins in a node if none begins in its label. -/
theorem shaftless_node {id label a : Text} (hid : isIdentifier id = true)
    (ha : ∀ c ∈ a, isBlank c = true) (b : Bracket) (hlabel : Shaftless label) :
    Shaftless (a ++ (id ++ b.enclose label)) := by
  have hclosing : ∀ c ∈ b.closing, c ≠ '-' ∧ c ≠ '=' := by
    cases b <;> exact Text.forall_mem_of_all (by decide)
  have heq := node_eq a id label [] b
  rw [List.append_nil, List.append_nil] at heq
  rw [heq]
  refine Shaftless.append_cons ?_ (hlabel.append_cons ?_ quote_not_mem_shaftMarks)
    quote_not_mem_shaftMarks
  · exact shaftless_of_forall fun c hc => (of_mem_opening hid ha b hc).2
  · exact shaftless_of_forall hclosing

/-- A line is not read if a shaft begins in the label of its first node:
what stands before the shaft has one quote. -/
theorem stops?_of_not_shaftless {id label a : Text} (hid : isIdentifier id = true)
    (ha : ∀ c ∈ a, isBlank c = true) (b : Bracket) (hquote : '"' ∉ label)
    (hlabel : ¬ Shaftless label) (s : Text) :
    stops? (a ++ (id ++ b.enclose label ++ s)) = none := by
  have hopening := fun c => of_mem_opening (c := c) hid ha b
  obtain ⟨before, arrow, rest, hfound, hbefore⟩ :=
    exists_findArrow? hlabel ('"' :: (b.closing ++ s))
  have hfirst : findArrow? (a ++ (id ++ b.enclose label ++ s))
      = some ((a ++ (id ++ b.opening)) ++ '"' :: before, arrow, rest) := by
    rw [node_eq, findArrow?_append (shaftless_of_forall fun c hc => (hopening c hc).2)
      quote_not_mem_shaftMarks, hfound]
    rfl
  have hcut : node? ((a ++ (id ++ b.opening)) ++ '"' :: before) = none := by
    refine node?_eq_none ?_
    have hleft : (a ++ (id ++ b.opening)).count '"' = 0 :=
      List.count_eq_zero.2 fun hmem => (hopening _ hmem).1 rfl
    have hright : before.count '"' = 0 :=
      List.count_eq_zero.2 fun hmem => hquote (hbefore.subset hmem)
    rw [List.count_append, List.count_cons_self, hleft, hright]
  rw [stops?_of_some hfirst, hcut, Option.bind_none]

variable {w : Walk} {a : Text}

theorem Walk.Plain.rest {shape : Shape} {label arrow : Text} {rest : Walk}
    (h : (Walk.go shape label arrow rest).Plain) : rest.Plain :=
  ⟨fun l hl => h.labels l (List.mem_cons_of_mem _ hl),
    fun a ha => h.arrows a (List.mem_cons_of_mem _ ha)⟩

theorem quote_not_mem_squeeze {label : Text} (h : '"' ∉ label) : '"' ∉ squeeze label :=
  fun hmem => h (mem_of_mem_squeeze hmem)

/-- Before its first arrow the row of a walk is the node of its first
label. -/
theorem findArrow?_row (hids : ∀ label, isIdentifier (ids label) = true)
    (ha : ∀ c ∈ a, isBlank c = true) (shape : Shape) {label arrow : Text}
    (hlabel : Shaftless label) (harrow : IsArrow arrow) (s : Text) :
    ∃ found, findArrow? (a ++ (ids label ++ shape.bracket.enclose (squeeze label)
          ++ ' ' :: (squeeze arrow ++ ' ' :: s)))
        = some (a ++ (ids label ++ shape.bracket.enclose (squeeze label) ++ [' ']), found,
            ' ' :: s)
      ∧ Text.peel (found.label.getD []) = squeeze (arrowLabel arrow) := by
  obtain ⟨found, -, hread, hpeel⟩ := harrow.read?_squeeze
  refine ⟨found, ?_, hpeel⟩
  have hshaftless := shaftless_node (hids label) ha shape.bracket (shaftless_squeeze_iff.2 hlabel)
  rw [← List.append_assoc, findArrow?_append hshaftless space_not_mem_shaftMarks,
    findArrow?_of_read? (hread _ (apart_space s))]
  simp

/-- The row of a walk is read as its walk, if no shaft begins in its
labels. -/
theorem Walk.stops?_row (hids : ∀ label, isIdentifier (ids label) = true) (hw : w.Plain)
    (ha : ∀ c ∈ a, isBlank c = true) (hlabels : ∀ l ∈ w.labels, Shaftless l) :
    ∃ links, stops? (a ++ w.row ids) = some ((ids w.first, some (squeeze w.first)), links)
      ∧ (ids w.first, some (squeeze w.first)) :: links.map Prod.snd
          = w.labels.map (fun l => (ids l, some (squeeze l)))
      ∧ edgesFrom (ids w.first) (links.map fun (arrow, n) => (arrow, n.1))
          = w.links.map (edgeOf ids) := by
  induction w generalizing a with
  | stop shape label =>
      have hquote := quote_not_mem_squeeze (hw.labels label List.mem_cons_self).1
      have hnode := node?_node (b := []) (hids label) shape hquote ha (by simp)
      have hnone : findArrow? (a ++ (ids label ++ shape.bracket.enclose (squeeze label))) = none :=
        findArrow?_eq_none_iff.2 (shaftless_node (hids label) ha _
          (shaftless_squeeze_iff.2 (hlabels label List.mem_cons_self)))
      rw [List.append_nil] at hnode
      refine ⟨[], ?_, rfl, rfl⟩
      rw [row, stops?_of_none hnone, hnode]
      rfl
  | go shape label arrow rest ih =>
      have hquote := quote_not_mem_squeeze (hw.labels label List.mem_cons_self).1
      have hnode := node?_node (hids label) shape hquote ha Text.isBlank_of_mem_space
      obtain ⟨links, hrest, hnodes, hedges⟩ :=
        ih hw.rest (a := [' ']) Text.isBlank_of_mem_space
          fun l hl => hlabels l (List.mem_cons_of_mem _ hl)
      obtain ⟨found, hfound, hpeel⟩ := findArrow?_row hids ha shape
        (hlabels label List.mem_cons_self) (hw.arrows arrow List.mem_cons_self).1 (rest.row ids)
      refine ⟨(found, ids rest.first, some (squeeze rest.first)) :: links, ?_, ?_, ?_⟩
      · rw [row, stops?_of_some hfound, hnode]
        rw [List.singleton_append] at hrest
        rw [hrest]
        rfl
      · rw [List.map_cons, hnodes]
        rfl
      · rw [List.map_cons, edgesFrom, hedges, hpeel]
        rfl

/-- If one does, the row is not read. -/
theorem Walk.stops?_row_eq_none (hids : ∀ label, isIdentifier (ids label) = true)
    (hw : w.Plain) (ha : ∀ c ∈ a, isBlank c = true)
    (hlabels : ¬ ∀ l ∈ w.labels, Shaftless l) : stops? (a ++ w.row ids) = none := by
  induction w generalizing a with
  | stop shape label =>
      have hquote := quote_not_mem_squeeze (hw.labels label List.mem_cons_self).1
      have hlabel : ¬ Shaftless (squeeze label) := by
        simpa [labels, shaftless_squeeze_iff] using hlabels
      have hnone := stops?_of_not_shaftless (hids label) ha shape.bracket hquote hlabel []
      rwa [List.append_nil] at hnone
  | go shape label arrow rest ih =>
      have hquote := quote_not_mem_squeeze (hw.labels label List.mem_cons_self).1
      by_cases hlabel : Shaftless label
      · -- the first node is read, and what is behind the arrow is not
        have hrest := ih hw.rest (a := [' ']) Text.isBlank_of_mem_space
          fun hall => hlabels (List.forall_mem_cons.2 ⟨hlabel, hall⟩)
        obtain ⟨found, hfound, -⟩ := findArrow?_row hids ha shape hlabel
          (hw.arrows arrow List.mem_cons_self).1 (rest.row ids)
        rw [List.singleton_append] at hrest
        rw [row, stops?_of_some hfound, hrest]
        cases node? _ <;> rfl
      · exact stops?_of_not_shaftless (hids label) ha shape.bracket hquote
          (mt shaftless_squeeze_iff.1 hlabel) _

-- ========================================================== ignored lines

theorem isWordChar_of_mem_ignoredWords :
    ∀ word ∈ Drawing.ignoredWords, ∀ c ∈ word, isWordChar c = true := by
  have hall : Drawing.ignoredWords.all (·.all isWordChar) = true := by decide
  exact fun word hword => List.all_eq_true.1 (List.all_eq_true.1 hall word hword)

/-- A row is ignored exactly if the identifier that it begins with is one
of the words that begin ignored lines. -/
theorem startsWithWord_row (hids : ∀ label, isIdentifier (ids label) = true) (w : Walk) :
    startsWithWord Drawing.ignoredWords (w.row ids) = true
      ↔ ids w.first ∈ Drawing.ignoredWords := by
  obtain ⟨shape, rest, hrow⟩ := w.row_eq ids
  rw [startsWithWord_iff isWordChar_of_mem_ignoredWords, hrow,
    (isName_of_isIdentifier (hids w.first)).leadingWord_append
      (isWordChar_head_enclose _ _ _)]

-- ============================================================= the picture

section Picture

variable {known ls : List Text} {ws : List Walk}

/-- A label that is mentioned is the last to be mentioned first, or was
there before. -/
theorem mentionNode_nodeOf (hinj : ∀ l ∈ known, ∀ m ∈ known, ids l = ids m → l = m)
    (hls : ∀ l ∈ ls, l ∈ known) {label : Text} (hlabel : label ∈ known) :
    mentionNode (ls.eraseDups.map (nodeOf ids)) (ids label) (some (squeeze label))
      = (ls ++ [label]).eraseDups.map (nodeOf ids) := by
  have hany : (ls.eraseDups.map (nodeOf ids)).any (·.name = ids label) = true
      ↔ label ∈ ls := by
    rw [List.any_map, List.any_eq_true]
    constructor
    · rintro ⟨l, hl, hname⟩
      have hmem := List.mem_eraseDups.1 hl
      obtain rfl := hinj l (hls l hmem) label hlabel (of_decide_eq_true hname)
      exact hmem
    · intro hmem
      exact ⟨label, List.mem_eraseDups.2 hmem, decide_eq_true rfl⟩
  rw [mentionNode, Drawing.eraseDups_concat]
  by_cases hmem : label ∈ ls
  · rw [if_pos (hany.2 hmem), if_pos hmem, List.map_map]
    refine List.map_congr_left fun l hl => ?_
    show (if ids l = ids label then { nodeOf ids l with label := squeeze label }
      else nodeOf ids l) = nodeOf ids l
    split
    next heq =>
      obtain rfl := hinj l (hls l (List.mem_eraseDups.1 hl)) label hlabel heq
      rfl
    next => rfl
  · rw [if_neg fun h => hmem (hany.1 h), if_neg hmem, List.map_append]
    rfl

theorem foldl_mentionNode (hinj : ∀ l ∈ known, ∀ m ∈ known, ids l = ids m → l = m)
    (hls : ∀ l ∈ ls, l ∈ known) {ms : List Text} (hms : ∀ l ∈ ms, l ∈ known) :
    (ms.map fun l => (ids l, some (squeeze l))).foldl
        (fun nodes n => mentionNode nodes n.1 n.2) (ls.eraseDups.map (nodeOf ids))
      = (ls ++ ms).eraseDups.map (nodeOf ids) := by
  induction ms generalizing ls with
  | nil => rw [List.append_nil, List.map_nil, List.foldl_nil]
  | cons m ms ih =>
      have hm := hms m List.mem_cons_self
      have hgrown : ∀ l ∈ ls ++ [m], l ∈ known := by
        intro l hl
        rcases List.mem_append.1 hl with hl | hl
        · exact hls l hl
        · exact List.mem_singleton.1 hl ▸ hm
      rw [List.map_cons, List.foldl_cons, mentionNode_nodeOf hinj hls hm,
        ih hgrown fun l hl => hms l (List.mem_cons_of_mem m hl), List.append_assoc]
      rfl

/-- The step lemma: what the row of a walk does to a picture. It is ignored
if the identifier that it begins with is; else its walk is added, or the
row is rejected because a shaft begins in one of its labels. -/
theorem readLine_row (hids : ∀ label, isIdentifier (ids label) = true)
    (hinj : ∀ l ∈ known, ∀ m ∈ known, ids l = ids m → l = m)
    (hws : ∀ l ∈ ws.flatMap Walk.labels, l ∈ known) (hw : w.Plain)
    (hknown : ∀ l ∈ w.labels, l ∈ known) (lineNo : Nat) :
    (picture ids ws).readLine lineNo (w.row ids)
      = if ids w.first ∈ Drawing.ignoredWords then .ok (picture ids ws)
        else if ∀ l ∈ w.labels, Shaftless l then .ok (picture ids (ws ++ [w]))
        else .error (.unexpected lineNo (w.row ids) .node) := by
  simp only [readLine_eq, startsWithWord_row hids w]
  refine ite_congr rfl (fun _ => rfl) fun _ => ?_
  by_cases hlabels : ∀ l ∈ w.labels, Shaftless l
  · obtain ⟨links, hstops, hnodes, hedges⟩ := w.stops?_row (a := []) hids hw (by simp) hlabels
    rw [List.nil_append] at hstops
    rw [hstops, if_pos hlabels]
    simp only
    rw [hnodes, hedges]
    unfold picture
    rw [foldl_mentionNode hinj hws hknown, List.flatMap_append, List.flatMap_append,
      List.map_append, List.flatMap_singleton, List.flatMap_singleton]
  · have hstuck := w.stops?_row_eq_none (a := []) hids hw (by simp) hlabels
    rw [List.nil_append] at hstuck
    rw [hstuck, if_neg hlabels]

end Picture

end FreeLabel.Flow
