/-
What is drawn for the lines of entries: their picture.

# Reading

The reader of diagrams knows nothing of the pass that writes them. It
takes a line apart from the left, and what it looks for next tells it
where to stop; `PlainRow` and `PlainRelation` say of what stands in a line
that it holds nothing at which the reader would stop too early. Then each
line is read as what it was written for, and a run over the lines of
entries adds one entry after the other (`readLines_lines`).

# The picture

The reader adds an entity when it meets one that is not there yet, and a
row where the entity stands. `foldl_addTo` says that this makes the
picture: by induction on the entries still to come, with the picture of
those behind for the drawing at hand.
-/
import FreeLabel.Proofs.Er.Operators
import FreeLabel.Proofs.Er.Document
import FreeLabel.Proofs.Drawing.Names

namespace FreeLabel.Er

open Drawing (ErDrawing Relation Row eraseDups_concat guard_of guard_of_not ident? ident?_append
  isBlank_head_identifier isInert_identifier_append newline_not_mem_identifier trim_identifier)
open Naming (isIdentifier)
open Text (trim)

-- ================================================================ plain

/-- A row that is read as it is written. -/
structure PlainRow (row : Row) : Prop where
  first : isIdentifier row.first = true
  second : row.second ≠ []
  unblank : ∀ c ∈ row.second, isBlank c = false
  key : ∀ k ∈ row.key, k ∈ Drawing.keyNames
  comment : ∀ t ∈ row.comment, '"' ∉ t
  legal : ∀ t ∈ row.second :: row.comment.toList, ∀ c ∈ t, isLineChar c = true

/-- A relationship that is read as it is written. -/
structure PlainRelation (r : Relation) : Prop where
  left : isIdentifier r.left = true
  right : isIdentifier r.right = true
  trimmed : trim r.label = r.label
  label : '"' ∉ r.label
  legal : ∀ c ∈ r.label, isLineChar c = true

/-- An entry that is read as it is written. -/
def Entry.Plain : Entry → Prop
  | block name rows => isIdentifier name = true ∧ ∀ row ∈ rows, PlainRow row
  | relation r => PlainRelation r

-- ================================================================= rows

theorem rowComment_commentPart {comment : Option Text} (h : ∀ t ∈ comment, '"' ∉ t) :
    Drawing.rowComment (commentPart comment) = (comment, []) := by
  cases comment with
  | none => rfl
  | some t =>
      have hblanks : Text.afterBlanks? (commentPart (some t)) = some ('"' :: (t ++ ['"'])) :=
        Text.afterBlanks?_space (by simp [isBlank])
      have hcut : Text.cut? ['"'] (t ++ ['"']) = some (t, []) := Text.cut?_append (h t rfl)
      have hquote : Text.after? ['"'] ('"' :: (t ++ ['"'])) = some (t ++ ['"']) := rfl
      rw [Drawing.rowComment]
      simp only [hblanks, bind, Option.bind, hquote, hcut]

/-- A key is read as that, and a comment is not. -/
theorem rowKey_keyPart {key : Option Text} (h : ∀ k ∈ key, k ∈ Drawing.keyNames)
    (comment : Option Text) :
    Drawing.rowKey (keyPart key ++ commentPart comment) = (key, commentPart comment) := by
  cases key with
  | none =>
      have hread : ((Text.afterBlanks? (commentPart comment)).bind fun t =>
          Drawing.keyNames.findSome? fun k => (Text.after? k t).map fun rest => (k, rest))
          = none := by
        cases comment with
        | none => rfl
        | some t =>
            have hblanks : Text.afterBlanks? (commentPart (some t))
                = some ('"' :: (t ++ ['"'])) := Text.afterBlanks?_space (by simp [isBlank])
            rw [hblanks]
            rfl
      rw [keyPart, Option.elim_none, List.nil_append, Drawing.rowKey, hread]
  | some k =>
      have hfound : ∀ k ∈ Drawing.keyNames, ∀ s : Text,
          (∀ c ∈ (k ++ s).head?, isBlank c = false)
            ∧ (Drawing.keyNames.findSome? fun name =>
                (Text.after? name (k ++ s)).map fun rest => (name, rest)) = some (k, s) := by
        intro k hk s
        simp only [Drawing.keyNames, List.mem_cons, List.not_mem_nil, or_false] at hk
        rcases hk with rfl | rfl | rfl
        · exact ⟨by simp [isBlank], rfl⟩
        · exact ⟨by simp [isBlank], rfl⟩
        · exact ⟨by simp [isBlank], rfl⟩
      obtain ⟨hblank, hkey⟩ := hfound k (h k rfl) (commentPart comment)
      rw [keyPart, Option.elim_some, List.cons_append, Drawing.rowKey,
        Text.afterBlanks?_space hblank, Option.bind_some, hkey]

/-- A row is read as it is written. -/
theorem PlainRow.ofLine?_rowLine {row : Row} (h : PlainRow row) :
    Row.ofLine? (rowLine row) = some row := by
  have hstop : ∀ c ∈ (keyPart row.key ++ commentPart row.comment).head?,
      (!isBlank c) = false := by
    unfold keyPart commentPart
    cases row.key <;> cases row.comment <;> simp [isBlank]
  have hsecond : ∀ c ∈ row.second, (!isBlank c) = true := by
    intro c hc
    rw [h.unblank c hc]
    rfl
  have hblank : ∀ c ∈ (row.second ++ (keyPart row.key ++ commentPart row.comment)).head?,
      isBlank c = false := by
    intro c hc
    cases hrow : row.second with
    | nil => exact absurd hrow h.second
    | cons d s =>
        rw [hrow] at hc
        obtain rfl : d = c := by simpa using hc
        exact h.unblank d (hrow ▸ List.mem_cons_self)
  have hident : ident? (rowLine row)
      = some (row.first,
          ' ' :: (row.second ++ (keyPart row.key ++ commentPart row.comment))) := by
    rw [rowLine_eq]
    exact ident?_append h.first (by simp [isIdentChar])
  rw [Row.ofLine?, hident]
  simp only [bind, Option.bind, Text.afterBlanks?_space hblank]
  rw [Text.takeWhile_append_eq hsecond hstop, Text.dropWhile_append_eq hsecond hstop,
    rowKey_keyPart h.key]
  simp only [rowComment_commentPart h.comment]
  rw [guard_of ⟨h.second, trivial⟩]

-- =============================================================== blocks

/-- The start of a block is read as that. -/
theorem blockStart?_blockLine {name : Text} (hname : isIdentifier name = true) :
    Drawing.blockStart? (blockLine name) = some name := by
  rw [Drawing.blockStart?, blockLine, ident?_append hname (by simp [isIdentChar])]
  rfl

-- ======================================================== relationships

/-- A label without quotes is spelled as it is or between quotes, and as
it is if it is empty. -/
theorem labelSpelling_eq {label : Text} (hlabel : '"' ∉ label) :
    labelSpelling label = label
      ∨ labelSpelling label = '"' :: (label ++ ['"']) ∧ label ≠ [] := by
  have hhead : label.head? ≠ some '"' := fun h => hlabel (List.mem_of_head? h)
  unfold labelSpelling
  cases label with
  | nil => exact .inl rfl
  | cons c s =>
      simp only [hhead, decide_false, Bool.false_or]
      split
      next => exact .inl rfl
      next => exact .inr ⟨rfl, by simp⟩

theorem peel_eq_self {label : Text} (htrim : trim label = label) (hlabel : '"' ∉ label) :
    Text.peel label = label := by
  rw [Text.peel, htrim]
  split
  next => exact absurd List.mem_cons_self hlabel
  next => rfl

theorem peel_quoted (label : Text) : Text.peel ('"' :: (label ++ ['"'])) = label := by
  rw [Text.peel, Text.trim_quoted]
  simp

/-- A label is read as it is, however it is spelled. -/
theorem relationLabel?_labelPart {label : Text} (htrim : trim label = label)
    (hlabel : '"' ∉ label) :
    Drawing.relationLabel? (labelPart (labelSpelling label)) = some label := by
  have hread : ∀ s : Text, s ≠ [] → trim s = s →
      Drawing.relationLabel? (labelPart s) = some (Text.peel s) := by
    intro s hs hst
    have hblank := (Text.trim_eq_self_iff.1 hst).1
    have hpart : labelPart s = ' ' :: ':' :: ' ' :: s := by
      cases s with
      | nil => exact absurd rfl hs
      | cons c s => rfl
    have hcolon : Text.trimLeft (' ' :: ':' :: ' ' :: s) = ':' :: ' ' :: s := rfl
    have hafter : Text.after? [':'] (':' :: ' ' :: s) = some (' ' :: s) := rfl
    rw [hpart, Drawing.relationLabel?]
    · simp only [hcolon, hafter, bind, Option.bind]
      rw [Text.trimLeft_space hblank]
      rw [guard_of hs]
    · simp
  rcases labelSpelling_eq hlabel with h | ⟨h, hne⟩
  · rw [h]
    by_cases hne : label = []
    · rw [hne]
      rfl
    · rw [hread label hne htrim, peel_eq_self htrim hlabel]
  · rw [h, hread _ (by simp) (Text.trim_quoted label), peel_quoted]

theorem isBlank_head_spelling (op : Cardinality) (s : Text) :
    ∀ c ∈ (op.spelling ++ s).head?, isBlank c = false := by
  intro c hc
  obtain ⟨d, t, hop, hd⟩ := op.exists_cons_spelling
  rw [hop] at hc
  obtain rfl : d = c := by simpa using hc
  exact hd

/-- A relationship is read as it is written. -/
theorem PlainRelation.ofLine?_relationLine {r : Relation} (h : PlainRelation r) :
    Relation.ofLine? (relationLine r.left r.op r.right (labelSpelling r.label)) = some r := by
  have hstop : ∀ c ∈ (labelPart (labelSpelling r.label)).head?, isIdentChar c = false := by
    unfold labelPart
    split <;> simp [isIdentChar]
  rw [relationLine_eq, Relation.ofLine?,
    ident?_append h.left (by simp [isIdentChar])]
  simp only [bind, Option.bind, Text.afterBlanks?_space (isBlank_head_spelling _ _),
    Cardinality.read?_spelling, Text.afterBlanks?_space (isBlank_head_identifier h.right _),
    ident?_append h.right hstop, relationLabel?_labelPart h.trimmed h.label]

/-- A relationship is not read as the start of a block. -/
theorem PlainRelation.blockStart?_relationLine {r : Relation} (h : PlainRelation r) :
    Drawing.blockStart? (relationLine r.left r.op r.right (labelSpelling r.label)) = none := by
  obtain ⟨c, t, hop, hc⟩ := r.op.exists_cons_spelling
  rw [relationLine_eq, Drawing.blockStart?,
    ident?_append h.left (by simp [isIdentChar])]
  simp only [bind, Option.bind]
  rw [Text.trimLeft_space (isBlank_head_spelling _ _)]
  have hrest : ¬ r.op.spelling ++ ' ' :: (r.right ++ labelPart (labelSpelling r.label))
      = ['{'] := by
    rw [hop]
    simp
  rw [guard_of_not hrest]

-- ============================================================ the reading

/-- A drawing with one more entry. -/
def Entry.addTo (d : ErDrawing) : Entry → ErDrawing
  | block name rows => rows.foldl (fun d row => d.addRow name row) (d.mention name)
  | relation r => d.addRelation r

/-- The lines of a block up to its end are read row by row. -/
theorem readLines_rows {name : Text} {rows : List Row} (hrows : ∀ row ∈ rows, PlainRow row)
    (rest : List Text) (n : Nat) (d : ErDrawing) :
    d.readLines (some name) (number n (rows.map rowLine ++ ['}'] :: rest))
      = (rows.foldl (fun d row => d.addRow name row) d).readLines none
          (number (n + rows.length + 1) rest) := by
  induction rows generalizing n d with
  | nil =>
      rw [List.map_nil, List.nil_append, number_cons, ErDrawing.readLines,
        ErDrawing.readLine, if_pos rfl]
      rfl
  | cons row rows ih =>
      have hrow := hrows row List.mem_cons_self
      have hend : rowLine row ≠ ['}'] := by
        intro h
        have hread := hrow.ofLine?_rowLine
        have hbrace : Row.ofLine? ['}'] = none := by decide
        rw [h, hbrace] at hread
        cases hread
      rw [List.map_cons, List.cons_append, number_cons, ErDrawing.readLines,
        ErDrawing.readLine, if_neg hend, hrow.ofLine?_rowLine]
      simp only [bind, Except.bind]
      rw [ih fun row h => hrows row (List.mem_cons_of_mem _ h), List.foldl_cons,
        List.length_cons]
      congr 2
      omega

/-- The run lemma: the lines of entries are read entry by entry. -/
theorem readLines_lines {es : List Entry} (hes : ∀ e ∈ es, e.Plain) (n : Nat)
    (d : ErDrawing) :
    d.readLines none (number n (es.flatMap Entry.lines)) = .ok (es.foldl Entry.addTo d) := by
  induction es generalizing n d with
  | nil => rfl
  | cons e es ih =>
      have hrest := ih fun e h => hes e (List.mem_cons_of_mem _ h)
      have he := hes e List.mem_cons_self
      cases e with
      | block name rows =>
          obtain ⟨hname, hrows⟩ := he
          rw [List.flatMap_cons, Entry.lines, List.cons_append, List.append_assoc,
            List.singleton_append, number_cons, ErDrawing.readLines, ErDrawing.readLine,
            blockStart?_blockLine hname]
          simp only [bind, Except.bind]
          rw [readLines_rows hrows, hrest]
          rfl
      | relation r =>
          have hr : PlainRelation r := he
          rw [List.flatMap_cons, Entry.lines, List.singleton_append, number_cons,
            ErDrawing.readLines, ErDrawing.readLine, hr.blockStart?_relationLine,
            hr.ofLine?_relationLine]
          simp only [bind, Except.bind]
          rw [hrest]
          rfl

-- ========================================================== the picture

/-- The entities with these names, in the order of first mention. -/
def entitiesFor (names : List Text) (rows : Text → List Row) : List Drawing.Entity :=
  names.eraseDups.map fun name => { name := name, rows := rows name }

/-- Mentioning an entity is one more mention of its name. -/
theorem mention_entitiesFor {names : List Text} {rows : Text → List Row} {name : Text}
    (hrows : name ∉ names → rows name = []) (relations : List Relation) :
    ErDrawing.mention { entities := entitiesFor names rows, relations := relations } name
      = { entities := entitiesFor (names ++ [name]) rows, relations := relations } := by
  have hany : (entitiesFor names rows).any (·.name = name) = true ↔ name ∈ names := by
    simp [entitiesFor, List.mem_eraseDups]
  unfold ErDrawing.mention
  by_cases h : name ∈ names
  · rw [if_pos (hany.2 h), entitiesFor, entitiesFor, eraseDups_concat, if_pos h]
  · rw [if_neg fun hmem => h (hany.1 hmem), entitiesFor, entitiesFor, eraseDups_concat,
      if_neg h, List.map_append, List.map_singleton, hrows h]

/-- Rows that are added one by one stand behind those that are there. -/
theorem foldl_addRow (name : Text) (rows : List Row) (d : ErDrawing) :
    rows.foldl (fun d row => d.addRow name row) d
      = { d with
          entities := d.entities.map fun e =>
            if e.name = name then { e with rows := e.rows ++ rows } else e } := by
  induction rows generalizing d with
  | nil => simp
  | cons row rows ih =>
      rw [List.foldl_cons, ih, ErDrawing.addRow, List.map_map]
      congr 1
      refine List.map_congr_left fun e _ => ?_
      by_cases h : e.name = name
      · simp [h]
      · simp [h]

/-- An entry has rows for no entity but those that it mentions. -/
theorem Entry.rowsOf_eq_nil {es : List Entry} {name : Text} (h : name ∉ es.flatMap names) :
    es.flatMap (rowsOf name) = [] := by
  rw [List.flatMap_eq_nil_iff]
  intro e he
  cases e with
  | block entity rows =>
      have hne : ¬ entity = name := by
        rintro rfl
        exact h (List.mem_flatMap.2 ⟨_, he, List.mem_singleton.2 rfl⟩)
      exact if_neg hne
  | relation r => rfl

theorem Entry.picture_eq (es : List Entry) :
    picture es
      = { entities := entitiesFor (es.flatMap names) fun name => es.flatMap (rowsOf name)
          relations := es.filterMap relation? } := rfl

/-- The step lemma: one more entry, added to the picture. -/
theorem Entry.addTo_picture (es : List Entry) (e : Entry) :
    Entry.addTo (picture es) e = picture (es ++ [e]) := by
  have hnil : ∀ name, name ∉ es.flatMap names → es.flatMap (rowsOf name) = [] :=
    fun name h => rowsOf_eq_nil h
  rw [picture_eq, picture_eq, List.flatMap_append, List.filterMap_append]
  cases e with
  | block name rows =>
      rw [addTo, mention_entitiesFor (hnil name), foldl_addRow]
      congr 1
      · rw [entitiesFor, entitiesFor, List.map_map]
        refine List.map_congr_left fun other _ => ?_
        rw [List.flatMap_append, List.flatMap_singleton, rowsOf]
        by_cases h : other = name
        · simp [h]
        · simp [h, Ne.symm h]
      · simp [relation?]
  | relation r =>
      rw [addTo, ErDrawing.addRelation, mention_entitiesFor (hnil r.left),
        mention_entitiesFor fun h => hnil r.right fun hmem => h (List.mem_append_left _ hmem)]
      simp [names, rowsOf, relation?]

/-- Entries that are added one after the other make the picture. -/
theorem Entry.foldl_addTo (es : List Entry) : es.foldl Entry.addTo {} = picture es := by
  have hfrom : ∀ done, es.foldl Entry.addTo (picture done) = picture (done ++ es) := by
    induction es with
    | nil =>
        intro done
        rw [List.append_nil]
        rfl
    | cons e es ih =>
        intro done
        rw [List.foldl_cons, addTo_picture, ih, List.append_assoc, List.singleton_append]
  exact hfrom []

-- ========================================================== the diagram

/-- A line of which nothing is lost when a diagram is cut into lines. -/
structure CleanLine (line : Text) : Prop where
  trimmed : trim line = line
  spoken : isInert line = false
  newline : '\n' ∉ line

theorem cleanLine_blockLine {name : Text} (hname : isIdentifier name = true) :
    CleanLine (blockLine name) where
  trimmed := Text.trim_between (Naming.isIdentChar_of_isIdentifier hname).1
    (trim_identifier hname) (by decide) (by decide) [' ']
  spoken := isInert_identifier_append hname _
  newline := by simp [blockLine, newline_not_mem_identifier hname]

theorem PlainRow.cleanLine_rowLine {row : Row} (h : PlainRow row) :
    CleanLine (rowLine row) where
  trimmed := by
    -- a row ends with its second column, its key or its comment
    have hbetween : ∀ m t : Text, t ≠ [] → trim t = t →
        trim (row.first ++ (m ++ t)) = row.first ++ (m ++ t) :=
      fun m t ht htt => Text.trim_between (Naming.isIdentChar_of_isIdentifier h.first).1
        (trim_identifier h.first) ht htt m
    have hkey : ∀ k ∈ Drawing.keyNames, k ≠ [] ∧ trim k = k := by decide
    rw [rowLine_eq]
    cases hcomment : row.comment with
    | none =>
        cases hrow : row.key with
        | none =>
            have hlast := hbetween [' '] row.second h.second
              (Text.trim_eq_self_of_forall h.unblank)
            simpa [keyPart, commentPart] using hlast
        | some k =>
            obtain ⟨hne, htrim⟩ := hkey k (h.key k hrow)
            have hlast := hbetween (' ' :: (row.second ++ [' '])) k hne htrim
            simpa [keyPart, commentPart] using hlast
    | some t =>
        have hlast := hbetween (' ' :: (row.second ++ keyPart row.key ++ [' ']))
          ('"' :: (t ++ ['"'])) (by simp) (Text.trim_quoted t)
        simpa [commentPart] using hlast
  spoken := by
    rw [rowLine_eq]
    exact isInert_identifier_append h.first _
  newline := by
    have hsecond : '\n' ∉ row.second := newline_not_mem (h.legal _ List.mem_cons_self)
    have hkey : '\n' ∉ keyPart row.key := by
      have hall : ∀ k ∈ Drawing.keyNames, '\n' ∉ k := by decide
      cases hrow : row.key with
      | none => exact List.not_mem_nil
      | some k => simp [keyPart, hall k (h.key k hrow)]
    have hcomment : '\n' ∉ commentPart row.comment := by
      cases hrow : row.comment with
      | none => exact List.not_mem_nil
      | some t =>
          have ht : '\n' ∉ t := newline_not_mem (h.legal t (by simp [hrow]))
          simp [commentPart, ht]
    rw [rowLine_eq]
    simp [newline_not_mem_identifier h.first, hsecond, hkey, hcomment]

theorem PlainRelation.cleanLine_relationLine {r : Relation} (h : PlainRelation r) :
    CleanLine (relationLine r.left r.op r.right (labelSpelling r.label)) where
  trimmed := by
    obtain ⟨hleft, -⟩ := Naming.isIdentChar_of_isIdentifier h.left
    obtain ⟨hright, -⟩ := Naming.isIdentChar_of_isIdentifier h.right
    have hbetween : ∀ m t : Text, t ≠ [] → trim t = t →
        trim (r.left ++ (m ++ t)) = r.left ++ (m ++ t) :=
      fun m t ht htt => Text.trim_between hleft (trim_identifier h.left) ht htt m
    have hspelling : trim (labelSpelling r.label) = labelSpelling r.label := by
      rcases labelSpelling_eq h.label with hlabel | ⟨hlabel, -⟩
      · rw [hlabel, h.trimmed]
      · rw [hlabel, Text.trim_quoted]
    rw [relationLine_eq]
    cases hlabel : labelSpelling r.label with
    | nil =>
        have hlast := hbetween (' ' :: (r.op.spelling ++ [' '])) r.right hright
          (trim_identifier h.right)
        simpa [labelPart] using hlast
    | cons c s =>
        have hlast := hbetween
          (' ' :: (r.op.spelling ++ ' ' :: (r.right ++ [' ', ':', ' ']))) (c :: s) (by simp)
          (hlabel ▸ hspelling)
        simpa [labelPart] using hlast
  spoken := by
    rw [relationLine_eq]
    exact isInert_identifier_append h.left _
  newline := by
    have hop : '\n' ∉ r.op.spelling :=
      fun hmem => absurd (Cardinality.mem_of_mem_spelling hmem) (by decide)
    have hnone : '\n' ∉ r.label := newline_not_mem h.legal
    have hlabel : '\n' ∉ labelPart (labelSpelling r.label) := by
      have hspelling : '\n' ∉ labelSpelling r.label := by
        rcases labelSpelling_eq h.label with hlabel | ⟨hlabel, -⟩
        · rw [hlabel]
          exact hnone
        · simp [hlabel, hnone]
      unfold labelPart
      split
      next => exact List.not_mem_nil
      next => simp [hspelling]
    rw [relationLine_eq]
    simp [newline_not_mem_identifier h.left, newline_not_mem_identifier h.right, hop, hlabel]

theorem Entry.Plain.cleanLine {e : Entry} (he : e.Plain) :
    ∀ line ∈ e.lines, CleanLine line := by
  intro line hline
  cases e with
  | block name rows =>
      obtain ⟨hname, hrows⟩ := he
      rcases List.mem_cons.1 hline with rfl | hline
      · exact cleanLine_blockLine hname
      · rcases List.mem_append.1 hline with hline | hline
        · obtain ⟨row, hrow, rfl⟩ := List.mem_map.1 hline
          exact (hrows row hrow).cleanLine_rowLine
        · obtain rfl := List.mem_singleton.1 hline
          exact ⟨by decide, by decide, by decide⟩
  | relation r =>
      have hr : PlainRelation r := he
      obtain rfl := List.mem_singleton.1 hline
      exact hr.cleanLine_relationLine

/-- Clean lines are the lines of their text. -/
theorem contentLines_joinLines {ls : List Text} (hne : ls ≠ [])
    (hls : ∀ line ∈ ls, CleanLine line) :
    contentLines (Text.joinLines ls) = number 1 ls := by
  have hlines : Text.numberedLines (Text.joinLines ls) = number 1 ls := by
    unfold Text.numberedLines Text.lines Text.joinLines
    rw [List.splitOn_intercalate _ (fun line h => (hls line h).newline) hne]
    rfl
  have hclean : ∀ p ∈ number 1 ls, CleanLine p.2 := by
    intro p hp
    obtain ⟨⟨line, n⟩, hmem, rfl⟩ := List.mem_map.1 hp
    exact hls line (List.fst_mem_of_mem_zipIdx hmem)
  have hmap : (number 1 ls).map (fun p => (p.1, trim p.2)) = number 1 ls := by
    rw [← List.map_id (number 1 ls), List.map_map]
    refine List.map_congr_left fun p hp => ?_
    exact Prod.ext rfl (hclean p hp).trimmed
  rw [contentLines, hlines]
  show ((number 1 ls).map fun p => (p.1, trim p.2)).filter (fun p => !isInert p.2) = _
  rw [hmap, List.filter_eq_self]
  intro p hp
  show (!isInert p.2) = true
  rw [(hclean p hp).spoken]
  rfl

theorem Entry.contentLines_diagram {es : List Entry} (hes : ∀ e ∈ es, e.Plain) :
    contentLines (diagram es)
      = (1, "erDiagram".toList) :: number 2 (es.flatMap Entry.lines) := by
  rw [← number_cons]
  refine contentLines_joinLines (by simp) ?_
  intro line hline
  rcases List.mem_cons.1 hline with rfl | hline
  · exact ⟨by decide, by decide, by decide⟩
  · obtain ⟨e, he, hline⟩ := List.mem_flatMap.1 hline
    exact (hes e he).cleanLine line hline

/-- The diagram of entries shows their picture. -/
theorem Entry.ofDiagram_diagram {es : List Entry} (hes : ∀ e ∈ es, e.Plain) :
    ErDrawing.ofDiagram (diagram es) = .ok (picture es) := by
  have hstart : Drawing.startsErDiagram "erDiagram".toList = true := by decide
  rw [ErDrawing.ofDiagram, contentLines_diagram hes]
  simp only [hstart, if_true]
  rw [readLines_lines hes, foldl_addTo]

end FreeLabel.Er
