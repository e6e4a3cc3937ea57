/-
The direction that a source asks for, read off its lines.

# Where directions stand

A direction is given by a declaration or by a statement of its own, and
both are told by their spelling: blanks, the word in any letter case,
blanks, and the name of the direction, with nothing but blanks behind it
(`declaration?_spelled`, `directionStatement?_spelled`). If anything else
comes behind the name, the line is neither. Since a word is read in any
letter case but a blank only as itself, no word holds one
(`isBlank_of_fold`), and so a spelled line is trimmed just before the word
and just behind the name.

# The last one counts

The loop over the lines keeps the direction last given by a declaration
and the one last given by a statement. What a line gives does not depend
on the lines before it, so both are the last of the directions that the
lines give, in their order (`Reading.declared_after`,
`Reading.stated_after`).
-/
import FreeLabel.Proofs.Pass
import FreeLabel.Proofs.Text.Lines

namespace FreeLabel

open Text (trim trimLeft trimRight)

-- ================================================================ letters

/-- What is read as a word without blanks holds none. -/
theorem isBlank_of_fold {read word : Text} (hread : read.map foldCase = word)
    (hword : ∀ c ∈ word, isBlank c = false) : ∀ c ∈ read, isBlank c = false := by
  intro c hc
  rw [Bool.eq_false_iff]
  intro hblank
  have hmem : foldCase c ∈ word := hread ▸ List.mem_map_of_mem hc
  rw [foldCase_of_isBlank hblank] at hmem
  rw [hword c hmem] at hblank
  cases hblank

theorem isBlank_of_isGap {c : Char} (h : Text.isGap c = true) : isBlank c = true := by
  unfold Text.isGap at h
  rw [Bool.or_eq_true, beq_iff_eq, beq_iff_eq] at h
  rcases h with rfl | rfl <;> decide

namespace Text

variable {a b s : Text}

-- =============================================================== trimming

theorem trimRight_eq_nil_iff : trimRight s = [] ↔ ∀ c ∈ s, isBlank c = true := by
  constructor
  · intro h c hc
    have hs := trimRight_append s
    rw [h, List.nil_append] at hs
    rw [← hs, List.mem_reverse] at hc
    exact List.all_eq_true.1 List.all_takeWhile c hc
  · exact trimRight_append_eq (s := []) (by simp)

/-- What stands behind a text that ends with no blank is trimmed by
itself. -/
theorem trimRight_append_right (ha : ∀ c ∈ a, isBlank c = false) :
    trimRight (a ++ b) = a ++ trimRight b := by
  have hlast : ∀ c ∈ a.reverse.head?, isBlank c = false :=
    fun c hc => ha c (List.mem_reverse.1 (List.mem_of_head? hc))
  unfold trimRight
  rw [List.reverse_append, List.dropWhile_append]
  split
  next h =>
    rw [List.isEmpty_iff.1 h, dropWhile_eq_self hlast, List.reverse_reverse]
    exact (List.append_nil a).symm
  next => rw [List.reverse_append, List.reverse_reverse]

/-- Blanks before what is trimmed to something stay. -/
theorem trimRight_append_left (hb : trimRight b ≠ []) : trimRight (a ++ b) = a ++ trimRight b := by
  unfold trimRight at hb ⊢
  rw [List.reverse_append, List.dropWhile_append, if_neg (by simpa using hb),
    List.reverse_append, List.reverse_reverse]

/-- A line that begins with a word is trimmed before the word. -/
theorem trim_word {word rest : Text} (ha : ∀ c ∈ a, isBlank c = true) (hne : word ≠ [])
    (hword : ∀ c ∈ word, isBlank c = false) :
    trim (a ++ (word ++ rest)) = word ++ trimRight rest := by
  have hhead : ∀ c ∈ (word ++ rest).head?, isBlank c = false := by
    cases word with
    | nil => exact absurd rfl hne
    | cons c word => simpa using hword c List.mem_cons_self
  rw [trim, trimLeft, dropWhile_append_eq ha hhead, trimRight_append_right hword]

-- ============================================================== scanners

/-- What is read as a word is skipped. -/
theorem afterAnyCase?_append {read word : Text} (h : read.map foldCase = word) (rest : Text) :
    afterAnyCase? word (read ++ rest) = some rest :=
  afterAnyCase?_eq_some_iff.2 ⟨read, rfl, h⟩

theorem afterBlanks?_append (hne : a ≠ []) (ha : ∀ c ∈ a, isBlank c = true)
    (hb : ∀ c ∈ b.head?, isBlank c = false) : afterBlanks? (a ++ b) = some b := by
  cases a with
  | nil => exact absurd rfl hne
  | cons c a =>
      rw [List.cons_append, afterBlanks?, if_pos (ha c List.mem_cons_self), trimLeft,
        dropWhile_append_eq (fun d hd => ha d (List.mem_cons_of_mem c hd)) hb]

/-- Spaces and tabs that are skipped, and what they stand before. -/
theorem exists_of_afterGap? (h : afterGap? s = some b) :
    ∃ gap : Text, gap ≠ [] ∧ (∀ c ∈ gap, isGap c = true) ∧ s = gap ++ b := by
  unfold afterGap? at h
  split at h
  next c rest =>
    split at h
    next hc =>
      cases h
      refine ⟨c :: rest.takeWhile isGap, by simp, ?_, ?_⟩
      · intro d hd
        rcases List.mem_cons.1 hd with rfl | hd
        · exact hc
        · exact List.all_eq_true.1 List.all_takeWhile d hd
      · rw [List.cons_append, skipGap, List.takeWhile_append_dropWhile]
    next => cases h
  next => cases h

theorem exists_skipGap (s : Text) :
    ∃ gap : Text, (∀ c ∈ gap, isGap c = true) ∧ s = gap ++ skipGap s :=
  ⟨s.takeWhile isGap, List.all_eq_true.1 List.all_takeWhile,
    List.takeWhile_append_dropWhile.symm⟩

end Text

-- ================================================================== names

namespace Direction

theorem isBlank_smallName (d : Direction) : ∀ c ∈ d.smallName, isBlank c = false := by
  cases d <;> exact Text.forall_mem_of_all (by decide)

theorem length_smallName (d : Direction) : d.smallName.length = 2 := by
  cases d <;> rfl

theorem smallName_injective {d e : Direction} (h : d.smallName = e.smallName) : d = e := by
  revert h
  cases d <;> cases e <;> decide

/-- No name begins another one, so a name is read whatever follows it. -/
theorem read?_eq_some_iff {s rest : Text} {d : Direction} :
    read? s = some (d, rest) ↔ ∃ name, s = name ++ rest ∧ name.map foldCase = d.smallName := by
  constructor
  · intro h
    obtain ⟨e, -, he⟩ := List.exists_of_findSome?_eq_some h
    obtain ⟨left, hleft, heq⟩ := Option.map_eq_some_iff.1 he
    cases heq
    exact Text.afterAnyCase?_eq_some_iff.1 hleft
  · rintro ⟨name, rfl, hname⟩
    have hother : ∀ e : Direction, e ≠ d →
        Text.afterAnyCase? e.smallName (name ++ rest) = none := by
      intro e he
      cases hread : Text.afterAnyCase? e.smallName (name ++ rest) with
      | none => rfl
      | some left =>
          obtain ⟨name', hsplit, hname'⟩ := Text.afterAnyCase?_eq_some_iff.1 hread
          have hsame : name.length = name'.length := by
            have hlength := congrArg List.length hname
            have hlength' := congrArg List.length hname'
            rw [List.length_map, length_smallName] at hlength hlength'
            exact hlength.trans hlength'.symm
          obtain ⟨rfl, -⟩ := List.append_inj hsplit hsame
          exact absurd (smallName_injective (hname'.symm.trans hname)) he
    have hread : Text.afterAnyCase? d.smallName (name ++ rest) = some rest :=
      Text.afterAnyCase?_append hname rest
    unfold read?
    cases d <;> simp [all, hread, hother]

theorem ofName?_eq_some_iff {s : Text} {d : Direction} :
    ofName? s = some d ↔ s.map foldCase = d.smallName := by
  have hread : ofName? s = some d ↔ read? s = some (d, []) := by
    unfold ofName?
    split
    next e h => simp [h]
    next h =>
      refine ⟨nofun, fun hread => absurd hread (h d)⟩
  rw [hread, read?_eq_some_iff]
  simp

/-- A name with something behind it is no name. -/
theorem ofName?_append {name rest : Text} {d : Direction}
    (hname : name.map foldCase = d.smallName) (hrest : rest ≠ []) :
    ofName? (name ++ rest) = none := by
  have hread : read? (name ++ rest) = some (d, rest) := read?_eq_some_iff.2 ⟨name, rfl, hname⟩
  unfold ofName?
  rw [hread]
  cases rest with
  | nil => exact absurd rfl hrest
  | cons c rest => rfl

/-- The name of a direction is read as that direction. -/
theorem map_foldCase_name (d : Direction) : d.name.map foldCase = d.smallName := by
  cases d <;> decide

end Direction

namespace Er

-- ============================================================= spellings

section Spelled

variable {blanks word gap name rest : Text} {d : Direction}

theorem isBlank_direction : ∀ c ∈ "direction".toList, isBlank c = false :=
  Text.forall_mem_of_all (by decide)

theorem isBlank_erWord : ∀ c ∈ erWord, isBlank c = false :=
  Text.forall_mem_of_all (by decide)

theorem ne_nil_of_fold {read word : Text} (hread : read.map foldCase = word) (hne : word ≠ []) :
    read ≠ [] := by
  rintro rfl
  exact hne hread.symm

/-- What stands behind a word is a direction if it is a name behind blanks,
and then nothing but blanks. -/
theorem ofName?_afterBlanks? (hne : gap ≠ []) (hgap : ∀ c ∈ gap, isBlank c = true)
    (hname : name.map foldCase = d.smallName) :
    (Text.afterBlanks? (trimRight (gap ++ (name ++ rest)))).bind Direction.ofName?
      = if trimRight rest = [] then some d else none := by
  have hletters : ∀ c ∈ name, isBlank c = false := isBlank_of_fold hname d.isBlank_smallName
  have hnonempty : name ≠ [] := ne_nil_of_fold hname (by cases d <;> decide)
  have hkept : trimRight (name ++ rest) = name ++ trimRight rest :=
    Text.trimRight_append_right hletters
  have hsplit : trimRight (gap ++ (name ++ rest)) = gap ++ (name ++ trimRight rest) := by
    rw [Text.trimRight_append_left (by simp [hkept, hnonempty]), hkept]
  have hhead : ∀ c ∈ (name ++ trimRight rest).head?, isBlank c = false := by
    cases name with
    | nil => exact absurd rfl hnonempty
    | cons c name => simpa using hletters c List.mem_cons_self
  rw [hsplit, Text.afterBlanks?_append hne hgap hhead, Option.bind_some]
  split
  next h =>
    rw [h, List.append_nil]
    exact Direction.ofName?_eq_some_iff.2 hname
  next h => exact Direction.ofName?_append hname h

/-- A line that is spelled like a statement of the direction is one if only
blanks come behind the name. -/
theorem directionStatement?_spelled (hblanks : ∀ c ∈ blanks, isBlank c = true)
    (hword : word.map foldCase = "direction".toList) (hne : gap ≠ [])
    (hgap : ∀ c ∈ gap, isBlank c = true) (hname : name.map foldCase = d.smallName) :
    directionStatement? (trim (blanks ++ (word ++ (gap ++ (name ++ rest)))))
      = if trimRight rest = [] then some d else none := by
  rw [Text.trim_word hblanks (ne_nil_of_fold hword (by decide))
    (isBlank_of_fold hword isBlank_direction), ← ofName?_afterBlanks? hne hgap hname]
  unfold directionStatement?
  rw [Text.afterAnyCase?_append hword]
  rfl

/-- A line that is spelled like a declaration with a direction is one if
only blanks come behind the name. -/
theorem declaration?_spelled (hblanks : ∀ c ∈ blanks, isBlank c = true)
    (hword : word.map foldCase = erWord) (hne : gap ≠ [])
    (hgap : ∀ c ∈ gap, isBlank c = true) (hname : name.map foldCase = d.smallName) :
    declaration? (trim (blanks ++ (word ++ (gap ++ (name ++ rest)))))
      = if trimRight rest = [] then some (some d) else none := by
  have hread : (Text.afterBlanks? (trimRight (gap ++ (name ++ rest)))).bind Direction.ofName?
      = if trimRight rest = [] then some d else none := ofName?_afterBlanks? hne hgap hname
  rw [Text.trim_word hblanks (ne_nil_of_fold hword (by decide))
    (isBlank_of_fold hword isBlank_erWord)]
  have hsome : trimRight (gap ++ (name ++ rest)) ≠ [] := by
    intro hnil
    rw [Text.trimRight_eq_nil_iff] at hnil
    have hletters : ∀ c ∈ name, isBlank c = false := isBlank_of_fold hname d.isBlank_smallName
    cases name with
    | nil => cases d <;> cases hname
    | cons c name =>
        have hblank := hnil c (by simp)
        rw [hletters c List.mem_cons_self] at hblank
        cases hblank
  have hafter : Text.afterAnyCase? "erdiagram".toList (word ++ trimRight (gap ++ (name ++ rest)))
      = some (trimRight (gap ++ (name ++ rest))) := Text.afterAnyCase?_append hword _
  unfold declaration?
  rw [hafter]
  generalize trimRight (gap ++ (name ++ rest)) = t at hread hsome
  cases t with
  | nil => exact absurd rfl hsome
  | cons c t =>
      have hmap := congrArg (Option.map some) hread
      rw [Option.map_bind] at hmap
      refine Eq.trans ?_ (hmap.trans ?_)
      · rfl
      · split <;> rfl

/-- A line that holds the word alone declares a diagram without a
direction. -/
theorem declaration?_word (hblanks : ∀ c ∈ blanks, isBlank c = true)
    (hword : word.map foldCase = erWord) (hrest : ∀ c ∈ rest, isBlank c = true) :
    declaration? (trim (blanks ++ (word ++ rest))) = some none := by
  have hafter : Text.afterAnyCase? "erdiagram".toList (word ++ []) = some [] :=
    Text.afterAnyCase?_append hword []
  rw [Text.trim_word hblanks (ne_nil_of_fold hword (by decide))
    (isBlank_of_fold hword isBlank_erWord), Text.trimRight_eq_nil_iff.2 hrest]
  unfold declaration?
  rw [hafter]
  rfl

end Spelled

-- =================================================== one kind of line only

/-- What a line that begins with a word begins with. -/
theorem head_of_afterAnyCase? {w : Char} {word s rest : Text}
    (h : Text.afterAnyCase? (w :: word) s = some rest) : s.head?.map foldCase = some w := by
  obtain ⟨read, rfl, hread⟩ := Text.afterAnyCase?_eq_some_iff.1 h
  cases read with
  | nil => cases hread
  | cons c read =>
      obtain ⟨hc, -⟩ := List.cons.inj hread
      exact congrArg some hc

theorem head_of_declaration? {t : Text} {d : Option Direction} (h : declaration? t = some d) :
    t.head?.map foldCase = some 'e' := by
  unfold declaration? at h
  obtain ⟨rest, hrest, -⟩ := Option.bind_eq_some_iff.1 h
  exact head_of_afterAnyCase? hrest

theorem head_of_directionStatement? {t : Text} {d : Direction}
    (h : directionStatement? t = some d) : t.head?.map foldCase = some 'd' := by
  unfold directionStatement? at h
  obtain ⟨rest, hrest, -⟩ := Option.bind_eq_some_iff.1 h
  exact head_of_afterAnyCase? hrest

/-- A statement of the direction declares nothing. -/
theorem declaration?_of_directionStatement? {t : Text} {d : Direction}
    (h : directionStatement? t = some d) : declaration? t = none := by
  cases hdeclaration : declaration? t with
  | none => rfl
  | some e =>
      have hhead := (head_of_declaration? hdeclaration).symm.trans (head_of_directionStatement? h)
      exact absurd hhead (by decide)

/-- What is inert gives no direction. -/
theorem of_isInert {t : Text} (h : isInert t = true) :
    declaration? t = none ∧ directionStatement? t = none := by
  have hhead : t.head?.map foldCase ≠ some 'e' ∧ t.head?.map foldCase ≠ some 'd' := by
    unfold isInert at h
    rcases Bool.or_eq_true_iff.1 h with h | h
    · rw [List.isEmpty_iff.1 h]
      decide
    · obtain ⟨rest, hrest⟩ := Option.isSome_iff_exists.1 h
      rw [Text.after?_eq_some_iff.1 hrest]
      show some (foldCase '%') ≠ some 'e' ∧ some (foldCase '%') ≠ some 'd'
      decide
  constructor
  · cases hdeclaration : declaration? t with
    | none => rfl
    | some d => exact absurd (head_of_declaration? hdeclaration) hhead.1
  · cases hstatement : directionStatement? t with
    | none => rfl
    | some d => exact absurd (head_of_directionStatement? hstatement) hhead.2

theorem classify_of_isInert {line : Text} (h : isInert (trim line) = true) (inBlock : Bool) :
    Line.classify inBlock line = .inert := by
  unfold Line.classify
  rw [if_pos h]

theorem classify_of_declaration? {line : Text} {d : Option Direction}
    (h : declaration? (trim line) = some d) (inBlock : Bool) :
    Line.classify inBlock line = .declaration d := by
  have hspeaks : ¬ isInert (trim line) = true := by
    intro hinert
    rw [(of_isInert hinert).1] at h
    cases h
  unfold Line.classify
  simp only [if_neg hspeaks, h]

theorem classify_of_directionStatement? {line : Text} {d : Direction}
    (h : directionStatement? (trim line) = some d) (inBlock : Bool) :
    Line.classify inBlock line = .direction d := by
  have hspeaks : ¬ isInert (trim line) = true := by
    intro hinert
    rw [(of_isInert hinert).2] at h
    cases h
  unfold Line.classify
  simp only [if_neg hspeaks, declaration?_of_directionStatement? h, h]

-- =============================================================== readings

/-- The directions that declarations give, in the order of the lines. -/
def declaredDirections (lines : List Text) : List Direction :=
  lines.filterMap fun line => (declaration? (trim line)).join

/-- The directions that statements give, in the order of the lines. -/
def statedDirections (lines : List Text) : List Direction :=
  lines.filterMap fun line => directionStatement? (trim line)

/-- What the members of a list give, at one of them. -/
theorem filterMap_append_cons {α β : Type} (f : α → Option β) (as : List α) (a : α)
    (bs : List α) :
    (as ++ a :: bs).filterMap f = as.filterMap f ++ ((f a).toList ++ bs.filterMap f) := by
  rw [List.filterMap_append]
  cases hgiven : f a with
  | none => rw [List.filterMap_cons_none hgiven]; rfl
  | some b => rw [List.filterMap_cons_some hgiven]; rfl

theorem declaredDirections_append_cons (before : List Text) (line : Text) (after : List Text) :
    declaredDirections (before ++ line :: after)
      = declaredDirections before
        ++ ((declaration? (trim line)).join.toList ++ declaredDirections after) :=
  filterMap_append_cons ..

theorem statedDirections_append_cons (before : List Text) (line : Text) (after : List Text) :
    statedDirections (before ++ line :: after)
      = statedDirections before
        ++ ((directionStatement? (trim line)).toList ++ statedDirections after) :=
  filterMap_append_cons ..

/-- What has been read after some more lines. -/
def Reading.after (r : Reading) (lines : List Text) : Reading :=
  lines.foldl (fun r line => r.next (Line.classify r.inBlock line)) r

/-- The step lemma: a line gives what it gives wherever it stands. -/
theorem Reading.next_classify (r : Reading) (line : Text) :
    (r.next (Line.classify r.inBlock line)).declared
        = (declaration? (trim line)).join.or r.declared
      ∧ (r.next (Line.classify r.inBlock line)).stated
        = (directionStatement? (trim line)).or r.stated := by
  cases hdeclaration : declaration? (trim line) with
  | some d =>
      have hstatement : directionStatement? (trim line) = none := by
        cases hstatement : directionStatement? (trim line) with
        | none => rfl
        | some e =>
            rw [declaration?_of_directionStatement? hstatement] at hdeclaration
            cases hdeclaration
      rw [classify_of_declaration? hdeclaration, hstatement]
      cases d <;> exact ⟨rfl, rfl⟩
  | none =>
      cases hstatement : directionStatement? (trim line) with
      | some d =>
          rw [classify_of_directionStatement? hstatement]
          exact ⟨rfl, rfl⟩
      | none =>
          have hother : (r.next (Line.classify r.inBlock line)).declared = r.declared
              ∧ (r.next (Line.classify r.inBlock line)).stated = r.stated := by
            generalize hkind : Line.classify r.inBlock line = kind
            unfold Line.classify at hkind
            simp only [hdeclaration, hstatement] at hkind
            -- a line of any other kind leaves both as they are
            repeat' split at hkind
            all_goals
              subst hkind
              exact ⟨rfl, rfl⟩
          exact hother

/-- What a loop keeps of one kind is the last that the lines give of it. -/
theorem foldl_last {α β γ : Type} {step : α → β → α} {kept : α → Option γ}
    {given : β → Option γ} (hstep : ∀ a b, kept (step a b) = (given b).or (kept a)) (a : α)
    (bs : List β) : kept (bs.foldl step a) = (bs.filterMap given).getLast?.or (kept a) := by
  induction bs generalizing a with
  | nil => rfl
  | cons b bs ih =>
      rw [List.foldl_cons, ih, hstep]
      cases hgiven : given b with
      | none => rw [List.filterMap_cons_none hgiven, Option.none_or]
      | some g =>
          rw [List.filterMap_cons_some hgiven, List.getLast?_cons, Option.some_or]
          cases (bs.filterMap given).getLast? <;> rfl

/-- The run lemma: the last direction that is given counts. -/
theorem Reading.declared_after (r : Reading) (lines : List Text) :
    (r.after lines).declared = (declaredDirections lines).getLast?.or r.declared :=
  @foldl_last _ _ _ _ Reading.declared _ (fun r line => (r.next_classify line).1) r lines

theorem Reading.stated_after (r : Reading) (lines : List Text) :
    (r.after lines).stated = (statedDirections lines).getLast?.or r.stated :=
  @foldl_last _ _ _ _ Reading.stated _ (fun r line => (r.next_classify line).2) r lines

theorem reading_of_translateLines {r last : Reading} {lines : List (Nat × Text)} {c d : Context}
    {outs : List Text} (h : translateLines r lines c = .ok (outs, last) d) :
    last = r.after (lines.map Prod.snd) := by
  induction lines generalizing r c outs with
  | nil =>
      cases h
      rfl
  | cons line lines ih =>
      rw [translateLines] at h
      obtain ⟨out, c', -, hrest⟩ := Pass.exists_of_bind_eq_ok h
      obtain ⟨⟨outs', last'⟩, d', hlines, hdone⟩ := Pass.exists_of_bind_eq_ok hrest
      cases hdone
      exact ih hlines

end Er

/-- What an entity-relationship source compiles to, after its lines. -/
theorem compile_er {source : Text} (hmode : Mode.ofSource source = .er) (strict : Bool)
    (padding : Int) :
    compile source strict padding
      = match Er.translateLines {} (Text.numberedLines source)
          { strict := strict, padding := padding } with
        | .ok (outs, last) c =>
          .ok
            { mode := .er, code := Text.joinLines outs, legend := c.legend
              direction := last.direction, diagnostics := c.diagnostics }
        | .error halt _ => .error halt := by
  unfold compile
  rw [hmode]
  simp only [translate, Er.translate, EStateM.run, Bind.bind, EStateM.bind]
  cases Er.translateLines {} (Text.numberedLines source)
      { strict := strict, padding := padding } <;> rfl

/-- The direction that an entity-relationship source asks for is the last
that a declaration gives, or else the last that a statement gives. -/
theorem direction_of_compile {source : Text} {strict : Bool} {padding : Int}
    {compiled : Compiled} (hmode : Mode.ofSource source = .er)
    (h : compile source strict padding = .ok compiled) :
    compiled.direction = (Er.declaredDirections (Text.lines source)).getLast?.or
      (Er.statedDirections (Text.lines source)).getLast? := by
  rw [compile_er hmode] at h
  split at h
  next outs last c hlines =>
    cases h
    obtain rfl := Er.reading_of_translateLines hlines
    show (Er.Reading.direction _) = _
    unfold Er.Reading.direction
    rw [Er.Reading.declared_after, Er.Reading.stated_after, Text.map_snd_numberedLines]
    simp
  next => cases h

end FreeLabel
