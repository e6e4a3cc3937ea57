/-
Fields between commas, taken apart and put together again.

# What can stand between commas

Whether a comma separates depends on all quotes before it on the line. But
a line is cut only where no quote is open, so the reading of a piece begins
outside quotes, as if nothing stood before it. So lists of pieces are known
by looking at each of them alone: all commas of a piece are quoted, and
each but the last closes its quotes (`Apart`). A line is taken apart into
such pieces, joining them gives the line back, and they are what the line
that they join to is taken apart into (`apart_pieces`,
`intercalate_pieces`, `pieces_intercalate`).

# Trimming

Blanks hold neither quotes nor commas. So pieces stay apart if blanks are
put around them, as by a separator that ends with a blank, or taken away,
as by trimming (`Apart.map_blanks`, `Apart.map_trim`). The last piece may
leave a quote open, and then it does so again.
-/
import FreeLabel.Er.Fields
import FreeLabel.Proofs.Text.Span
import Mathlib.Algebra.Ring.Parity

namespace FreeLabel.Er

open Text (trim)

-- ================================================================ quotes

/-- Whether a quote is open behind a text. `quoted` tells whether one is
open before it. -/
def quotedBehind (quoted : Bool) (s : Text) : Bool :=
  s.foldl (fun quoted c => if c = '"' then !quoted else quoted) quoted

/-- Whether every comma of a text stands between quotes. `quoted` tells
whether a quote is open before the text. -/
def CommasQuoted (quoted : Bool) (s : Text) : Prop :=
  ∀ before after, s = before ++ ',' :: after → quotedBehind quoted before = true

variable {quoted : Bool} {s : Text} {c : Char}

theorem quotedBehind_cons (quoted : Bool) (c : Char) (s : Text) :
    quotedBehind quoted (c :: s) = quotedBehind (if c = '"' then !quoted else quoted) s :=
  rfl

theorem quotedBehind_append (quoted : Bool) (a s : Text) :
    quotedBehind quoted (a ++ s) = quotedBehind (quotedBehind quoted a) s :=
  List.foldl_append

theorem quotedBehind_eq_self (hs : '"' ∉ s) : quotedBehind quoted s = quoted := by
  induction s with
  | nil => rfl
  | cons c s ih =>
      obtain ⟨hc, hs⟩ := not_or.1 (mt List.mem_cons.2 hs)
      rw [quotedBehind_cons, if_neg (Ne.symm hc)]
      exact ih hs

theorem quotedBehind_blanks {a : Text} (ha : ∀ c ∈ a, isBlank c = true) :
    quotedBehind quoted a = quoted :=
  quotedBehind_eq_self fun h => absurd (ha _ h) (by decide)

/-- A quote is open behind an odd number of quotes. -/
theorem quotedBehind_eq_true_iff (quoted : Bool) (s : Text) :
    quotedBehind quoted s = true ↔ (quoted = true ↔ Even (s.count '"')) := by
  induction s generalizing quoted with
  | nil => simp [quotedBehind]
  | cons c s ih =>
      rw [quotedBehind_cons, ih]
      by_cases hc : c = '"'
      · rw [if_pos hc, hc, List.count_cons_self, Nat.even_add_one]
        cases quoted <;> simp
      · rw [if_neg hc, List.count_cons_of_ne hc]

theorem commasQuoted_nil (quoted : Bool) : CommasQuoted quoted [] := by
  intro before after h
  exact absurd h (by simp)

/-- Commas are met one after the other, with the quotes before them. -/
theorem commasQuoted_cons_iff :
    CommasQuoted quoted (c :: s)
      ↔ (c = ',' → quoted = true) ∧ CommasQuoted (if c = '"' then !quoted else quoted) s := by
  constructor
  · intro h
    constructor
    · rintro rfl
      exact h [] s rfl
    · exact fun before after hs => h (c :: before) after (by rw [hs]; rfl)
  · rintro ⟨hc, hs⟩ before after h
    cases before with
    | nil => exact hc (List.cons.inj h).1
    | cons d before =>
        obtain ⟨rfl, hrest⟩ := List.cons.inj h
        exact hs before after hrest

instance decidableCommasQuoted : (quoted : Bool) → (s : Text) → Decidable (CommasQuoted quoted s)
  | quoted, [] => .isTrue (commasQuoted_nil quoted)
  | quoted, c :: s =>
    have := decidableCommasQuoted (if c = '"' then !quoted else quoted) s
    decidable_of_iff _ commasQuoted_cons_iff.symm

theorem CommasQuoted.append {a : Text} (ha : CommasQuoted quoted a)
    (hs : CommasQuoted (quotedBehind quoted a) s) : CommasQuoted quoted (a ++ s) := by
  induction a generalizing quoted with
  | nil => exact hs
  | cons c a ih =>
      obtain ⟨hc, ha⟩ := commasQuoted_cons_iff.1 ha
      exact commasQuoted_cons_iff.2 ⟨hc, ih ha hs⟩

theorem commasQuoted_of_not_mem (hs : ',' ∉ s) : CommasQuoted quoted s := by
  rintro before after rfl
  exact absurd (List.mem_append_right before List.mem_cons_self) hs

/-- Between quotes, every comma is quoted. -/
theorem commasQuoted_true (hs : '"' ∉ s) : CommasQuoted true s := by
  rintro before after rfl
  exact quotedBehind_eq_self fun h => hs (List.mem_append_left _ h)

/-- Blanks before a text are no commas. -/
theorem CommasQuoted.blanks_append {a : Text} (ha : ∀ c ∈ a, isBlank c = true)
    (hs : CommasQuoted quoted s) : CommasQuoted quoted (a ++ s) := by
  refine (commasQuoted_of_not_mem fun h => absurd (ha _ h) (by decide)).append ?_
  rwa [quotedBehind_blanks ha]

/-- What stands between blanks is quoted as the whole is. -/
theorem CommasQuoted.between {a b : Text} (ha : ∀ c ∈ a, isBlank c = true)
    (h : CommasQuoted quoted (a ++ (s ++ b))) : CommasQuoted quoted s := by
  intro before after hs
  have hquoted := h (a ++ before) (after ++ b) (by rw [hs]; simp)
  rwa [quotedBehind_append, quotedBehind_blanks ha] at hquoted

-- ================================================================ pieces

/-- Texts that commas separate on a line: each of them has its commas
quoted, and each but the last leaves no quote open. `quoted` tells whether
one is open before the first. -/
inductive Apart : Bool → List Text → Prop
  | last {quoted : Bool} {f : Text} (commas : CommasQuoted quoted f) : Apart quoted [f]
  | more {quoted : Bool} {f : Text} {fs : List Text} (commas : CommasQuoted quoted f)
      (closed : quotedBehind quoted f = false) (rest : Apart false fs) : Apart quoted (f :: fs)

variable {fs : List Text}

theorem Apart.cons_head (hc : c = ',' → quoted = true)
    (h : Apart (if c = '"' then !quoted else quoted) fs) :
    Apart quoted (fs.modifyHead (c :: ·)) := by
  cases h with
  | last commas => exact .last (commasQuoted_cons_iff.2 ⟨hc, commas⟩)
  | more commas closed rest => exact .more (commasQuoted_cons_iff.2 ⟨hc, commas⟩) closed rest

theorem Apart.exists_cons (h : Apart quoted fs) : ∃ f gs, fs = f :: gs := by
  cases h with
  | last commas => exact ⟨_, _, rfl⟩
  | more commas closed rest => exact ⟨_, _, rfl⟩

/-- A line is taken apart. -/
theorem apart_pieces (quoted : Bool) (s : Text) : Apart quoted (pieces quoted s) := by
  induction s generalizing quoted with
  | nil => exact .last (commasQuoted_nil quoted)
  | cons c s ih =>
      unfold pieces
      by_cases hcut : (c = ',' && !quoted) = true
      · rw [if_pos hcut]
        simp only [Bool.and_eq_true, decide_eq_true_eq, Bool.not_eq_true'] at hcut
        obtain ⟨-, rfl⟩ := hcut
        exact .more (commasQuoted_nil false) rfl (ih false)
      · rw [if_neg hcut]
        refine Apart.cons_head ?_ (ih _)
        rintro rfl
        simpa using hcut

/-- The pieces of a line join to the line. -/
theorem intercalate_pieces (quoted : Bool) (s : Text) :
    [','].intercalate (pieces quoted s) = s := by
  induction s generalizing quoted with
  | nil => exact List.intercalate_singleton
  | cons c s ih =>
      unfold pieces
      split
      next hcut =>
        obtain ⟨f, fs, hfs⟩ := (apart_pieces quoted s).exists_cons
        have hc : c = ',' := by
          simp only [Bool.and_eq_true, decide_eq_true_eq] at hcut
          exact hcut.1
        rw [hfs, List.intercalate_cons_cons, ← hfs, ih, hc]
        rfl
      next =>
        have hjoined := ih (if c = '"' then !quoted else quoted)
        obtain ⟨f, fs, hfs⟩ := (apart_pieces (if c = '"' then !quoted else quoted) s).exists_cons
        rw [hfs] at hjoined ⊢
        rw [List.modifyHead_cons]
        cases fs with
        | nil =>
            rw [List.intercalate_singleton] at hjoined ⊢
            rw [hjoined]
        | cons g fs =>
            rw [List.intercalate_cons_cons] at hjoined ⊢
            rw [← hjoined]
            rfl

/-- A text whose commas are quoted belongs to one piece with what follows
it. -/
theorem pieces_append {f : Text} (hf : CommasQuoted quoted f) (s : Text) :
    pieces quoted (f ++ s) = (pieces (quotedBehind quoted f) s).modifyHead (f ++ ·) := by
  induction f generalizing quoted with
  | nil =>
      obtain ⟨g, gs, hgs⟩ := (apart_pieces quoted s).exists_cons
      rw [List.nil_append, quotedBehind, List.foldl_nil, hgs]
      rfl
  | cons c f ih =>
      obtain ⟨hc, hrest⟩ := commasQuoted_cons_iff.1 hf
      have hcut : ¬ (c = ',' && !quoted) = true := by simpa using hc
      rw [List.cons_append, pieces, if_neg hcut, ih hrest, List.modifyHead_modifyHead,
        quotedBehind_cons]
      rfl

/-- Texts that are apart are the pieces of the line that they join to. -/
theorem pieces_intercalate (h : Apart quoted fs) :
    pieces quoted ([','].intercalate fs) = fs := by
  induction h with
  | last commas =>
      have hpieces := pieces_append commas []
      rw [List.append_nil] at hpieces
      rw [List.intercalate_singleton, hpieces]
      exact congrArg (fun f => [f]) (List.append_nil _)
  | @more quoted f fs commas closed rest ih =>
      obtain ⟨g, gs, rfl⟩ := rest.exists_cons
      rw [List.intercalate_cons_cons, List.append_assoc, pieces_append commas, closed,
        List.singleton_append, pieces, if_pos (by decide), ih, List.modifyHead_cons,
        List.append_nil]

-- ============================================================== trimming

/-- Blanks between the pieces. -/
theorem Apart.map_blanks {gap : Text} (hgap : ∀ c ∈ gap, isBlank c = true)
    (h : Apart quoted fs) : Apart quoted (fs.map (gap ++ ·)) := by
  induction h with
  | last commas => exact .last (commas.blanks_append hgap)
  | more commas closed _ ih =>
      refine .more (commas.blanks_append hgap) ?_ ih
      rwa [quotedBehind_append, quotedBehind_blanks hgap]

theorem Apart.map_trim (h : Apart quoted fs) : Apart quoted (fs.map trim) := by
  induction h with
  | @last quoted f commas =>
      obtain ⟨a, b, ha, -, -, hf⟩ := Text.exists_trim f
      exact .last (CommasQuoted.between ha (hf ▸ commas))
  | @more quoted f fs commas closed _ ih =>
      obtain ⟨a, b, ha, hb, -, hf⟩ := Text.exists_trim f
      refine .more (CommasQuoted.between ha (hf ▸ commas)) ?_ ih
      rwa [hf, quotedBehind_append, quotedBehind_append, quotedBehind_blanks ha,
        quotedBehind_blanks hb] at closed

/-- A separator that ends with blanks is a comma with these blanks before
the next text. -/
theorem intercalate_gap (gap f : Text) (fs : List Text) :
    (',' :: gap).intercalate (f :: fs) = [','].intercalate (f :: fs.map (gap ++ ·)) := by
  induction fs generalizing f with
  | nil => rfl
  | cons g fs ih =>
      have hhead : ∀ gs : List Text,
          [','].intercalate ((gap ++ g) :: gs) = gap ++ [','].intercalate (g :: gs) := by
        intro gs
        cases gs with
        | nil => simp
        | cons next gs => simp [List.intercalate_cons_cons]
      rw [List.intercalate_cons_cons, ih, List.map_cons, List.intercalate_cons_cons, hhead]
      simp

theorem trim_gap {gap : Text} (hgap : ∀ c ∈ gap, isBlank c = true) (s : Text) :
    trim (gap ++ s) = trim s := by
  obtain ⟨a, b, ha, hb, htrim, hs⟩ := Text.exists_trim s
  have hblanks : ∀ c ∈ gap ++ a, isBlank c = true :=
    fun c hc => (List.mem_append.1 hc).elim (hgap c) (ha c)
  conv => lhs; rw [hs, ← List.append_assoc]
  exact Text.trim_append hblanks hb htrim

-- ================================================================ fields

/-- A text that can be a field wherever it stands. -/
structure IsField (f : Text) : Prop where
  /-- No blank stands around it. -/
  trimmed : trim f = f
  /-- All its quotes are closed. -/
  even : Even (f.count '"')
  /-- Its commas stand between quotes. -/
  commas : ∀ before after, f = before ++ ',' :: after → Odd (before.count '"')

theorem isField_iff {f : Text} :
    IsField f ↔ trim f = f ∧ quotedBehind false f = false ∧ CommasQuoted false f := by
  have hopen : ∀ s : Text, quotedBehind false s = true ↔ Odd (s.count '"') := by
    intro s
    rw [quotedBehind_eq_true_iff]
    simp
  have hclosed : quotedBehind false f = false ↔ Even (f.count '"') := by
    rw [← Bool.not_eq_true, hopen, Nat.not_odd_iff_even]
  constructor
  · rintro ⟨htrim, heven, hcommas⟩
    exact ⟨htrim, hclosed.2 heven, fun before after hf =>
      (hopen before).2 (hcommas before after hf)⟩
  · rintro ⟨htrim, heven, hcommas⟩
    exact ⟨htrim, hclosed.1 heven, fun before after hf =>
      (hopen before).1 (hcommas before after hf)⟩

instance (f : Text) : Decidable (IsField f) := decidable_of_iff _ isField_iff.symm

theorem isField_of_not_mem {f : Text} (htrim : trim f = f) (hquote : '"' ∉ f)
    (hcomma : ',' ∉ f) : IsField f :=
  isField_iff.2 ⟨htrim, quotedBehind_eq_self hquote, commasQuoted_of_not_mem hcomma⟩

/-- A comma between quotes belongs to its field. -/
theorem isField_quoted {t : Text} (ht : '"' ∉ t) : IsField ('"' :: (t ++ ['"'])) := by
  refine isField_iff.2 ⟨Text.trim_quoted t, ?_, ?_⟩
  · rw [quotedBehind_cons, if_pos rfl, quotedBehind_append, quotedBehind_eq_self ht]
    rfl
  · rw [commasQuoted_cons_iff, if_pos rfl]
    exact ⟨nofun, (commasQuoted_true ht).append (commasQuoted_of_not_mem (by decide))⟩

theorem apart_of_isField (hne : fs ≠ []) (h : ∀ f ∈ fs, IsField f) : Apart false fs := by
  induction fs with
  | nil => exact absurd rfl hne
  | cons f fs ih =>
      obtain ⟨-, hclosed, hcommas⟩ := isField_iff.1 (h f List.mem_cons_self)
      cases fs with
      | nil => exact .last hcommas
      | cons g gs =>
          refine .more hcommas hclosed (ih (List.cons_ne_nil g gs) ?_)
          exact fun x hx => h x (List.mem_cons_of_mem f hx)

/-- The fields of texts that are joined with a comma, and blanks behind it
or none, are the texts. -/
theorem fields_intercalate {gap : Text} (hgap : ∀ c ∈ gap, isBlank c = true)
    (h : Apart false fs) : fields ((',' :: gap).intercalate fs) = fs.map trim := by
  obtain ⟨f, gs, rfl⟩ := h.exists_cons
  have happart : Apart false (f :: gs.map (gap ++ ·)) := by
    cases h with
    | last commas => exact .last commas
    | more commas closed rest => exact .more commas closed (rest.map_blanks hgap)
  have htrim : (gs.map (gap ++ ·)).map trim = gs.map trim := by
    rw [List.map_map]
    exact List.map_congr_left fun g _ => trim_gap hgap g
  rw [fields, intercalate_gap, pieces_intercalate happart, List.map_cons, htrim, List.map_cons]

/-- Fields come back from the line that they join to. -/
theorem fields_of_isField {gap : Text} (hgap : ∀ c ∈ gap, isBlank c = true) (hne : fs ≠ [])
    (h : ∀ f ∈ fs, IsField f) : fields ((',' :: gap).intercalate fs) = fs := by
  have htrimmed : fs.map trim = fs :=
    (List.map_congr_left fun f hf => (h f hf).trimmed).trans (List.map_id' fs)
  exact (fields_intercalate hgap (apart_of_isField hne h)).trans htrimmed

/-- Taking apart undoes joining. Fields that are trimmed and have their
quotes closed and their commas quoted come back from the line that they
join to, whether or not a space follows each comma. And the fields of any
line come back from it, also where a quote is left open. -/
theorem fields_of_joined :
    (∀ fs : List Text, fs ≠ [] → (∀ f ∈ fs, IsField f) →
        fields ([','].intercalate fs) = fs ∧ fields ([',', ' '].intercalate fs) = fs)
      ∧ ∀ line, fields ([','].intercalate (fields line)) = fields line := by
  constructor
  · intro fs hne hfields
    constructor
    · exact fields_of_isField (by simp) hne hfields
    · exact fields_of_isField Text.isBlank_of_mem_space hne hfields
  · intro line
    have happart : Apart false (fields line) := (apart_pieces false line).map_trim
    have htrimmed : (fields line).map trim = fields line := by
      rw [fields, List.map_map]
      exact List.map_congr_left fun f _ => Text.trim_trim f
    exact (fields_intercalate (by simp) happart).trans htrimmed

/-- A field may be empty, and it may hold commas between its quotes. -/
theorem fields_of_joined_with_quotes :
    (∀ f ∈ ["Name".toList, [], "\"a, b, c\"".toList, "x \",\" y".toList], IsField f)
      ∧ fields "Name,,\"a, b, c\",x \",\" y".toList
        = ["Name".toList, [], "\"a, b, c\"".toList, "x \",\" y".toList]
      ∧ fields "Name, , \"a, b, c\", x \",\" y".toList
        = ["Name".toList, [], "\"a, b, c\"".toList, "x \",\" y".toList] := by
  have hfields : ∀ f ∈ ["Name".toList, [], "\"a, b, c\"".toList, "x \",\" y".toList],
      IsField f := by decide
  obtain ⟨hcomma, hspace⟩ := fields_of_joined.1 _ (List.cons_ne_nil _ _) hfields
  exact ⟨hfields, hcomma, hspace⟩

end FreeLabel.Er
