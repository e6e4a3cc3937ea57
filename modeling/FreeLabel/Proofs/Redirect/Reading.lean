/-
Setting the direction of an entity-relationship source, and reading it
back.

# What is read back

A source with one declaration, found as such, declares the direction that
is set and no other, and a declaration counts before any statement. So a
direction that is set is read back (`declaredDirections_redirected`). If
none is set, the declaration gives none, and the statements decide that
have not been taken out. Only the first one is, so the last of the others
counts (`statedDirections_redirected`): with two statements the layout is
not automatic, however often it is set to be (`second_statement_counts`).
-/
import FreeLabel.Proofs.Redirect.Diagram

namespace FreeLabel

open Er (declaredDirections statedDirections directionStatement?)
open Redirect (afterStatement? dropStatement changeFirst shorthand afterShorthand)
open Text (trim trimLeft)

-- ================================================================ requests

/-- A letter of a direction's name, in either case, is read as the small
one. -/
theorem of_toUpper {c u : Char} (h : c.toUpper = u) (hu : u ∈ "TDBLR".toList) :
    foldCase c = foldCase u ∧ isBlank c = false := by
  have hsmall : ∀ u ∈ "TDBLR".toList,
      foldCase (Char.ofNat (u.toNat + 32)) = foldCase u
        ∧ isBlank (Char.ofNat (u.toNat + 32)) = false := Text.forall_mem_of_all (by decide)
  have hcapital : ∀ u ∈ "TDBLR".toList, isBlank u = false := Text.forall_mem_of_all (by decide)
  rcases Er.toNat_of_toUpper h with rfl | hnat
  · exact ⟨rfl, hcapital _ hu⟩
  · rw [← Char.ofNat_toNat c, hnat]
    exact hsmall u hu

/-- A direction may be asked for in any letter case. -/
theorem Direction.ofRequest_eq {given : Text} {d : Direction}
    (h : given.map Char.toUpper = d.name) : ofRequest given = .ok (some d) := by
  have hletters : ∀ d : Direction, ∀ u ∈ d.name, u ∈ "TDBLR".toList := by
    intro d
    cases d <;> exact Text.forall_mem_of_all (by decide)
  have hgiven : ∀ c ∈ given, foldCase c = foldCase c.toUpper ∧ isBlank c = false := by
    intro c hc
    exact of_toUpper rfl (hletters d _ (h ▸ List.mem_map_of_mem hc))
  have hfold : given.map foldCase = d.smallName := by
    rw [← d.map_foldCase_name, ← h, List.map_map]
    exact List.map_congr_left fun c hc => (hgiven c hc).1
  have hne : given ≠ [] := by
    rintro rfl
    cases d <;> cases h
  unfold ofRequest
  rw [if_neg hne, Text.trim_eq_self_of_forall fun c hc => (hgiven c hc).2,
    ofName?_eq_some_iff.2 hfold]

-- ============================================================ declarations

namespace Redirect

variable {lines : List Text} {d : Option Direction}

/-- Whether a line declares the diagram. -/
def declares (line : Text) : Bool := (Er.declaration? (trim line)).isSome

theorem declares_of_afterKeyword? {line : Text}
    (h : Text.afterKeyword? erWord (trimLeft line) = none) : declares line = false := by
  unfold declares
  cases hdeclaration : Er.declaration? (trim line) with
  | none => rfl
  | some e =>
      have hkeyword := Er.afterKeyword?_of_declaration? hdeclaration
      rw [h] at hkeyword
      cases hkeyword

/-- The first edit takes out no declaration and makes none. -/
theorem countP_dropStatement
    (hleft : ∀ left ∈ lines.findSome? afterStatement?,
      Text.afterKeyword? erWord (trimLeft left) = none) :
    (dropStatement lines).countP declares = lines.countP declares := by
  rcases dropStatement_cases lines with ⟨-, hsame⟩
    | ⟨before, line, left, after, rfl, -, hline, hfirst, hdrop⟩
  · rw [hsame]
  have hnone := declares_of_afterKeyword? (afterKeyword?_of_afterStatement? hline)
  have hnone' := declares_of_afterKeyword? (hleft left hfirst)
  rcases hdrop with hdrop | ⟨-, -, hdrop⟩
  · rw [hdrop, List.countP_append, List.countP_append, List.countP_cons, List.countP_cons, hnone,
      hnone']
  · rw [hdrop, List.countP_append, List.countP_append, List.countP_cons, hnone]
    rfl

/-- Lines none of which declares the diagram give no direction by a
declaration. -/
theorem declaredDirections_eq_nil (h : lines.countP declares = 0) :
    declaredDirections lines = [] := by
  rw [List.countP_eq_zero] at h
  unfold declaredDirections
  rw [List.filterMap_eq_nil_iff]
  intro line hline
  have hnone := h line hline
  unfold declares at hnone
  cases hdeclaration : Er.declaration? (trim line) with
  | none => rfl
  | some e =>
      rw [hdeclaration] at hnone
      exact absurd rfl hnone

/-- The only declaration gives the direction that is set, and some line
still declares the diagram. -/
theorem declaredDirections_changeFirst (hone : lines.countP declares = 1)
    (hrest : ∀ s ∈ lines.findSome? (fun line => Text.afterKeyword? erWord (trimLeft line)),
      ∀ c ∈ afterShorthand s, isBlank c = true) :
    declaredDirections (changeFirst (declaration? d) lines) = d.toList
      ∧ ∃ line ∈ changeFirst (declaration? d) lines, Er.declaration? (trim line) = some d := by
  rcases changeFirst_cases d lines with ⟨hnone, -⟩
    | ⟨before, blanks, word, s, after, rfl, hblanks, hword, hfirst, hchange⟩
  · have hzero : lines.countP declares = 0 := by
      rw [List.countP_eq_zero]
      intro line hline
      rw [declares_of_afterKeyword? (List.findSome?_eq_none_iff.1 hnone line hline)]
      exact Bool.false_ne_true
    rw [hzero] at hone
    cases hone
  · have hblank := hrest s hfirst
    have hold : declares (blanks ++ (word ++ s)) = true := isSome_declaration? hblanks hword hblank
    have hnew := declaration?_shorthand_blanks hblanks hword hblank d
    rw [List.countP_append, List.countP_cons, hold, if_pos rfl] at hone
    have hbefore : declaredDirections before = [] := declaredDirections_eq_nil (by omega)
    have hafter : declaredDirections after = [] := declaredDirections_eq_nil (by omega)
    rw [hchange]
    refine ⟨?_, _, List.mem_append_right _ List.mem_cons_self, hnew⟩
    rw [Er.declaredDirections_append_cons, hbefore, hafter, hnew, List.append_nil]
    rfl

-- ============================================================== statements

/-- The second edit leaves the statements as they are. -/
theorem statedDirections_changeFirst :
    statedDirections (changeFirst (declaration? d) lines) = statedDirections lines := by
  rcases changeFirst_cases d lines with ⟨-, hsame⟩
    | ⟨before, blanks, word, s, after, rfl, hblanks, hword, -, hchange⟩
  · rw [hsame]
  · rw [hchange, Er.statedDirections_append_cons, Er.statedDirections_append_cons,
      directionStatement?_word hblanks hword, directionStatement?_word hblanks hword]

/-- The first edit takes out the first statement, if the first line that
begins like one is one and every statement is found by how it begins. -/
theorem statedDirections_dropStatement
    (hfound : ∀ line ∈ lines, (directionStatement? (trim line)).isSome = true →
      (afterStatement? line).isSome = true)
    (hwhole : ∀ left ∈ lines.findSome? afterStatement?, ∀ c ∈ left, isBlank c = true) :
    statedDirections (dropStatement lines) = (statedDirections lines).tail := by
  have hnone : ∀ ls : List Text, (∀ line ∈ ls, line ∈ lines) →
      (∀ line ∈ ls, afterStatement? line = none) → statedDirections ls = [] := by
    intro ls hsub hls
    unfold statedDirections
    rw [List.filterMap_eq_nil_iff]
    intro line hline
    cases hstatement : directionStatement? (trim line) with
    | none => rfl
    | some e =>
        have hsome := hfound line (hsub line hline) (by rw [hstatement]; rfl)
        rw [hls line hline] at hsome
        cases hsome
  rcases dropStatement_cases lines with ⟨hfirst, hsame⟩
    | ⟨before, line, left, after, hlines, hbefore, hline, hfirst, hdrop⟩
  · have hall := hnone lines (fun _ h => h) (List.findSome?_eq_none_iff.1 hfirst)
    rw [hsame, hall]
    rfl
  · have hblank := hwhole left hfirst
    obtain ⟨e, he⟩ := Option.isSome_iff_exists.1 ((isSome_directionStatement?_iff hline).2 hblank)
    have hempty : directionStatement? (trim left) = none := by
      rw [Text.trim_eq_nil_iff.2 hblank]
      rfl
    have hbefore' := hnone before (fun l hl => hlines ▸ List.mem_append_left _ hl) hbefore
    have hrest : statedDirections (dropStatement lines) = statedDirections after := by
      rcases hdrop with hdrop | ⟨-, -, hdrop⟩
      · rw [hdrop, Er.statedDirections_append_cons, hbefore', hempty]
        rfl
      · unfold statedDirections at hbefore' ⊢
        rw [hdrop, List.filterMap_append, hbefore', List.nil_append]
    rw [hrest, hlines, Er.statedDirections_append_cons, hbefore', he]
    rfl

end Redirect

-- ================================================================= sources

/-- What direction is read back. In a source with one declaration, found as
the first line that begins with its word, any direction that is set is read
back, in whatever letter case it was asked for. If the layout is set to be
automatic, the last of the statements but the first one counts, and so
none is read back exactly if there is at most one; the first statement is
the first line that begins like one, and all are found by how they
begin. -/
theorem redirect_sets_direction {source : Text}
    (hone : (Text.lines source).countP Redirect.declares = 1)
    (hdeclaration : ∀ s ∈ (Text.lines source).findSome?
        (fun line => Text.afterKeyword? erWord (trimLeft line)),
      ∀ c ∈ afterShorthand s, isBlank c = true)
    (hleft : ∀ left ∈ (Text.lines source).findSome? afterStatement?,
      Text.afterKeyword? erWord (trimLeft left) = none)
    (padding : Int) :
    (∀ d, ∃ compiled, compile (redirect source d) false padding = .ok compiled)
      ∧ (∀ (d : Direction) (given : Text), given.map Char.toUpper = d.name →
          Direction.ofRequest given = .ok (some d)
            ∧ ∀ strict compiled, compile (redirect source (some d)) strict padding = .ok compiled →
                compiled.direction = some d)
      ∧ Direction.ofRequest [] = .ok none
      ∧ ((∀ line ∈ Text.lines source, (directionStatement? (trim line)).isSome = true →
            (afterStatement? line).isSome = true) →
          (∀ left ∈ (Text.lines source).findSome? afterStatement?,
            ∀ c ∈ left, isBlank c = true) →
          ∀ strict compiled, compile (redirect source none) strict padding = .ok compiled →
            compiled.direction = (statedDirections (Text.lines source)).tail.getLast?
              ∧ (compiled.direction = none
                ↔ (statedDirections (Text.lines source)).length ≤ 1)) := by
  obtain ⟨line, hline, hdeclares⟩ : ∃ line ∈ Text.lines source, Redirect.declares line = true :=
    List.countP_pos_iff.1 (by omega)
  have hmode := Er.mode_of_declaration? hline hdeclares
  -- what is read back, whether or not statements matter
  have hread : ∀ d strict compiled, compile (redirect source d) strict padding = .ok compiled →
      compiled.direction
        = d.or (statedDirections (dropStatement (Text.lines source))).getLast? := by
    intro d strict compiled hcompile
    have hcount := (Redirect.countP_dropStatement hleft).trans hone
    rw [← Redirect.findSome?_dropStatement hleft] at hdeclaration
    obtain ⟨hdeclared, line', hline', hd⟩ :=
      Redirect.declaredDirections_changeFirst (d := d) hcount hdeclaration
    rw [← lines_redirect hmode] at hdeclared hline'
    have hdeclares' : Redirect.declares line' = true := by
      unfold Redirect.declares
      rw [hd]
      rfl
    rw [direction_of_compile (Er.mode_of_declaration? hline' hdeclares') hcompile, hdeclared,
      lines_redirect hmode, Redirect.statedDirections_changeFirst]
    cases d <;> rfl
  refine ⟨?_, ?_, rfl, ?_⟩
  · intro d
    obtain ⟨compiled, hcompile, -⟩ := exists_lenient (redirect source d) padding
    exact ⟨compiled, hcompile⟩
  · intro d given hgiven
    exact ⟨Direction.ofRequest_eq hgiven, fun strict compiled h => hread (some d) strict compiled h⟩
  · intro hfound hwhole strict compiled hcompile
    have hdirection := hread none strict compiled hcompile
    rw [Redirect.statedDirections_dropStatement hfound hwhole, Option.none_or] at hdirection
    refine ⟨hdirection, ?_⟩
    rw [hdirection, List.getLast?_eq_none_iff, ← List.length_eq_zero_iff, List.length_tail]
    omega

/-- A direction that is set in mixed letters takes the place of the three
that are given, and set to be automatic the layout is the last of them. -/
theorem redirect_sets_direction_of_three :
    (Text.lines ("erDiagram tb \n direction lr\nA \x7b\n  direction, string\n\x7d\n" ++
        "direction RL").toList).countP Redirect.declares = 1
      ∧ "bT".toList.map Char.toUpper = Direction.bt.name
      ∧ ∃ compiled automatic : Compiled,
          compile (redirect ("erDiagram tb \n direction lr\nA \x7b\n  direction, string\n\x7d\n" ++
              "direction RL").toList (some .bt)) false 2 = .ok compiled
            ∧ compiled.direction = some .bt
            ∧ compile (redirect ("erDiagram tb \n direction lr\nA \x7b\n  direction, string\n\x7d\n"
              ++ "direction RL").toList none) false 2 = .ok automatic
            ∧ automatic.direction = some .rl := by
  have hone : (Text.lines ("erDiagram tb \n direction lr\nA \x7b\n  direction, string\n\x7d\n" ++
      "direction RL").toList).countP Redirect.declares = 1 := by decide +kernel
  have hword : (Text.lines ("erDiagram tb \n direction lr\nA \x7b\n  direction, string\n\x7d\n" ++
      "direction RL").toList).findSome?
        (fun line => Text.afterKeyword? erWord (trimLeft line))
      = some " tb ".toList := by decide +kernel
  have hstatement : (Text.lines
      ("erDiagram tb \n direction lr\nA \x7b\n  direction, string\n\x7d\n" ++
        "direction RL").toList).findSome? afterStatement?
      = some [] := by decide +kernel
  have hall : (Text.lines ("erDiagram tb \n direction lr\nA \x7b\n  direction, string\n\x7d\n" ++
      "direction RL").toList).all
        (fun line => !(directionStatement? (trim line)).isSome || (afterStatement? line).isSome)
      = true := by decide +kernel
  have hfound : ∀ line ∈ Text.lines
      ("erDiagram tb \n direction lr\nA \x7b\n  direction, string\n\x7d\n" ++
        "direction RL").toList,
      (directionStatement? (trim line)).isSome = true → (afterStatement? line).isSome = true := by
    intro line hline hsome
    simpa [hsome] using List.all_eq_true.1 hall line hline
  obtain ⟨hcompiles, hset, -, hautomatic⟩ :=
    redirect_sets_direction hone
      (by
        rw [hword]
        rintro _ ⟨⟩
        exact Text.forall_mem_of_all (by decide))
      (by
        rw [hstatement]
        rintro _ ⟨⟩
        rfl) 2
  obtain ⟨compiled, hcompiled⟩ := hcompiles (some .bt)
  obtain ⟨automatic, hautomatically⟩ := hcompiles none
  have hread := (hautomatic hfound
    (by
      rw [hstatement]
      rintro _ ⟨⟩
      exact nofun) false automatic hautomatically).1
  have hbt : "bT".toList.map Char.toUpper = Direction.bt.name := by decide
  refine ⟨hone, hbt, compiled, automatic, hcompiled, (hset .bt _ hbt).2 false compiled hcompiled,
    hautomatically, hread.trans ?_⟩
  decide +kernel

/-- Of two statements the second one counts when the layout has been set to
be automatic. -/
theorem second_statement_counts :
    ∃ compiled : Compiled,
      (Text.lines "erDiagram\ndirection LR\ndirection TB\nA \x7b\n\x7d".toList).countP
          Redirect.declares = 1
        ∧ Direction.ofRequest [] = .ok none
        ∧ redirect "erDiagram\ndirection LR\ndirection TB\nA \x7b\n\x7d".toList none
          = "erDiagram\ndirection TB\nA \x7b\n\x7d".toList
        ∧ compile "erDiagram\ndirection TB\nA \x7b\n\x7d".toList false 2 = .ok compiled
        ∧ compiled.direction = some .tb := by
  obtain ⟨compiled, hcompile, -⟩ :=
    exists_lenient "erDiagram\ndirection TB\nA \x7b\n\x7d".toList 2
  refine ⟨compiled, by decide +kernel, rfl, by decide +kernel, hcompile, ?_⟩
  rw [direction_of_compile (by decide +kernel) hcompile]
  decide +kernel

end FreeLabel
