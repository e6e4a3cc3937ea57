/-
Identifiers as the readers of diagrams meet them. A line of a compiled
diagram begins with one; it says something, and the identifier is read up
to the first character that is none of its kind. What is named more than
once counts where it is first named (`eraseDups_concat`).
-/
import Mathlib.Data.Option.Basic
import FreeLabel.Drawing.Er
import FreeLabel.Proofs.Naming.Grammar
import FreeLabel.Proofs.Text.Chars
import FreeLabel.Proofs.Text.Span

namespace FreeLabel.Drawing

open Naming (isIdentifier)
open Text (trim)

-- ============================================================ conditions

theorem guard_of {p : Prop} [Decidable p] (h : p) : (guard p : Option Unit) = some () :=
  if_pos h

theorem guard_of_not {p : Prop} [Decidable p] (h : ¬ p) : (guard p : Option Unit) = none :=
  if_neg h

-- ========================================================== identifiers

/-- An identifier that a line begins with is one, and stands there. -/
theorem of_ident? {s name rest : Text} (h : ident? s = some (name, rest)) :
    name.all isIdentChar = true ∧ s = name ++ rest := by
  have hspan : Text.spanIdent s = (name, rest) := by
    unfold ident? at h
    split at h
    next => cases h
    next heq => exact heq.trans (Option.some.inj h)
  unfold Text.spanIdent at hspan
  obtain ⟨rfl, rfl⟩ := Prod.mk.inj hspan
  exact ⟨List.all_takeWhile, List.takeWhile_append_dropWhile.symm⟩

/-- An identifier is read where it stands. -/
theorem ident?_append {id s : Text} (hid : isIdentifier id = true)
    (hs : ∀ c ∈ s.head?, isIdentChar c = false) : ident? (id ++ s) = some (id, s) := by
  obtain ⟨hne, hchars⟩ := Naming.isIdentChar_of_isIdentifier hid
  rw [ident?, Text.spanIdent, Text.takeWhile_append_eq hchars hs,
    Text.dropWhile_append_eq hchars hs]
  cases id with
  | nil => exact absurd rfl hne
  | cons c id => rfl

theorem trim_identifier {id : Text} (hid : isIdentifier id = true) : trim id = id :=
  Text.trim_eq_self_of_forall fun c hc =>
    isBlank_of_isIdentChar ((Naming.isIdentChar_of_isIdentifier hid).2 c hc)

theorem newline_not_mem_identifier {id : Text} (hid : isIdentifier id = true) :
    '\n' ∉ id := fun hmem =>
  absurd ((Naming.isIdentChar_of_isIdentifier hid).2 _ hmem) (by decide)

/-- A line that begins with an identifier says something. -/
theorem isInert_identifier_append {id : Text} (hid : isIdentifier id = true) (s : Text) :
    isInert (id ++ s) = false := by
  obtain ⟨hne, hchars⟩ := Naming.isIdentChar_of_isIdentifier hid
  cases id with
  | nil => exact absurd rfl hne
  | cons c id =>
      have hc : ¬ '%' = c := ne_of_kind (p := fun c => !isIdentChar c) (by decide)
        (by simp [hchars c List.mem_cons_self])
      have hmark : Text.startsWith commentMark (c :: id ++ s) = false := by
        show (Text.after? ['%', '%'] (c :: (id ++ s))).isSome = false
        rw [Text.after?, if_neg hc]
        rfl
      rw [isInert, hmark]
      rfl

theorem isBlank_head_identifier {id : Text} (hid : isIdentifier id = true) (s : Text) :
    ∀ c ∈ (id ++ s).head?, isBlank c = false := by
  obtain ⟨hne, hchars⟩ := Naming.isIdentChar_of_isIdentifier hid
  intro c hc
  cases id with
  | nil => exact absurd rfl hne
  | cons d id =>
      obtain rfl : d = c := by simpa using hc
      exact isBlank_of_isIdentChar (hchars d List.mem_cons_self)

-- ========================================================= first mention

/-- A name is new at the end, or it was there before. -/
theorem eraseDups_concat (names : List Text) (name : Text) :
    (names ++ [name]).eraseDups
      = if name ∈ names then names.eraseDups else names.eraseDups ++ [name] := by
  rw [List.eraseDups_append, List.removeAll, List.filter_cons, List.filter_nil]
  by_cases h : name ∈ names
  · simp [h]
  · have hsingle : [name].eraseDups = [name] := rfl
    simp [h, hsingle]

end FreeLabel.Drawing
