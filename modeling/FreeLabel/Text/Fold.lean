/-
Reading words without regard to letter case. Three characters outside
ASCII are read as ASCII letters: the long s, the Kelvin sign, and the
Turkish dotless and dotted i. Words are given in small letters.
-/
import FreeLabel.Text.Basic
import FreeLabel.Text.Word

namespace FreeLabel

/-- The small letter that a character is read as. -/
def foldCase (c : Char) : Char :=
  if c == 'ſ' then 's'
  else if c == '\u212A' then 'k'
  else if c == 'ı' || c == 'İ' then 'i'
  else c.toLower

namespace Text

/-- What follows `word` at the head of `s`, in any letter case. -/
def afterAnyCase? : Text → Text → Option Text
  | [], s => some s
  | _ :: _, [] => none
  | w :: word, c :: s => if foldCase c = w then afterAnyCase? word s else none

theorem afterAnyCase?_eq_some_iff {word s rest : Text} :
    afterAnyCase? word s = some rest ↔
      ∃ read, s = read ++ rest ∧ read.map foldCase = word := by
  induction word generalizing s with
  | nil => simp [afterAnyCase?, eq_comm]
  | cons w word ih =>
    cases s with
    | nil => simp [afterAnyCase?]
    | cons c s =>
      by_cases h : foldCase c = w
      · simp only [afterAnyCase?, h, if_true, ih]
        constructor
        · rintro ⟨read, rfl, rfl⟩
          exact ⟨c :: read, rfl, by simp [h]⟩
        · rintro ⟨read, hs, hw⟩
          cases read with
          | nil => simp at hw
          | cons d read =>
            simp only [List.cons_append, List.cons.injEq] at hs
            simp only [List.map_cons, List.cons.injEq] at hw
            exact ⟨read, hs.2, hw.2⟩
      · simp only [afterAnyCase?, h, if_false, reduceCtorEq, false_iff]
        rintro ⟨read, hs, hw⟩
        cases read with
        | nil => simp at hw
        | cons d read =>
          simp only [List.cons_append, List.cons.injEq] at hs
          simp only [List.map_cons, List.cons.injEq] at hw
          exact h (hs.1 ▸ hw.1)

/-- What follows `word` at the head of `s`, in any letter case, where the
word read does not go on. -/
def afterKeyword? (word s : Text) : Option Text :=
  (afterAnyCase? word s).filter atWordEnd

/-- Whether `word` occurs in `s`, in any letter case, as a whole word.
`inWord` tells whether a word character comes just before `s`. -/
def hasKeyword (word : Text) : Text → Bool → Bool
  | [], _ => false
  | c :: s, inWord =>
    (!inWord && (afterKeyword? word (c :: s)).isSome) ||
      hasKeyword word s (isWordChar c)

end Text

end FreeLabel
