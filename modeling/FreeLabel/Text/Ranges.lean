/-
Sets of characters given by ranges of code points, for the classes whose
members are listed by the Unicode Character Database and follow no
shorter rule.
-/
namespace FreeLabel.Text

/-- Whether `n` lies in one of the closed ranges of `table`. -/
def inRanges (table : List (Nat × Nat)) (n : Nat) : Bool :=
  table.any fun (lo, hi) => lo ≤ n && n ≤ hi

end FreeLabel.Text
