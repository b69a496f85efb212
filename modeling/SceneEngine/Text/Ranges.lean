/-
Classes of characters as ranges of code points.
-/

namespace SceneEngine.Text

/-- Closed ranges of code points, ascending and apart. -/
abbrev Ranges := List (Nat × Nat)

/-- Whether a character lies in one of the ranges. -/
def Ranges.contains (rs : Ranges) (c : Char) : Bool :=
  rs.any fun (first, last) => decide (first ≤ c.toNat) && decide (c.toNat ≤ last)

end SceneEngine.Text
