/-
  Sets of characters given by intervals of code points.
-/

namespace Deduction.Text

/-- A set of characters: closed intervals of code points, in ascending order. -/
abbrev CharClass := List (Nat × Nat)

/-- Membership in a character class. -/
def CharClass.contains (k : CharClass) (c : Char) : Bool :=
  k.any fun r => r.1 ≤ c.toNat && c.toNat ≤ r.2

end Deduction.Text
