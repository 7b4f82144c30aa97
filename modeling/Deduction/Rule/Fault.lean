/-
  Why a rule does not justify a line.
-/

namespace Deduction

/-- The ways in which a cited rule can fail to justify a line. -/
inductive RuleFault where
  /-- The rule takes another number of cited lines. -/
  | dependencyCount (expected actual : Nat)
  /-- The closing line of a sub-proof states something else than that the
      assumption implies the last line. -/
  | directProof
  /-- The formula is not among the givens. -/
  | notGiven
  /-- No instance of the inference rule leads to the line. -/
  | inferenceMismatch
  /-- The equivalence rule does not turn the cited line into this one. -/
  | equivalenceMismatch
  deriving DecidableEq

/-- The wording of a rule fault. -/
def RuleFault.message : RuleFault → String
  | dependencyCount expected actual =>
    "expect " ++ toString expected ++ " dependencies but got " ++ toString actual
  | directProof => "invalid use of Direct Proof Rule"
  | notGiven => "proposition is not given"
  | inferenceMismatch => "inference rule does not match"
  | equivalenceMismatch => "equivalence rule does not match"

/-- Requires the number of cited lines to be the expected one. -/
def RuleFault.expectCount (expected actual : Nat) : Except RuleFault Unit :=
  if expected = actual then .ok () else .error (.dependencyCount expected actual)

end Deduction
