/-
  Why a proof is rejected.

  A check error names the line at fault.  Its cause is either the form of the
  proof (numbers, references, sub-proofs, names of rules) or the rule that the
  line cites.
-/
import Deduction.Line
import Deduction.Rule.Fault

namespace Deduction

/-- The ways in which a line can violate the form of a proof. -/
inductive FormatFault where
  /-- The formula mentions an atom that is not declared. -/
  | undefinedAtom (name : String)
  /-- The line has another number than its place asks for. -/
  | wrongNumber (expected : LineNumber)
  /-- The block has no slot left. -/
  | numbersExhausted
  /-- A cited line does not exist. -/
  | missingReference (n : LineNumber)
  /-- A cited line lies in a sub-proof that does not enclose this line. -/
  | inaccessibleReference (n : LineNumber)
  /-- A sub-proof does not start with an assumption. -/
  | missingAssumption
  /-- A sub-proof is not closed by the direct proof rule. -/
  | missingDirectProof
  /-- The cited rule is not in the catalog. -/
  | unknownRule (name : String)
  /-- An equivalence proof cites an inference rule. -/
  | notAnEquivalenceRule (name : String)
  /-- An equivalence proof has a sub-proof. -/
  | subproofInEquivalence
  /-- The proof ends inside a sub-proof. -/
  | unclosedSubproof
  /-- The proof has no lines. -/
  | emptyProof
  deriving DecidableEq

/-- The wording of a format fault. -/
def FormatFault.message : FormatFault → String
  | undefinedAtom name => "undefined atomic proposition: '" ++ name ++ "'"
  | wrongNumber _ => "incorrect line number"
  | numbersExhausted => "line numbers are exhausted"
  | missingReference n => "referred line '" ++ n.text ++ "' does not exist"
  | inaccessibleReference n => "cannot refer to line '" ++ n.text ++ "'"
  | missingAssumption => "sub-proofs must start with an assumption"
  | missingDirectProof => "sub-proofs must be followed by a Direct Proof Rule"
  | unknownRule name => "referred rule '" ++ name ++ "' does not exist"
  | notAnEquivalenceRule name => "rule '" ++ name ++ "' is not an equivalence rule"
  | subproofInEquivalence => "sub-proofs are not allowed in an equivalence proof"
  | unclosedSubproof => "proof ends in a sub-proof"
  | emptyProof => "proof is empty"

/-- What is wrong with a line. -/
inductive Fault where
  | format (f : FormatFault)
  | rule (f : RuleFault)
  deriving DecidableEq

/-- The wording of a fault. -/
def Fault.message : Fault → String
  | format f => f.message
  | rule f => f.message

/-- A rejected line and its fault. -/
structure CheckError where
  number : LineNumber
  formula : Formula
  fault : Fault
  deriving DecidableEq

/-- The wording of a check error.  A fault of the cited rule is reported with
    the formula of the line. -/
def CheckError.message (e : CheckError) : String :=
  match e.fault with
  | .format f => "at line " ++ e.number.text ++ ": " ++ f.message
  | .rule f => "at line " ++ e.number.text ++ " [" ++ e.formula.text ++ "]: " ++ f.message

/-- The rejection of a line for its form. -/
def Line.formatError (l : Line) (f : FormatFault) : CheckError := ⟨l.number, l.formula, .format f⟩

/-- The rejection of a line for the rule that it cites. -/
def Line.ruleError (l : Line) (f : RuleFault) : CheckError := ⟨l.number, l.formula, .rule f⟩

end Deduction
