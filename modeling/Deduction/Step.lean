/-
  Accepted lines of a proof.

  A step is a line that has been checked.  It knows how it was justified and
  from which earlier steps, given by their numbers.
-/
import Deduction.Line

namespace Deduction

/-- How a step was justified. -/
inductive StepKind where
  | assumption
  | given
  | directProof
  | inference
  | equivalence
  deriving DecidableEq

/-- The number of a step of this kind that follows the line `n`, if the block
    has room for it. -/
def StepKind.numberAfter? : StepKind → LineNumber → Option LineNumber
  | assumption, n => n.open?
  | directProof, n => some n.close
  | given, n | inference, n | equivalence, n => n.next?

/-- An accepted line.  The rule is named in normalized form.  The dependencies
    are the cited lines in the order of citation; those of a closing line are
    the assumption and the last line of its sub-proof. -/
structure Step where
  number : LineNumber
  formula : Formula
  kind : StepKind
  rule : String
  dependencies : List LineNumber
  deriving DecidableEq

/-- The step with the given number. -/
def Step.find? (steps : List Step) (n : LineNumber) : Option Step :=
  steps.find? fun s => s.number = n

end Deduction
