/-
  Lines of a proof.

  A line states a formula under a number and cites a rule together with the
  lines that the rule is applied to.  `Line.text` is the form in which a line
  is read and written; references are written in ascending order.
-/
import Deduction.Formula.Printer
import Deduction.LineNumber
import Deduction.RuleName

namespace Deduction

/-- A cited rule and the lines that it is applied to. -/
structure Citation where
  rule : String
  refs : List LineNumber
  deriving DecidableEq

namespace Citation

/-- The normalized name of the cited rule. -/
def ruleKey (c : Citation) : String := RuleName.normalize c.rule

/-- The rule and, after a colon, its references in ascending order. -/
def text (c : Citation) : String :=
  if c.refs.isEmpty then c.rule
  else c.rule ++ ": " ++ ", ".intercalate ((LineNumber.sort c.refs).map (·.text))

end Citation

/-- One justified statement of a proof. -/
structure Line where
  number : LineNumber
  formula : Formula
  citation : Citation
  deriving DecidableEq

/-- The written form of a line. -/
def Line.text (l : Line) : String :=
  l.number.text ++ ". " ++ l.formula.text ++ " [" ++ l.citation.text ++ "]"

end Deduction
