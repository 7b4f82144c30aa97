/-
  The canonical text of a proof, which can be read back.
-/
import Deduction.Proof

namespace Deduction.Layout

/-- A line with its rule in title case and its references in order. -/
def textLine (l : Line) : String :=
  { l with citation := { l.citation with rule := RuleName.titleCase l.citation.rule } }.text

/-- Declarations, header and lines, one statement per line. -/
def text (p : Proof) : String :=
  p.declarations.text ++ p.mode.header ++ "\n" ++
    String.join (p.lines.map fun l => textLine l ++ "\n")

end Deduction.Layout
