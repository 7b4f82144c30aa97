/-
  Writing a proof in a given format.
-/
import Deduction.Layout.Json
import Deduction.Layout.Text
import Deduction.OutputFormat

namespace Deduction

/-- Writes a proof.  LaTeX comes as an article of its own if `latexDocument`
    holds. -/
def Proof.render (p : Proof) (format : OutputFormat) (latexDocument : Bool) : String :=
  match format with
  | .text => Layout.text p
  | .latex => if latexDocument then Layout.Latex.document (Layout.Latex.body p) else Layout.Latex.body p
  | .json => Layout.json p

end Deduction
