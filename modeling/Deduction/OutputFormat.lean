/-
  The formats in which a proof can be written.
-/
import Deduction.Text.Casing

namespace Deduction

/-- The formats in which a proof can be written. -/
inductive OutputFormat where
  | text
  | latex
  | json
  deriving DecidableEq

namespace OutputFormat

/-- The name of a format. -/
def name : OutputFormat → String
  | text => "text"
  | latex => "latex"
  | json => "json"

/-- The format with exactly this name. -/
def ofName? (s : String) : Option OutputFormat :=
  if s = "text" then some text else if s = "latex" then some latex
  else if s = "json" then some json else none

/-- The format that a user means, in any casing and by any of its names. -/
def read? (s : String) : Option OutputFormat :=
  let s := String.ofList (Text.lower s.toList)
  if s ∈ ["text", "txt", "proof"] then some text
  else if s ∈ ["latex", "tex"] then some latex
  else if s ∈ ["json", "mathjax"] then some json
  else none

/-- The extension of the files of a format. -/
def extension : OutputFormat → String
  | text => "txt"
  | latex => "tex"
  | json => "json"

end OutputFormat

end Deduction
