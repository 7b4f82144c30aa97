/-
  Names of rules.

  A rule is cited by a name in any casing and spacing.  `RuleName.normalize`
  gives the form under which a catalog registers it, `RuleName.titleCase` the
  form in which it is printed.  Three names are not in any catalog: they belong
  to the structure of a proof.
-/
import Deduction.Text.Blank
import Deduction.Text.Casing

namespace Deduction.RuleName

/-- The name that opens a sub-proof. -/
def assumption : String := "assumption"

/-- The name that cites a declared premise. -/
def given : String := "given"

/-- The name that closes a sub-proof. -/
def directProof : String := "direct proof rule"

/-- Applies a function to the words of a name and joins them by single
    spaces. -/
def mapWords (f : List Char → List Char) (name : String) : String :=
  " ".intercalate ((Text.words name.toList).map fun w => String.ofList (f w))

/-- The name in lower case, with single spaces between its words. -/
def normalize (name : String) : String := mapWords Text.lower name

/-- A word of a title: its first letter is a capital, the others are small.
    The word `of` is small altogether. -/
def titleWord (word : List Char) : List Char :=
  let word := Text.lower word
  if word = ['o', 'f'] then word else Text.capitalize word

/-- The name with capitalized words and single spaces between them. -/
def titleCase (name : String) : String := mapWords titleWord name

end Deduction.RuleName
