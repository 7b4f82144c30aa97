/-
  Writing formulas.

  The layout of parentheses is one function, `Formula.write`; a `Spelling` says
  how literals and connectives are spelled.  `Formula.text` is the plain form,
  which can be read back, and `Formula.latex` the form for math mode.
-/
import Deduction.Formula.Basic

namespace Deduction

/-- How the symbols of a formula are spelled, blanks around them included. -/
structure Spelling where
  verum : String
  falsum : String
  negation : String
  connective : Connective → String

/-- The plain spelling: one symbol per connective and no blanks. -/
def Spelling.plain : Spelling where
  verum := "T"
  falsum := "F"
  negation := "¬"
  connective
    | .and => "∧"
    | .or => "∨"
    | .xor => "⊕"
    | .implies => "→"
    | .iff => "↔"

/-- The spelling of math mode: commands, with blanks around a binary one and
    after a negation. -/
def Spelling.latex : Spelling where
  verum := "\\mathsf\x7bT\x7d"
  falsum := "\\mathsf\x7bF\x7d"
  negation := "\\neg "
  connective
    | .and => " \\land "
    | .or => " \\lor "
    | .xor => " \\oplus "
    | .implies => " \\to "
    | .iff => " \\leftrightarrow "

namespace Formula

/-- `s` in parentheses if `parens` holds. -/
def wrap (parens : Bool) (s : String) : String := if parens then "(" ++ s ++ ")" else s

/-- Writes a formula in the given spelling, with parentheses where they are
    needed. -/
def write (sp : Spelling) : Formula → String
  | verum => sp.verum
  | falsum => sp.falsum
  | atom name | metavar name => name
  | not φ => sp.negation ++ wrap φ.isBinary (φ.write sp)
  | binary c φ ψ =>
    wrap (φ.needsParens c .left) (φ.write sp) ++ sp.connective c ++
      wrap (ψ.needsParens c .right) (ψ.write sp)

/-- The plain form of a formula. -/
def text (φ : Formula) : String := φ.write .plain

/-- The form of a formula for math mode. -/
def latex (φ : Formula) : String := φ.write .latex

instance : ToString Formula := ⟨text⟩

end Formula

end Deduction
