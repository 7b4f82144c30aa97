/-
  Reading formulas.

  The grammar, loosest binding first:

      formula     := disjunction (("→" | "↔") disjunction)?
      disjunction := exclusive ("∨" exclusive)*
      exclusive   := conjunction ("⊕" conjunction)*
      conjunction := atom ("∧" atom)*
      atom        := "¬" atom | "(" formula ")" | "T" | "F" | identifier

  Chains lean to the left.  An atom may lie under at most `maxNesting` negations
  and parentheses.
-/
import Deduction.Source.Token

namespace Deduction.Source

open Text Text.Scanner

/-- The deepest nesting of negations and parentheses. -/
def maxNesting : Nat := 128

/-- The formula that an identifier stands for. -/
def leaf (name : String) : Formula :=
  if name = "T" then .verum else if name = "F" then .falsum else .atom name

/-- One or more operands joined by the connective `c`, leaning to the left. -/
def chain (c : Connective) (operand : Scanner Formula) : Scanner Formula := do
  let φ ← operand
  let ψs ← many (connective c *> operand)
  return ψs.foldl (.binary c) φ

/-- A disjunction over the given atoms. -/
def disjunction (atom : Scanner Formula) : Scanner Formula :=
  chain .or (chain .xor (chain .and atom))

/-- A formula over the given atoms.  The two arrows take exactly two operands. -/
def formulaOver (atom : Scanner Formula) : Scanner Formula := do
  let φ ← disjunction atom
  let tail ← optional do
    let c ← arrow
    return (c, ← disjunction atom)
  match tail with
  | none => return φ
  | some (c, ψ) => return .binary c φ ψ

/-- An atom with room for `room - 1` more negations and parentheses around an
    inner one.  Without room the text is nested too deeply. -/
def atom : (room : Nat) → Scanner Formula
  | 0 => stop .tooDeep
  | room + 1 => token <|
    orElse (do
      let _ ← negation
      return .not (← atom room)) <|
    orElse (do
      word "("
      let φ ← formulaOver (atom room)
      token (word ")")
      return φ) <|
    leaf <$> identifier

/-- A formula. -/
def formula : Scanner Formula := formulaOver (atom (maxNesting + 1))

end Deduction.Source
