/-
  Propositional formulas.

  A formula is built from the literals `T` and `F`, named atoms, negation and
  five binary connectives.  Rule templates also hold metavariables, which stand
  for arbitrary formulas; they never occur in what is read from a source text.

  * `Connective` with its binding strength (`precedence`, where a lower number
    binds tighter) and whether chains of it need no parentheses
    (`isAssociative`);
  * `Formula` with `size`, `conjunction` and `findUndeclared`;
  * `Formula.needsParens`: when an operand has to be parenthesized.
-/

namespace Deduction

/-- The binary connectives. -/
inductive Connective where
  | and
  | or
  | xor
  | implies
  | iff
  deriving DecidableEq

namespace Connective

/-- Binding strength; a lower number binds tighter. -/
def precedence : Connective → Nat
  | .and => 1
  | .xor => 2
  | .or => 3
  | .implies => 4
  | .iff => 5

/-- Whether a chain of this connective may be written without parentheses. -/
def isAssociative : Connective → Bool
  | .and | .or | .xor => true
  | .implies | .iff => false

end Connective

/-- Propositional formulas and, with `metavar`, rule templates. -/
inductive Formula where
  /-- The literal `T`. -/
  | verum
  /-- The literal `F`. -/
  | falsum
  /-- A propositional variable. -/
  | atom (name : String)
  /-- A placeholder of a rule template. -/
  | metavar (name : String)
  /-- Negation. -/
  | not (φ : Formula)
  /-- Application of a binary connective. -/
  | binary (c : Connective) (φ ψ : Formula)
  deriving DecidableEq

namespace Formula

/-- `φ ∧ ψ` -/
def and (φ ψ : Formula) : Formula := .binary .and φ ψ

/-- `φ ∨ ψ` -/
def or (φ ψ : Formula) : Formula := .binary .or φ ψ

/-- `φ ⊕ ψ` -/
def xor (φ ψ : Formula) : Formula := .binary .xor φ ψ

/-- `φ → ψ` -/
def implies (φ ψ : Formula) : Formula := .binary .implies φ ψ

/-- `φ ↔ ψ` -/
def iff (φ ψ : Formula) : Formula := .binary .iff φ ψ

/-- The conjunction `((T ∧ φ₁) ∧ φ₂) ∧ …`, nested to the left and starting
    from `T`. -/
def conjunction (φs : List Formula) : Formula := φs.foldl and verum

/-- Whether the outermost node is a binary connective. -/
def isBinary : Formula → Bool
  | binary .. => true
  | _ => false

/-- Binding strength of the outermost node: `0` unless it is binary. -/
def precedence : Formula → Nat
  | binary c _ _ => c.precedence
  | _ => 0

/-- The number of nodes. -/
def size : Formula → Nat
  | not φ => 1 + φ.size
  | binary _ φ ψ => 1 + φ.size + ψ.size
  | _ => 1

/-- The first atom, from left to right, that is not declared. -/
def findUndeclared (declared : String → Bool) : Formula → Option String
  | atom name => if declared name then none else some name
  | not φ => φ.findUndeclared declared
  | binary _ φ ψ => (φ.findUndeclared declared).or (ψ.findUndeclared declared)
  | _ => none

/-- The side of a binary connective on which an operand stands. -/
inductive Side where
  | left
  | right
  deriving DecidableEq

/-- Whether `φ` has to be parenthesized as an operand of `c`.  The connectives
    `→` and `↔` never chain, not even with each other; otherwise the tighter
    binding needs no parentheses, and a chain of one connective leans left. -/
def needsParens (c : Connective) (side : Side) : Formula → Bool
  | binary d _ _ =>
    if !d.isAssociative && !c.isAssociative then true
    else if d.precedence ≠ c.precedence then c.precedence < d.precedence
    else side = .right
  | _ => false

end Formula

end Deduction
