/-
  Rules of inference and of equivalence.

  * An inference rule has antecedents and consequents, all of them templates.
    It leads from premises to a conclusion if, for some arrangement of the
    premises and some consequent, one instance of the implication from the
    antecedents to the consequent is the implication from the premises to the
    conclusion.
  * An equivalence rule is a list of axioms, pairs of templates.  It relates
    two formulas that agree everywhere except at subformulas that are, in one
    direction or the other, the two sides of an instance of an axiom.
-/
import Deduction.Matching
import Deduction.Rule.Arrangement
import Deduction.Rule.Fault

namespace Deduction

/-- An inference rule. -/
structure InferenceRule where
  antecedents : List Formula
  consequents : List Formula
  deriving DecidableEq

namespace InferenceRule

/-- The number of lines that the rule is applied to. -/
def arity (r : InferenceRule) : Nat := r.antecedents.length

/-- Whether the premises, in this order, lead to the conclusion. -/
def leads (r : InferenceRule) (conclusion : Formula) (premises : List Formula) : Bool :=
  r.consequents.any fun c =>
    (Formula.implies (.conjunction r.antecedents) c).unifies
      (.implies (.conjunction premises) conclusion)

/-- Whether the premises, in some order, lead to the conclusion. -/
def justifies (r : InferenceRule) (premises : List Formula) (conclusion : Formula) : Bool :=
  premises.length = r.arity && someArrangement (r.leads conclusion) premises

end InferenceRule

/-- An equivalence rule. -/
structure EquivalenceRule where
  axioms : List (Formula × Formula)
  deriving DecidableEq

namespace EquivalenceRule

/-- Whether `φ` and `ψ` are, in one order or the other, the two sides of an
    instance of an axiom. -/
def relates (r : EquivalenceRule) (φ ψ : Formula) : Bool :=
  r.axioms.any fun a =>
    (Formula.iff a.1 a.2).unifies (.iff φ ψ) || (Formula.iff a.1 a.2).unifies (.iff ψ φ)

/-- Whether the rule turns the first formula into the second: the two nodes are
    the same and their children match, or an axiom relates the two formulas as
    they stand. -/
def rewrites (r : EquivalenceRule) : Formula → Formula → Bool
  | .not φ, .not ψ => r.rewrites φ ψ || r.relates (.not φ) (.not ψ)
  | .binary c φ₁ ψ₁, .binary d φ₂ ψ₂ =>
    (c = d && r.rewrites φ₁ φ₂ && r.rewrites ψ₁ ψ₂) ||
      r.relates (.binary c φ₁ ψ₁) (.binary d φ₂ ψ₂)
  | .verum, .verum => true
  | .falsum, .falsum => true
  | .atom a, .atom b => a = b || r.relates (.atom a) (.atom b)
  | φ, ψ => r.relates φ ψ

end EquivalenceRule

/-- The rules that a catalog holds. -/
inductive Rule where
  | inference (r : InferenceRule)
  | equivalence (r : EquivalenceRule)
  deriving DecidableEq

namespace Rule

/-- Whether a rule may be used in an equivalence proof. -/
def isEquivalence : Rule → Bool
  | inference _ => false
  | equivalence _ => true

/-- Accepts the conclusion if the rule leads to it from the premises. -/
def justify : Rule → List Formula → Formula → Except RuleFault Unit
  | inference r, premises, conclusion => do
    RuleFault.expectCount r.arity premises.length
    if r.justifies premises conclusion then .ok () else .error .inferenceMismatch
  | equivalence r, [premise], conclusion =>
    if r.rewrites premise conclusion then .ok () else .error .equivalenceMismatch
  | equivalence _, premises, _ => .error (.dependencyCount 1 premises.length)

end Rule

end Deduction
