/-
  The standard catalog: rules of natural deduction, the laws of propositional
  equivalence, and the laws that Boolean algebra knows under names of its own.
-/
import Deduction.Rule.Catalog

namespace Deduction

namespace Catalog.Standard

/-- An inference rule. -/
def infer (antecedents consequents : List Formula) : Rule := .inference ⟨antecedents, consequents⟩

/-- An equivalence rule. -/
def equate (axioms : List (Formula × Formula)) : Rule := .equivalence ⟨axioms⟩

/-! ## Natural deduction -/

/-- `⊢ A ∨ ¬A` -/
def excludedMiddle : Rule :=
  let a := .metavar "A"
  infer [] [.or a (.not a)]

/-- `A, A → B ⊢ B` -/
def modusPonens : Rule :=
  let a := .metavar "A"
  let b := .metavar "B"
  infer [a, .implies a b] [b]

/-- `A, B ⊢ A ∧ B` -/
def introAnd : Rule :=
  let a := .metavar "A"
  let b := .metavar "B"
  infer [a, b] [.and a b]

/-- `A ∧ B ⊢ A` and `A ∧ B ⊢ B` -/
def elimAnd : Rule :=
  let a := .metavar "A"
  let b := .metavar "B"
  infer [.and a b] [a, b]

/-- `A ⊢ A ∨ B` and `A ⊢ B ∨ A` -/
def introOr : Rule :=
  let a := .metavar "A"
  let b := .metavar "B"
  infer [a] [.or a b, .or b a]

/-- `A ∨ B, ¬A ⊢ B` -/
def elimOr : Rule :=
  let a := .metavar "A"
  let b := .metavar "B"
  infer [.or a b, .not a] [b]

/-- `A ∨ B, A → C, B → C ⊢ C` -/
def proofByCases : Rule :=
  let a := .metavar "A"
  let b := .metavar "B"
  let c := .metavar "C"
  infer [.or a b, .implies a c, .implies b c] [c]

/-! ## Laws of propositional equivalence -/

/-- `p ⊕ q ≡ (p ∧ ¬q) ∨ (¬p ∧ q)` and `p ⊕ q ≡ (p ∨ q) ∧ (¬p ∨ ¬q)` -/
def definitionOfXor : Rule :=
  let p := .metavar "p"
  let q := .metavar "q"
  equate [(.xor p q, .or (.and p (.not q)) (.and (.not p) q)),
    (.xor p q, .and (.or p q) (.or (.not p) (.not q)))]

/-- `p ↔ q ≡ (p → q) ∧ (q → p)` -/
def definitionOfBiconditional : Rule :=
  let p := .metavar "p"
  let q := .metavar "q"
  equate [(.iff p q, .and (.implies p q) (.implies q p))]

/-- `p ∧ T ≡ p` and `p ∨ F ≡ p` -/
def identity : Rule :=
  let p := .metavar "p"
  equate [(.and p .verum, p), (.or p .falsum, p)]

/-- `p ∨ T ≡ T` and `p ∧ F ≡ F` -/
def domination : Rule :=
  let p := .metavar "p"
  equate [(.or p .verum, .verum), (.and p .falsum, .falsum)]

/-- `p ∨ p ≡ p` and `p ∧ p ≡ p` -/
def idempotency : Rule :=
  let p := .metavar "p"
  equate [(.or p p, p), (.and p p, p)]

/-- `p ∨ q ≡ q ∨ p` and `p ∧ q ≡ q ∧ p` -/
def commutativity : Rule :=
  let p := .metavar "p"
  let q := .metavar "q"
  equate [(.or p q, .or q p), (.and p q, .and q p)]

/-- `(p ∨ q) ∨ r ≡ p ∨ (q ∨ r)` and `(p ∧ q) ∧ r ≡ p ∧ (q ∧ r)` -/
def associativity : Rule :=
  let p := .metavar "p"
  let q := .metavar "q"
  let r := .metavar "r"
  equate [(.or (.or p q) r, .or p (.or q r)), (.and (.and p q) r, .and p (.and q r))]

/-- `p ∧ (q ∨ r) ≡ (p ∧ q) ∨ (p ∧ r)` and `p ∨ (q ∧ r) ≡ (p ∨ q) ∧ (p ∨ r)` -/
def distributivity : Rule :=
  let p := .metavar "p"
  let q := .metavar "q"
  let r := .metavar "r"
  equate [(.and p (.or q r), .or (.and p q) (.and p r)),
    (.or p (.and q r), .and (.or p q) (.or p r))]

/-- `p ∨ ¬p ≡ T` and `p ∧ ¬p ≡ F` -/
def negation : Rule :=
  let p := .metavar "p"
  equate [(.or p (.not p), .verum), (.and p (.not p), .falsum)]

/-- `¬(p ∨ q) ≡ ¬p ∧ ¬q` and `¬(p ∧ q) ≡ ¬p ∨ ¬q` -/
def deMorgan : Rule :=
  let p := .metavar "p"
  let q := .metavar "q"
  equate [(.not (.or p q), .and (.not p) (.not q)), (.not (.and p q), .or (.not p) (.not q))]

/-- `¬¬p ≡ p` -/
def doubleNegation : Rule :=
  let p := .metavar "p"
  equate [(.not (.not p), p)]

/-- `p → q ≡ ¬p ∨ q` -/
def lawOfImplication : Rule :=
  let p := .metavar "p"
  let q := .metavar "q"
  equate [(.implies p q, .or (.not p) q)]

/-- `p → q ≡ ¬q → ¬p` -/
def contrapositive : Rule :=
  let p := .metavar "p"
  let q := .metavar "q"
  equate [(.implies p q, .implies (.not q) (.not p))]

/-! ## Boolean algebra -/

/-- `(X ∧ Y) ∨ (X ∧ ¬Y) ≡ X` and `(X ∨ Y) ∧ (X ∨ ¬Y) ≡ X` -/
def uniting : Rule :=
  let x := .metavar "X"
  let y := .metavar "Y"
  equate [(.or (.and x y) (.and x (.not y)), x), (.and (.or x y) (.or x (.not y)), x)]

/-- `X ∨ (X ∧ Y) ≡ X`, `X ∧ (X ∨ Y) ≡ X`, `(X ∨ ¬Y) ∧ Y ≡ X ∧ Y` and
    `(X ∧ ¬Y) ∨ Y ≡ X ∨ Y` -/
def absorption : Rule :=
  let x := .metavar "X"
  let y := .metavar "Y"
  equate [(.or x (.and x y), x), (.and x (.or x y), x),
    (.and (.or x (.not y)) y, .and x y), (.or (.and x (.not y)) y, .or x y)]

/-- `((X ∧ Y) ∨ (Y ∧ Z)) ∨ (¬X ∧ Z) ≡ (X ∧ Y) ∨ (¬X ∧ Z)` and its dual -/
def consensus : Rule :=
  let x := .metavar "X"
  let y := .metavar "Y"
  let z := .metavar "Z"
  equate [
    (.or (.or (.and x y) (.and y z)) (.and (.not x) z), .or (.and x y) (.and (.not x) z)),
    (.and (.and (.or x y) (.or y z)) (.or (.not x) z), .and (.or x y) (.or (.not x) z))]

/-- Exchanges `(X ∨ Y) ∧ (¬X ∨ Z)` and `(X ∧ Y) ∨ (¬X ∧ Z)`, listed in both
    directions.  The two sides are not equivalent: where `X` holds, the first
    is `Z` and the second is `Y`. -/
def factoring : Rule :=
  let x := .metavar "X"
  let y := .metavar "Y"
  let z := .metavar "Z"
  equate [
    (.and (.or x y) (.or (.not x) z), .or (.and x y) (.and (.not x) z)),
    (.or (.and x y) (.and (.not x) z), .and (.or x y) (.or (.not x) z))]

end Catalog.Standard

open Catalog.Standard in
/-- The standard catalog.  Complementarity, null and involution are further
    names of negation, domination and double negation. -/
def Catalog.standard : Catalog where
  entries := [
    ("excluded middle", excludedMiddle),
    ("modus ponens", modusPonens),
    ("intro and", introAnd),
    ("elim and", elimAnd),
    ("intro or", introOr),
    ("elim or", elimOr),
    ("proof by cases", proofByCases),
    ("definition of xor", definitionOfXor),
    ("definition of biconditional", definitionOfBiconditional),
    ("identity", identity),
    ("domination", domination),
    ("idempotency", idempotency),
    ("commutativity", commutativity),
    ("associativity", associativity),
    ("distributivity", distributivity),
    ("negation", negation),
    ("demorgan's law", deMorgan),
    ("double negation", doubleNegation),
    ("law of implication", lawOfImplication),
    ("contrapositive", contrapositive),
    ("complementarity", negation),
    ("null", domination),
    ("involution", doubleNegation),
    ("uniting", uniting),
    ("absorption", absorption),
    ("consensus", consensus),
    ("factoring", factoring)]

end Deduction
