/-
  Proofs as they are read and written.

  A proof declares its atoms and its given formulas, says in which mode it is
  to be checked, and lists its lines.  `Proof.text` is the source form.
-/
import Deduction.Line

namespace Deduction

/-- Appends `x` unless it is there already. -/
def addNew {α : Type} [DecidableEq α] (xs : List α) (x : α) : List α :=
  if x ∈ xs then xs else xs ++ [x]

/-- The declared atoms and the given formulas, in the order of their first
    declaration and without repetition. -/
structure Declarations where
  atoms : List String
  givens : List Formula
  deriving DecidableEq

namespace Declarations

/-- No declarations. -/
def empty : Declarations := ⟨[], []⟩

/-- The declarations with the given entries; repeated ones count once. -/
def ofLists (atoms : List String) (givens : List Formula) : Declarations :=
  ⟨atoms.foldl addNew [], givens.foldl addNew []⟩

/-- The union of two declarations; the entries of the first keep their
    places. -/
def merge (d e : Declarations) : Declarations :=
  ⟨e.atoms.foldl addNew d.atoms, e.givens.foldl addNew d.givens⟩

/-- Whether an atom is declared. -/
def isDeclared (d : Declarations) (name : String) : Bool := name ∈ d.atoms

/-- Whether a formula is given. -/
def isGiven (d : Declarations) (φ : Formula) : Bool := φ ∈ d.givens

/-- One statement per line: the atoms, then the givens. -/
def text (d : Declarations) : String :=
  String.join (d.atoms.map fun name => "Let " ++ name ++ " be a proposition\n") ++
    String.join (d.givens.map fun φ => "Given " ++ φ.text ++ "\n")

end Declarations

/-- How a proof is checked. -/
inductive Mode where
  /-- Sub-proofs and all rules are allowed. -/
  | ordinary
  /-- Only givens and equivalence rules are allowed. -/
  | equivalence
  deriving DecidableEq

namespace Mode

/-- The header line that starts the lines of a proof. -/
def header : Mode → String
  | ordinary => "proof."
  | equivalence => "equivalence."

end Mode

/-- A proof: its mode, its declarations and its lines. -/
structure Proof where
  mode : Mode
  declarations : Declarations
  lines : List Line
  deriving DecidableEq

/-- The source form of a proof. -/
def Proof.text (p : Proof) : String :=
  p.declarations.text ++ p.mode.header ++ "\n" ++ String.join (p.lines.map fun l => l.text ++ "\n")

end Deduction
