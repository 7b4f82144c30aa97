/-
  One-way matching of rule templates against formulas.

  Only the template may hold metavariables.  `Formula.unify?` descends both
  trees at once and joins the bindings it collects; a metavariable that occurs
  twice has to match the same formula twice.

  * `Bindings`: finite maps from metavariables to formulas, seen through
    `lookup`;
  * `Bindings.merge?`: the union of two maps that agree where both are defined;
  * `Formula.unify?`: the bindings under which a template becomes its target.
-/
import Deduction.Formula.Basic

namespace Deduction

/-- A finite map from metavariables to formulas. -/
structure Bindings where
  entries : List (String × Formula)
  deriving DecidableEq

namespace Bindings

/-- The empty map. -/
def empty : Bindings := ⟨[]⟩

/-- The map with one binding. -/
def singleton (x : String) (φ : Formula) : Bindings := ⟨[(x, φ)]⟩

/-- The formula bound to `x`. -/
def lookup (s : Bindings) (x : String) : Option Formula := s.entries.lookup x

/-- The number of bindings. -/
def size (s : Bindings) : Nat := s.entries.length

/-- Whether nothing is bound. -/
def isEmpty (s : Bindings) : Bool := s.entries.isEmpty

/-- Binds `x` to `φ`, unless it is bound to another formula already. -/
def bind? (s : Bindings) (x : String) (φ : Formula) : Option Bindings :=
  match s.lookup x with
  | none => some ⟨s.entries ++ [(x, φ)]⟩
  | some ψ => if ψ = φ then some s else none

/-- The union of two maps, provided that they agree where both are defined. -/
def merge? (s t : Bindings) : Option Bindings :=
  t.entries.foldlM (fun s e => s.bind? e.1 e.2) s

end Bindings

namespace Formula

/-- The bindings that turn a template into the target, if there are any. -/
def unify? : Formula → Formula → Option Bindings
  | metavar x, target => some (.singleton x target)
  | verum, verum => some .empty
  | falsum, falsum => some .empty
  | atom a, atom b => if a = b then some .empty else none
  | not φ, not ψ => φ.unify? ψ
  | binary c φ₁ ψ₁, binary d φ₂ ψ₂ =>
    if c = d then do
      let s ← φ₁.unify? φ₂
      let t ← ψ₁.unify? ψ₂
      s.merge? t
    else none
  | _, _ => none

/-- Whether a template matches the target. -/
def unifies (template target : Formula) : Bool := (template.unify? target).isSome

end Formula

end Deduction
