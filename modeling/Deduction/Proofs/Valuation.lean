/-
  Truth of formulas.

  A valuation says which variables are true.  A metavariable is read as one
  more variable, so templates have truth values too, and the truth of an
  instance of a template is the truth of the template under another valuation.

  * `Formula.eval`: the truth value of a formula;
  * `Valuation.Satisfies`: a valuation makes all formulas of a list true;
  * `Formula.subst`: the instances of a template, with `Formula.eval_subst`;
  * `Valuation.table`: the finitely many rows of a truth table.  What depends
    on finitely many variables only holds of all valuations iff it holds in
    every row (`Valuation.forall_iff_table`).
-/
import Deduction.Formula.Basic
import Mathlib.Data.List.Dedup
import Mathlib.Data.List.Sublists

namespace Deduction

/-- What a truth value is assigned to. -/
inductive Variable where
  | atom (name : String)
  | metavar (name : String)
  deriving DecidableEq

/-- An assignment of truth values. -/
def Valuation : Type := Variable → Bool

/-- The truth function of a connective. -/
def Connective.apply : Connective → Bool → Bool → Bool
  | .and, a, b => a && b
  | .or, a, b => a || b
  | .xor, a, b => a ^^ b
  | .implies, a, b => !a || b
  | .iff, a, b => a == b

namespace Formula

/-- The truth value of a formula. -/
def eval (v : Valuation) : Formula → Bool
  | verum => true
  | falsum => false
  | atom a => v (.atom a)
  | metavar x => v (.metavar x)
  | not φ => !φ.eval v
  | binary c φ ψ => c.apply (φ.eval v) (ψ.eval v)

/-- The instance of a template under an assignment of formulas to its
    metavariables. -/
def subst (σ : String → Formula) : Formula → Formula
  | metavar x => σ x
  | not φ => not (φ.subst σ)
  | binary c φ ψ => binary c (φ.subst σ) (ψ.subst σ)
  | φ => φ

/-- The variables of a formula, from left to right. -/
def vars : Formula → List Variable
  | verum | falsum => []
  | atom a => [.atom a]
  | metavar x => [.metavar x]
  | not φ => φ.vars
  | binary _ φ ψ => φ.vars ++ ψ.vars

end Formula

namespace Valuation

/-- The valuation makes all formulas of the list true. -/
def Satisfies (v : Valuation) (φs : List Formula) : Prop := ∀ φ ∈ φs, φ.eval v = true

instance (v : Valuation) (φs : List Formula) : Decidable (v.Satisfies φs) :=
  inferInstanceAs (Decidable (∀ φ ∈ φs, φ.eval v = true))

/-- The valuation that reads a metavariable as the formula assigned to it. -/
def under (v : Valuation) (σ : String → Formula) : Valuation
  | .atom a => v (.atom a)
  | .metavar x => (σ x).eval v

/-- The rows of the truth table over the given variables: one valuation for
    each choice of true ones. -/
def table (xs : List Variable) : List Valuation := xs.dedup.sublists.map fun ys x => decide (x ∈ ys)

end Valuation

namespace Formula

variable {v w : Valuation}

/-- An instance is true iff its template is, with the metavariables read as
    what is assigned to them. -/
theorem eval_subst (v : Valuation) (σ : String → Formula) (φ : Formula) :
    (φ.subst σ).eval v = φ.eval (v.under σ) := by
  induction φ with
  | verum | falsum | atom | metavar => rfl
  | not φ ih => simp only [subst, eval, ih]
  | binary c φ ψ ih₁ ih₂ => simp only [subst, eval, ih₁, ih₂]

/-- The truth value of a formula depends on its variables only. -/
theorem eval_congr {φ : Formula} (h : ∀ x ∈ φ.vars, v x = w x) : φ.eval v = φ.eval w := by
  induction φ with
  | verum | falsum => rfl
  | atom | metavar => exact h _ (by simp [vars])
  | not φ ih => rw [eval, eval, ih h]
  | binary c φ ψ ih₁ ih₂ =>
    rw [eval, eval, ih₁ fun x hx => h x (List.mem_append_left _ hx),
      ih₂ fun x hx => h x (List.mem_append_right _ hx)]

theorem eval_implies {φ ψ : Formula} :
    (implies φ ψ).eval v = true ↔ (φ.eval v = true → ψ.eval v = true) := by
  simp only [implies, eval, Connective.apply]
  cases φ.eval v <;> simp

theorem eval_and {φ ψ : Formula} :
    (and φ ψ).eval v = true ↔ φ.eval v = true ∧ ψ.eval v = true := by
  simp only [and, eval, Connective.apply, Bool.and_eq_true]

/-- A conjunction is true iff all its members are. -/
theorem eval_conjunction {φs : List Formula} : (conjunction φs).eval v = true ↔ v.Satisfies φs := by
  have h : ∀ ψ : Formula,
      (φs.foldl and ψ).eval v = true ↔ ψ.eval v = true ∧ v.Satisfies φs := by
    induction φs with
    | nil => simp [Valuation.Satisfies]
    | cons φ φs ih =>
      intro ψ
      rw [List.foldl_cons, ih, eval_and]
      simp [Valuation.Satisfies, and_assoc]
  simpa [conjunction, eval] using h verum

end Formula

namespace Valuation

theorem satisfies_map_subst {v : Valuation} {σ : String → Formula} {φs : List Formula} :
    v.Satisfies (φs.map (·.subst σ)) ↔ (v.under σ).Satisfies φs := by
  simp only [Satisfies, List.forall_mem_map, Formula.eval_subst]

/-- Every valuation agrees, on the variables of the table, with one of the
    rows. -/
theorem exists_mem_table (v : Valuation) (xs : List Variable) :
    ∃ w ∈ table xs, ∀ x ∈ xs, v x = w x := by
  refine ⟨fun x => decide (x ∈ xs.dedup.filter fun y => v y), ?_, fun x hx => ?_⟩
  · exact List.mem_map.2 ⟨_, List.mem_sublists.2 List.filter_sublist, rfl⟩
  · simp [hx]

/-- **Truth tables decide.**  A property that depends on the variables `xs`
    only holds of all valuations iff it holds in every row of their table. -/
theorem forall_iff_table {P : Valuation → Prop} {xs : List Variable}
    (hP : ∀ v w : Valuation, (∀ x ∈ xs, v x = w x) → P w → P v) :
    (∀ v, P v) ↔ ∀ v ∈ table xs, P v := by
  constructor
  · intro h v _; exact h v
  · intro h v
    obtain ⟨w, hw, hvw⟩ := exists_mem_table v xs
    exact hP v w hvw (h w hw)

end Valuation

end Deduction
