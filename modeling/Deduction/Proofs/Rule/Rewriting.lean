/-
  An equivalence rule rewrites in parallel, in any context.

  A context is a formula without metavariables in which some places are left
  open.  Two formulas are related by a rule if they are the same context, filled
  at each place with the two sides of an instance of an axiom, in one direction
  or the other (`Exchanges`).

  * `rewrites_fill`: what the rule does at the places of a context, it does to
    the filled context;
  * `exchanges_of_rewrites`: where the rule accepts two formulas, such a context
    can be read off, with a place for each pair that an axiom relates;
  * `rewrites_iff_exchanges`: hence rewriting is the exchange of the sides of
    axioms at any places, and it is symmetric, reflexive and a congruence.
-/
import Deduction.Proofs.RuleSoundness
import Mathlib.Data.Fin.VecNotation

namespace Deduction

/-- Whether a metavariable occurs. -/
def Formula.hasMetavars : Formula → Bool
  | metavar _ => true
  | not φ => φ.hasMetavars
  | binary _ φ ψ => φ.hasMetavars || ψ.hasMetavars
  | _ => false

/-! ## Contexts -/

/-- A formula without metavariables in which places are left open, counted from
    left to right. -/
inductive Context : (places : Nat) → Type where
  /-- A place that is left open. -/
  | hole : Context 1
  | verum : Context 0
  | falsum : Context 0
  | atom (name : String) : Context 0
  | not {n : Nat} (C : Context n) : Context n
  | binary {m n : Nat} (c : Connective) (C : Context m) (D : Context n) : Context (m + n)

namespace Context

/-- The formula that results from filling the places. -/
def fill : {n : Nat} → Context n → (Fin n → Formula) → Formula
  | _, hole, x => x 0
  | _, verum, _ => .verum
  | _, falsum, _ => .falsum
  | _, atom name, _ => .atom name
  | _, not C, x => .not (C.fill x)
  | _, @binary m n c C D, x =>
    .binary c (C.fill fun i => x (i.castAdd n)) (D.fill fun i => x (i.natAdd m))

theorem fill_binary {m n : Nat} (c : Connective) (C : Context m) (D : Context n)
    (x : Fin m → Formula) (y : Fin n → Formula) :
    (binary c C D).fill (Fin.append x y) = .binary c (C.fill x) (D.fill y) := by
  simp only [fill, Fin.append_left, Fin.append_right]

end Context

namespace EquivalenceRule

variable {r : EquivalenceRule} {φ ψ : Formula}

/-! ## Instances of axioms -/

/-- The two formulas are the sides of an instance of an axiom. -/
def Equates (r : EquivalenceRule) (φ ψ : Formula) : Prop :=
  ∃ a ∈ r.axioms, ∃ σ : String → Formula, a.1.subst σ = φ ∧ a.2.subst σ = ψ

theorem relates_iff : r.relates φ ψ = true ↔ r.Equates φ ψ ∨ r.Equates ψ φ := by
  have hsides : ∀ (a : Formula × Formula) (χ ξ : Formula),
      (Formula.iff a.1 a.2).unifies (.iff χ ξ) = true ↔
        ∃ σ : String → Formula, a.1.subst σ = χ ∧ a.2.subst σ = ξ := by
    intro a χ ξ
    simp only [Formula.unifies_iff, Formula.iff, Formula.subst, Formula.binary.injEq, true_and]
  simp only [relates, List.any_eq_true, Bool.or_eq_true, hsides, and_or_left, exists_or, Equates]

theorem rewrites_of_relates (h : r.relates φ ψ = true) : r.rewrites φ ψ = true := by
  fun_cases rewrites r φ ψ <;> simp_all

theorem rewrites_self (h : φ.hasMetavars = false) : r.rewrites φ φ = true := by
  induction φ with
  | verum | falsum => rfl
  | atom a => simp [rewrites]
  | metavar => cases h
  | not φ ih => simp [rewrites, ih h]
  | binary c φ ψ ih₁ ih₂ =>
    obtain ⟨h₁, h₂⟩ := Bool.or_eq_false_iff.1 h
    simp [rewrites, ih₁ h₁, ih₂ h₂]

/-! ## Rewriting in a context -/

/-- **Rewriting is a congruence.**  What the rule does at the places of a context,
    all at once, it does to the filled context. -/
theorem rewrites_fill {n : Nat} (C : Context n) {x y : Fin n → Formula}
    (h : ∀ i, r.rewrites (x i) (y i) = true) : r.rewrites (C.fill x) (C.fill y) = true := by
  induction C with
  | hole => exact h 0
  | verum | falsum => rfl
  | atom name => simp [Context.fill, rewrites]
  | not C ih => simp [Context.fill, rewrites, ih h]
  | @binary m n c C D ih₁ ih₂ =>
    have hC := ih₁ fun i => h (i.castAdd n)
    have hD := ih₂ fun i => h (i.natAdd m)
    simp [Context.fill, rewrites, hC, hD]

/-- The formulas are the same but for some places, at which the sides of axioms
    are exchanged. -/
def Exchanges (r : EquivalenceRule) (φ ψ : Formula) : Prop :=
  ∃ (n : Nat) (C : Context n) (x y : Fin n → Formula), φ = C.fill x ∧ ψ = C.fill y ∧
    ∀ i, r.Equates (x i) (y i) ∨ r.Equates (y i) (x i)

namespace Exchanges

variable {φ' ψ' : Formula}

theorem symm (h : r.Exchanges φ ψ) : r.Exchanges ψ φ := by
  obtain ⟨n, C, x, y, hφ, hψ, hxy⟩ := h
  exact ⟨n, C, y, x, hψ, hφ, fun i => (hxy i).symm⟩

/-- The whole formula is the place. -/
theorem of_relates (h : r.relates φ ψ = true) : r.Exchanges φ ψ :=
  ⟨1, .hole, fun _ => φ, fun _ => ψ, rfl, rfl, fun _ => relates_iff.1 h⟩

theorem of_closed (C : Context 0) : r.Exchanges (C.fill nofun) (C.fill nofun) :=
  ⟨0, C, nofun, nofun, rfl, rfl, nofun⟩

theorem not (h : r.Exchanges φ ψ) : r.Exchanges (.not φ) (.not ψ) := by
  obtain ⟨n, C, x, y, rfl, rfl, hxy⟩ := h
  exact ⟨n, .not C, x, y, rfl, rfl, hxy⟩

/-- The places on the left come before those on the right. -/
theorem binary (c : Connective) (h : r.Exchanges φ ψ) (h' : r.Exchanges φ' ψ') :
    r.Exchanges (.binary c φ φ') (.binary c ψ ψ') := by
  obtain ⟨m, C, x, y, rfl, rfl, hxy⟩ := h
  obtain ⟨n, D, x', y', rfl, rfl, hxy'⟩ := h'
  refine ⟨m + n, .binary c C D, Fin.append x x', Fin.append y y', (Context.fill_binary ..).symm,
    (Context.fill_binary ..).symm, fun i => ?_⟩
  induction i using Fin.addCases with
  | left i => simpa only [Fin.append_left] using hxy i
  | right i => simpa only [Fin.append_right] using hxy' i

end Exchanges

/-- Wherever the two nodes are the same and their children match, the context goes
    on; where they do not, an axiom relates the formulas as they stand. -/
theorem exchanges_of_rewrites (h : r.rewrites φ ψ = true) : r.Exchanges φ ψ := by
  fun_induction r.rewrites φ ψ with
  | case1 φ ψ ih =>
    rcases Bool.or_eq_true_iff.1 h with h | h
    · exact (ih h).not
    · exact .of_relates h
  | case2 c φ₁ ψ₁ d φ₂ ψ₂ ih₁ ih₂ =>
    rcases Bool.or_eq_true_iff.1 h with h | h
    · simp only [Bool.and_eq_true, decide_eq_true_eq] at h
      obtain ⟨⟨rfl, h₁⟩, h₂⟩ := h
      exact (ih₁ h₁).binary c (ih₂ h₂)
    · exact .of_relates h
  | case3 => exact .of_closed .verum
  | case4 => exact .of_closed .falsum
  | case5 a b =>
    rcases Bool.or_eq_true_iff.1 h with h | h
    · rw [of_decide_eq_true h]; exact .of_closed (.atom b)
    · exact .of_relates h
  | case6 φ ψ => exact .of_relates h

theorem rewrites_of_exchanges (h : r.Exchanges φ ψ) : r.rewrites φ ψ = true := by
  obtain ⟨n, C, x, y, rfl, rfl, hxy⟩ := h
  exact rewrites_fill C fun i => rewrites_of_relates (relates_iff.2 (hxy i))

theorem rewrites_symm (h : r.rewrites φ ψ = true) : r.rewrites ψ φ = true :=
  rewrites_of_exchanges (exchanges_of_rewrites h).symm

/-- **An equivalence rule exchanges the sides of its axioms, at any places of a
    formula at once.**  So rewriting is symmetric, it is reflexive on formulas
    without metavariables, and it may take place inside of any context. -/
theorem rewrites_iff_exchanges (r : EquivalenceRule) :
    (∀ φ ψ, r.rewrites φ ψ = true ↔
      ∃ (n : Nat) (C : Context n) (x y : Fin n → Formula), φ = C.fill x ∧ ψ = C.fill y ∧
        ∀ i, r.Equates (x i) (y i) ∨ r.Equates (y i) (x i)) ∧
    (∀ φ ψ, r.rewrites φ ψ = true ↔ r.rewrites ψ φ = true) ∧
    (∀ φ : Formula, φ.hasMetavars = false → r.rewrites φ φ = true) ∧
    ∀ (n : Nat) (D : Context n) (x y : Fin n → Formula),
      (∀ i, r.rewrites (x i) (y i) = true) → r.rewrites (D.fill x) (D.fill y) = true :=
  ⟨fun _ _ => ⟨exchanges_of_rewrites, rewrites_of_exchanges⟩,
    fun _ _ => ⟨rewrites_symm, rewrites_symm⟩, fun _ => rewrites_self,
    fun _ D _ _ => rewrites_fill D⟩

/-- De Morgan's law, forwards at one place of an implication and backwards at the
    other. -/
theorem rewrites_iff_exchanges_deMorgan :
    let p := Formula.atom "p"
    let q := Formula.atom "q"
    let D := Context.binary .implies .hole (.not .hole)
    let x := ![.not (.or p q), .or (.not p) (.not q)]
    let y := ![.and (.not p) (.not q), .not (.and p q)]
    ∃ r, Catalog.standard.getEquivalence? "demorgan's law" = some r ∧
      (∀ i, r.rewrites (x i) (y i) = true) ∧ r.rewrites (D.fill y) (D.fill x) = true ∧
      r.Exchanges (D.fill x) (D.fill y) ∧
      (D.fill x).hasMetavars = false ∧ r.rewrites (D.fill x) (D.fill x) = true := by
  intro p q D x y
  obtain ⟨r, hget, h₀, h₁⟩ : ∃ r, Catalog.standard.getEquivalence? "demorgan's law" = some r ∧
      r.rewrites (x 0) (y 0) = true ∧ r.rewrites (x 1) (y 1) = true :=
    ⟨_, rfl, by decide +kernel, by decide +kernel⟩
  have hplaces : ∀ i, r.rewrites (x i) (y i) = true := Fin.forall_fin_two.2 ⟨h₀, h₁⟩
  obtain ⟨hexchanges, hsymm, hself, hcontext⟩ := rewrites_iff_exchanges r
  have hfilled := hcontext 2 D x y hplaces
  exact ⟨r, hget, hplaces, (hsymm _ _).1 hfilled, (hexchanges _ _).1 hfilled, rfl, hself _ rfl⟩

end EquivalenceRule

end Deduction
