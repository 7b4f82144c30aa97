/-
  Which rules are logically correct.

  A rule is *correct* if it never leads from truth to falsity: what an
  inference rule justifies is true where its premises are, and the two sides of
  a rewriting have the same truth value.  A rule is *valid* if its templates
  have this property.  Validity carries over to everything that the matcher
  accepts, through the order of the premises, the choice of a consequent, the
  direction of an axiom and the place of a rewriting (`Rule.Valid.correct`).

  Validity is decided by truth tables.  All rules of the standard catalog but
  one are valid; `factoring` is not even correct (`standard_correct_iff`).
-/
import Deduction.Proofs.Arrangement
import Deduction.Proofs.Matching
import Deduction.Rule.Standard

namespace Deduction

namespace InferenceRule

/-- Every instance of the antecedents entails the same instance of each of the
    consequents. -/
def TruthPreserving (r : InferenceRule) : Prop :=
  ∀ (σ : String → Formula) (v : Valuation), v.Satisfies (r.antecedents.map (·.subst σ)) →
    v.Satisfies (r.consequents.map (·.subst σ))

/-- The conclusions that the rule justifies are true where the premises are. -/
def Correct (r : InferenceRule) : Prop :=
  ∀ premises conclusion, r.justifies premises conclusion = true →
    ∀ v : Valuation, v.Satisfies premises → conclusion.eval v = true

theorem TruthPreserving.of_leads {r : InferenceRule} (hr : r.TruthPreserving)
    {premises : List Formula} {conclusion : Formula} (h : r.leads conclusion premises = true)
    {v : Valuation} (hv : v.Satisfies premises) : conclusion.eval v = true := by
  obtain ⟨c, hc, hu⟩ := List.any_eq_true.1 h
  obtain ⟨σ, hσ⟩ := Formula.exists_subst_of_unifies hu
  simp only [Formula.implies, Formula.subst, Formula.binary.injEq, true_and] at hσ
  obtain ⟨hpremises, rfl⟩ := hσ
  have hant : v.Satisfies (r.antecedents.map (·.subst σ)) := by
    rw [Valuation.satisfies_map_subst, ← Formula.eval_conjunction, ← Formula.eval_subst,
      hpremises, Formula.eval_conjunction]
    exact hv
  exact hr σ v hant _ (List.mem_map_of_mem hc)

/-- A truth-preserving rule is correct: an arrangement of true premises is one
    of true premises. -/
theorem TruthPreserving.correct {r : InferenceRule} (hr : r.TruthPreserving) : r.Correct := by
  intro premises conclusion h v hv
  obtain ⟨-, h⟩ := Bool.and_eq_true_iff.1 h
  obtain ⟨ys, hys, hleads⟩ := someArrangement_eq_true.1 h
  exact hr.of_leads hleads fun φ hφ => hv φ (hys.subset hφ)

/-- The templates need to be considered for themselves only: their instances
    have the truth values that the templates have under other valuations. -/
theorem truthPreserving_iff {r : InferenceRule} :
    r.TruthPreserving ↔ ∀ v : Valuation, v.Satisfies r.antecedents → v.Satisfies r.consequents := by
  simp only [TruthPreserving, Valuation.satisfies_map_subst]
  constructor
  · intro h v hv
    have hself : v.under .metavar = v := by funext x; cases x <;> rfl
    have := h .metavar v
    rw [hself] at this
    exact this hv
  · intro h σ v hv; exact h (v.under σ) hv

/-- The variables of the templates. -/
def vars (r : InferenceRule) : List Variable :=
  (r.antecedents ++ r.consequents).flatMap Formula.vars

theorem truthPreserving_iff_table {r : InferenceRule} :
    (∀ v ∈ Valuation.table r.vars, v.Satisfies r.antecedents → v.Satisfies r.consequents) ↔
      r.TruthPreserving := by
  rw [truthPreserving_iff]
  refine (Valuation.forall_iff_table fun v w hvw hw hv φ hφ => ?_).symm
  have key : ∀ ψ ∈ r.antecedents ++ r.consequents, ψ.eval v = ψ.eval w := fun ψ hψ =>
    Formula.eval_congr fun x hx => hvw x (List.mem_flatMap.2 ⟨ψ, hψ, hx⟩)
  rw [key φ (List.mem_append_right _ hφ)]
  refine hw (fun ψ hψ => ?_) φ hφ
  rw [← key ψ (List.mem_append_left _ hψ)]
  exact hv ψ hψ

instance (r : InferenceRule) : Decidable r.TruthPreserving :=
  decidable_of_iff _ truthPreserving_iff_table

end InferenceRule

namespace EquivalenceRule

/-- The two sides of every axiom agree under every valuation. -/
def Valid (r : EquivalenceRule) : Prop := ∀ a ∈ r.axioms, ∀ v : Valuation, a.1.eval v = a.2.eval v

/-- A formula and what the rule turns it into agree under every valuation. -/
def Correct (r : EquivalenceRule) : Prop :=
  ∀ φ ψ, r.rewrites φ ψ = true → ∀ v : Valuation, φ.eval v = ψ.eval v

theorem Valid.of_unifies {r : EquivalenceRule} (hr : r.Valid) {a : Formula × Formula}
    (ha : a ∈ r.axioms) {φ ψ : Formula} (h : (Formula.iff a.1 a.2).unifies (.iff φ ψ) = true)
    (v : Valuation) : φ.eval v = ψ.eval v := by
  obtain ⟨σ, hσ⟩ := Formula.exists_subst_of_unifies h
  simp only [Formula.iff, Formula.subst, Formula.binary.injEq, true_and] at hσ
  rw [← hσ.1, ← hσ.2, Formula.eval_subst, Formula.eval_subst]
  exact hr a ha (v.under σ)

theorem Valid.of_relates {r : EquivalenceRule} (hr : r.Valid) {φ ψ : Formula}
    (h : r.relates φ ψ = true) (v : Valuation) : φ.eval v = ψ.eval v := by
  obtain ⟨a, ha, h⟩ := List.any_eq_true.1 h
  rcases Bool.or_eq_true_iff.1 h with h | h
  · exact hr.of_unifies ha h v
  · exact (hr.of_unifies ha h v).symm

/-- A valid rule is correct: truth values are a congruence. -/
theorem Valid.correct {r : EquivalenceRule} (hr : r.Valid) : r.Correct := by
  intro φ ψ h v
  fun_induction r.rewrites φ ψ with
  | case1 φ ψ ih =>
    rcases Bool.or_eq_true_iff.1 h with h | h
    · rw [Formula.eval, Formula.eval, ih h]
    · exact hr.of_relates h v
  | case2 c φ₁ ψ₁ d φ₂ ψ₂ ih₁ ih₂ =>
    rcases Bool.or_eq_true_iff.1 h with h | h
    · simp only [Bool.and_eq_true, decide_eq_true_eq] at h
      obtain ⟨⟨rfl, h₁⟩, h₂⟩ := h
      rw [Formula.eval, Formula.eval, ih₁ h₁, ih₂ h₂]
    · exact hr.of_relates h v
  | case3 | case4 => rfl
  | case5 a b =>
    rcases Bool.or_eq_true_iff.1 h with h | h
    · rw [of_decide_eq_true h]
    · exact hr.of_relates h v
  | case6 φ ψ => exact hr.of_relates h v

theorem valid_iff_table {r : EquivalenceRule} :
    (∀ a ∈ r.axioms, ∀ v ∈ Valuation.table (a.1.vars ++ a.2.vars), a.1.eval v = a.2.eval v) ↔
      r.Valid := by
  refine forall₂_congr fun a _ => (Valuation.forall_iff_table fun v w hvw h => ?_).symm
  rw [Formula.eval_congr fun x hx => hvw x (List.mem_append_left _ hx),
    Formula.eval_congr fun x hx => hvw x (List.mem_append_right _ hx)]
  exact h

instance (r : EquivalenceRule) : Decidable r.Valid := decidable_of_iff _ valid_iff_table

end EquivalenceRule

namespace Rule

/-- The templates of a rule preserve truth, or are equivalent in pairs. -/
def Valid : Rule → Prop
  | inference r => r.TruthPreserving
  | equivalence r => r.Valid

/-- Everything that a rule accepts is logically correct. -/
def Correct : Rule → Prop
  | inference r => r.Correct
  | equivalence r => r.Correct

instance : ∀ r : Rule, Decidable r.Valid
  | inference r => inferInstanceAs (Decidable r.TruthPreserving)
  | equivalence r => inferInstanceAs (Decidable r.Valid)

/-- **Valid rules are correct on everything they accept.** -/
theorem Valid.correct : ∀ {r : Rule}, r.Valid → r.Correct
  | inference _, h => InferenceRule.TruthPreserving.correct h
  | equivalence _, h => EquivalenceRule.Valid.correct h

/-- The rule leads from the premises to the conclusion. -/
def Justifies : Rule → List Formula → Formula → Prop
  | inference r, premises, conclusion => r.justifies premises conclusion = true
  | equivalence r, premises, conclusion =>
    ∃ premise, premises = [premise] ∧ r.rewrites premise conclusion = true

theorem justify_eq_ok {r : Rule} {premises : List Formula} {conclusion : Formula} :
    r.justify premises conclusion = .ok () ↔ r.Justifies premises conclusion := by
  cases r with
  | inference r =>
    simp only [justify, Justifies]
    by_cases hj : r.justifies premises conclusion = true
    · have hcount : r.arity = premises.length := (of_decide_eq_true (Bool.and_eq_true_iff.1 hj).1).symm
      simp [RuleFault.expectCount, hcount, hj, bind, Except.bind]
    · by_cases hcount : r.arity = premises.length <;>
        simp [RuleFault.expectCount, hcount, hj, bind, Except.bind]
  | equivalence r =>
    match premises with
    | [premise] =>
      by_cases hj : r.rewrites premise conclusion = true <;> simp [justify, Justifies, hj]
    | [] | _ :: _ :: _ => simp [justify, Justifies]

/-- A line that a correct rule justifies is true where the cited lines are. -/
theorem Correct.eval_of_justifies {r : Rule} (hr : r.Correct) {premises : List Formula}
    {conclusion : Formula} (h : r.Justifies premises conclusion) {v : Valuation}
    (hv : v.Satisfies premises) : conclusion.eval v = true := by
  cases r with
  | inference r => exact hr premises conclusion h v hv
  | equivalence r =>
    obtain ⟨premise, rfl, hj⟩ := h
    rw [← hr premise conclusion hj v]
    exact hv premise (List.mem_singleton_self premise)

end Rule

/-! ## The standard catalog -/

namespace Catalog

theorem mem_entries_of_get? {c : Catalog} {name : String} {rule : Rule}
    (h : c.get? name = some rule) : (name, rule) ∈ c.entries := by
  obtain ⟨l₁, l₂, hl, -⟩ := List.lookup_eq_some_iff.1 h
  rw [hl]; simp

/-- The truth tables of the standard rules. -/
theorem standard_valid_iff :
    ∀ e ∈ standard.entries, e.2.Valid ↔ e.1 ≠ "factoring" := by decide +kernel

namespace Standard

/-- `(x ∨ y) ∧ (¬x ∨ z)` -/
def factored : Formula :=
  .and (.or (.atom "x") (.atom "y")) (.or (.not (.atom "x")) (.atom "z"))

/-- `(x ∧ y) ∨ (¬x ∧ z)` -/
def unfactored : Formula :=
  .or (.and (.atom "x") (.atom "y")) (.and (.not (.atom "x")) (.atom "z"))

/-- The rule `factoring` turns the one formula into the other, but where `x`
    and `y` are true and `z` is false only the second one is true. -/
theorem factoring_unsound : ∃ r, standard.getEquivalence? "factoring" = some r ∧
    r.rewrites factored unfactored = true ∧
      factored.eval (fun x => x ∈ [.atom "x", .atom "y"]) = false ∧
        unfactored.eval (fun x => x ∈ [.atom "x", .atom "y"]) = true :=
  ⟨_, rfl, by decide +kernel⟩

theorem factoring_not_correct : ¬ factoring.Correct := by
  intro hc
  have := hc factored unfactored (by decide +kernel) fun x => x ∈ [.atom "x", .atom "y"]
  revert this
  decide

end Standard

/-- **The standard rules are correct on everything they accept, all but one.** -/
theorem standard_correct_iff {name : String} {rule : Rule} (h : standard.get? name = some rule) :
    rule.Correct ↔ name ≠ "factoring" := by
  have hvalid := standard_valid_iff _ (mem_entries_of_get? h)
  constructor
  · rintro hc rfl
    have hr : rule = Standard.factoring := by
      have : standard.get? "factoring" = some Standard.factoring := by decide +kernel
      rw [this] at h
      exact (Option.some.inj h).symm
    exact Standard.factoring_not_correct (hr ▸ hc)
  · intro hne; exact (hvalid.2 hne).correct

/-- Distributivity, cited under its own name, is correct. -/
theorem standard_correct_distributivity :
    standard.get? "distributivity" = some Standard.distributivity ∧
      Standard.distributivity.Correct :=
  have h : standard.get? "distributivity" = some Standard.distributivity := by decide +kernel
  ⟨h, (standard_correct_iff h).2 (by decide)⟩

end Catalog

end Deduction
