/-
  What an inference rule justifies.

  The premises and the conclusion are matched at once, as the implication from
  the conjunction of the premises to the conclusion.  The conjunction starts
  with `T` and is nested to the left, so it can be taken apart in one way only,
  even if the premises are conjunctions themselves
  (`Formula.conjunction_injective`).

  * `leads_iff`: premises in a fixed order are matched one by one, under one
    substitution;
  * `justifies_iff_positions`: the rule justifies the conclusion iff this is so
    for some permutation of the premises.
-/
import Deduction.Proofs.Arrangement
import Deduction.Proofs.Matching
import Deduction.Rule.Standard

namespace Deduction

namespace Formula

theorem conjunction_concat (φs : List Formula) (φ : Formula) :
    conjunction (φs ++ [φ]) = and (conjunction φs) φ := List.foldl_concat ..

/-- **A conjunction determines its members**: no member stands where the `T` is
    from which it starts. -/
theorem conjunction_injective : Function.Injective conjunction := by
  intro φs
  induction φs using List.reverseRecOn with
  | nil =>
    intro ψs h
    rcases List.eq_nil_or_concat' ψs with rfl | ⟨ψs, ψ, rfl⟩
    · rfl
    · rw [conjunction_concat] at h; cases h
  | append_singleton φs φ ih =>
    intro ψs h
    rcases List.eq_nil_or_concat' ψs with rfl | ⟨ψs, ψ, rfl⟩
    · rw [conjunction_concat] at h; cases h
    · rw [conjunction_concat, conjunction_concat, and, and, binary.injEq] at h
      rw [ih h.2.1, h.2.2]

theorem subst_conjunction (σ : String → Formula) (φs : List Formula) :
    (conjunction φs).subst σ = conjunction (φs.map (subst σ)) := by
  induction φs using List.reverseRecOn with
  | nil => rfl
  | append_singleton φs φ ih =>
    rw [List.map_append, List.map_singleton, conjunction_concat, conjunction_concat, ← ih]
    rfl

/-- An instance of an implication from a conjunction is an instance of each of its
    parts. -/
theorem subst_implies_conjunction {σ : String → Formula} {φs ψs : List Formula} {φ ψ : Formula} :
    (implies (conjunction φs) φ).subst σ = implies (conjunction ψs) ψ ↔
      φs.map (subst σ) = ψs ∧ φ.subst σ = ψ := by
  rw [implies, implies, subst, subst_conjunction, binary.injEq, conjunction_injective.eq_iff]
  exact and_iff_right rfl

end Formula

namespace InferenceRule

variable {r : InferenceRule} {premises premises' : List Formula} {conclusion : Formula}

/-- Premises in a fixed order lead to a conclusion iff the antecedents and one of
    the consequents become the premises and the conclusion under one substitution. -/
theorem leads_iff : r.leads conclusion premises = true ↔
    ∃ k ∈ r.consequents, ∃ σ : String → Formula,
      r.antecedents.map (Formula.subst σ) = premises ∧ k.subst σ = conclusion := by
  simp only [leads, List.any_eq_true, Formula.unifies_iff, Formula.subst_implies_conjunction]

theorem justifies_iff : r.justifies premises conclusion = true ↔
    premises.length = r.antecedents.length ∧
      ∃ arranged : List Formula, arranged.Perm premises ∧ r.leads conclusion arranged = true := by
  rw [justifies, Bool.and_eq_true, decide_eq_true_eq, someArrangement_eq_true, arity]

theorem map_eq_ofFn_iff {n : Nat} {φs : List Formula} (h : n = φs.length) {σ : String → Formula}
    {ψ : Fin n → Formula} :
    φs.map (Formula.subst σ) = List.ofFn ψ ↔ ∀ i, (φs.get (i.cast h)).subst σ = ψ i := by
  subst h
  rw [← List.ofFn_getElem_eq_map, List.ofFn_inj, funext_iff]
  rfl

/-- The order of the premises does not matter. -/
theorem justifies_perm (r : InferenceRule) (h : premises'.Perm premises) (conclusion : Formula) :
    r.justifies premises' conclusion = r.justifies premises conclusion := by
  have hsome : ∀ ys : List Formula, ys.Perm premises' ↔ ys.Perm premises :=
    fun ys => ⟨fun hys => hys.trans h, fun hys => hys.trans h.symm⟩
  rw [Bool.eq_iff_iff]
  simp only [justifies_iff, h.length_eq, hsome]

/-- **An inference rule justifies exactly its instances, up to the order of the
    premises.**  There have to be as many premises as antecedents, and for some
    permutation of the premises and some consequent one substitution turns the
    antecedents into the premises and the consequent into the conclusion.  So the
    premises may be given in any order. -/
theorem justifies_iff_positions (r : InferenceRule) (premises : List Formula)
    (conclusion : Formula) :
    (r.justifies premises conclusion = true ↔
      ∃ (harity : premises.length = r.antecedents.length) (π : Equiv.Perm (Fin premises.length)),
        ∃ k ∈ r.consequents, ∃ σ : String → Formula,
          (∀ i, (r.antecedents.get (i.cast harity)).subst σ = premises.get (π i)) ∧
            k.subst σ = conclusion) ∧
      ∀ premises' : List Formula, premises'.Perm premises →
        r.justifies premises' conclusion = r.justifies premises conclusion := by
  refine ⟨?_, fun premises' h => r.justifies_perm h conclusion⟩
  simp only [justifies_iff, leads_iff, perm_iff_exists_positions]
  constructor
  · rintro ⟨harity, _, ⟨π, rfl⟩, k, hk, σ, hσ, hconclusion⟩
    exact ⟨harity, π, k, hk, σ, (map_eq_ofFn_iff harity).1 hσ, hconclusion⟩
  · rintro ⟨harity, π, k, hk, σ, hσ, hconclusion⟩
    exact ⟨harity, _, ⟨π, rfl⟩, k, hk, σ, (map_eq_ofFn_iff harity).2 hσ, hconclusion⟩

/-- Proof by cases, where the antecedents are not in the order of the rule and two
    of them have a conjunction as their first part. -/
theorem justifies_iff_positions_cases :
    let p := Formula.atom "p"
    let q := Formula.atom "q"
    let premises : List Formula :=
      [.implies (.not p) q, .or (.and p q) (.not p), .implies (.and p q) q]
    ∃ r, Catalog.standard.get? "proof by cases" = some (.inference r) ∧
      (∃ (harity : premises.length = r.antecedents.length) (π : Equiv.Perm (Fin premises.length)),
        ∃ k ∈ r.consequents, ∃ σ : String → Formula,
          (∀ i, (r.antecedents.get (i.cast harity)).subst σ = premises.get (π i)) ∧
            k.subst σ = q) ∧
      r.justifies premises.reverse q = true := by
  intro p q premises
  obtain ⟨r, hget, hjustifies⟩ : ∃ r, Catalog.standard.get? "proof by cases" = some (.inference r) ∧
      r.justifies premises q = true := ⟨_, rfl, by decide +kernel⟩
  obtain ⟨hiff, hany⟩ := justifies_iff_positions r premises q
  exact ⟨r, hget, hiff.1 hjustifies, (hany _ premises.reverse_perm).trans hjustifies⟩

end InferenceRule

end Deduction
