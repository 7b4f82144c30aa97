/-
  Putting formulas in place of the atoms of a proof.

  * `Rule.Justifies.substAtoms`: a rule whose templates have no atoms of their own
    justifies with an inference all its instances.  Two atoms may become the
    same compound formula, so a rewriting that keeps an atom has to keep any
    formula: here the formulas put in must have no metavariables.
  * `Accepts.mapFormulas`, `Run.mapFormulas`: a map of formulas that respects what
    the checker asks for leads runs to runs.
  * `compact_mapFormulas`: the compaction does not look at formulas.
  * `check_substAtoms`: acceptance is closed under substitution, and the compacted
    proof of an instance is the instance of the compacted proof.
-/
import Deduction.Proofs.Checker.Blocks
import Deduction.Proofs.Compaction.Reference
import Deduction.Proofs.Rule.Rewriting
import Deduction.Proofs.Source.Document

namespace Deduction

/-! ## Formulas -/

namespace Formula

/-- Whether an atom occurs. -/
def hasAtoms : Formula → Bool
  | atom _ => true
  | not φ => φ.hasAtoms
  | binary _ φ ψ => φ.hasAtoms || ψ.hasAtoms
  | _ => false

/-- Puts formulas in place of the atoms, all at once. -/
def substAtoms (θ : String → Formula) : Formula → Formula
  | atom a => θ a
  | not φ => not (φ.substAtoms θ)
  | binary c φ ψ => binary c (φ.substAtoms θ) (ψ.substAtoms θ)
  | φ => φ

variable {θ : String → Formula} {φ ψ : Formula}

/-- An instance of a template without atoms becomes another instance of it. -/
theorem substAtoms_subst (h : φ.hasAtoms = false) (σ : String → Formula) :
    (φ.subst σ).substAtoms θ = φ.subst fun x => (σ x).substAtoms θ := by
  induction φ with
  | verum | falsum | metavar => rfl
  | atom a => cases h
  | not φ ih => rw [subst, subst, substAtoms, ih h]
  | binary c φ ψ ih₁ ih₂ =>
    obtain ⟨h₁, h₂⟩ := Bool.or_eq_false_iff.1 h
    rw [subst, subst, substAtoms, ih₁ h₁, ih₂ h₂]

theorem unifies_substAtoms (hφ : φ.hasAtoms = false) (h : φ.unifies ψ = true) :
    φ.unifies (ψ.substAtoms θ) = true := by
  obtain ⟨σ, rfl⟩ := unifies_iff.1 h
  exact unifies_iff.2 ⟨_, (substAtoms_subst hφ σ).symm⟩

theorem substAtoms_conjunction (φs : List Formula) :
    (conjunction φs).substAtoms θ = conjunction (φs.map (substAtoms θ)) := by
  have h : ∀ ψ : Formula,
      (φs.foldl and ψ).substAtoms θ = (φs.map (substAtoms θ)).foldl and (ψ.substAtoms θ) := by
    induction φs with
    | nil => exact fun _ => rfl
    | cons φ φs ih => exact fun ψ => ih (and ψ φ)
  exact h verum

theorem hasAtoms_conjunction {φs : List Formula} (h : ∀ φ ∈ φs, φ.hasAtoms = false) :
    (conjunction φs).hasAtoms = false := by
  have hfold : ∀ ψ : Formula, ψ.hasAtoms = false → (φs.foldl and ψ).hasAtoms = false := by
    induction φs with
    | nil => exact fun _ hψ => hψ
    | cons φ φs ih =>
      obtain ⟨hφ, hφs⟩ := List.forall_mem_cons.1 h
      exact fun ψ hψ => ih hφs (and ψ φ) (Bool.or_eq_false_iff.2 ⟨hψ, hφ⟩)
  exact hfold verum rfl

theorem findUndeclared_substAtoms {d : Declarations}
    (hθ : ∀ a ∈ d.atoms, (θ a).findUndeclared d.isDeclared = none)
    (h : φ.findUndeclared d.isDeclared = none) :
    (φ.substAtoms θ).findUndeclared d.isDeclared = none := by
  induction φ with
  | verum | falsum | metavar => rfl
  | atom a => exact hθ a (findUndeclared_eq_none.1 h a (by simp [vars]))
  | not φ ih => exact ih h
  | binary c φ ψ ih₁ ih₂ =>
    obtain ⟨h₁, h₂⟩ := Option.or_eq_none_iff.1 h
    exact Option.or_eq_none_iff.2 ⟨ih₁ h₁, ih₂ h₂⟩

end Formula

/-! ## Rules -/

/-- The templates of a rule. -/
def Rule.templates : Rule → List Formula
  | inference r => r.antecedents ++ r.consequents
  | equivalence r => r.axioms.flatMap fun a => [a.1, a.2]

/-- No template has an atom, so that the rules are about all formulas alike. -/
def Catalog.Schematic (c : Catalog) : Prop :=
  ∀ e ∈ c.entries, ∀ φ ∈ e.2.templates, φ.hasAtoms = false

instance (c : Catalog) : Decidable c.Schematic :=
  inferInstanceAs (Decidable (∀ e ∈ c.entries, ∀ φ ∈ e.2.templates, φ.hasAtoms = false))

theorem Catalog.schematic_standard : Catalog.standard.Schematic := by decide +kernel

variable {θ : String → Formula}

theorem InferenceRule.justifies_substAtoms {r : InferenceRule}
    (hr : ∀ φ ∈ (Rule.inference r).templates, φ.hasAtoms = false) {premises : List Formula}
    {conclusion : Formula} (h : r.justifies premises conclusion = true) :
    r.justifies (premises.map (Formula.substAtoms θ)) (conclusion.substAtoms θ) = true := by
  simp only [justifies, Bool.and_eq_true, decide_eq_true_eq, someArrangement_eq_true, leads,
    List.any_eq_true, List.length_map] at h ⊢
  obtain ⟨harity, arranged, hperm, c, hc, hunifies⟩ := h
  refine ⟨harity, arranged.map (Formula.substAtoms θ), hperm.map _, c, hc, ?_⟩
  have htemplate : (Formula.implies (.conjunction r.antecedents) c).hasAtoms = false := by
    refine Bool.or_eq_false_iff.2 ⟨Formula.hasAtoms_conjunction fun φ hφ => ?_, ?_⟩
    · exact hr φ (List.mem_append_left _ hφ)
    · exact hr c (List.mem_append_right _ hc)
  rw [← Formula.substAtoms_conjunction]
  exact Formula.unifies_substAtoms htemplate hunifies

namespace EquivalenceRule

variable {r : EquivalenceRule} {φ ψ : Formula}

variable (hr : ∀ φ ∈ (Rule.equivalence r).templates, φ.hasAtoms = false)
include hr

theorem relates_substAtoms (h : r.relates φ ψ = true) :
    r.relates (φ.substAtoms θ) (ψ.substAtoms θ) = true := by
  obtain ⟨a, ha, h⟩ := List.any_eq_true.1 h
  have htemplate : (Formula.iff a.1 a.2).hasAtoms = false := by
    refine Bool.or_eq_false_iff.2 ⟨hr _ ?_, hr _ ?_⟩
    · exact List.mem_flatMap.2 ⟨a, ha, by simp⟩
    · exact List.mem_flatMap.2 ⟨a, ha, by simp⟩
  refine List.any_eq_true.2 ⟨a, ha, Bool.or_eq_true_iff.2 ?_⟩
  exact (Bool.or_eq_true_iff.1 h).imp (Formula.unifies_substAtoms htemplate)
    (Formula.unifies_substAtoms htemplate)

/-- A rewriting at some places is one at the same places of the instance; what
    stays as it is, stays as it is. -/
theorem rewrites_substAtoms (hψ : ∀ a, .atom a ∈ ψ.vars → (θ a).hasMetavars = false)
    (h : r.rewrites φ ψ = true) : r.rewrites (φ.substAtoms θ) (ψ.substAtoms θ) = true := by
  fun_induction r.rewrites φ ψ with
  | case1 φ ψ ih =>
    rcases Bool.or_eq_true_iff.1 h with h | h
    · simp [Formula.substAtoms, rewrites, ih hψ h]
    · exact rewrites_of_relates (relates_substAtoms hr h)
  | case2 c φ₁ ψ₁ d φ₂ ψ₂ ih₁ ih₂ =>
    rcases Bool.or_eq_true_iff.1 h with h | h
    · simp only [Bool.and_eq_true, decide_eq_true_eq] at h
      obtain ⟨⟨rfl, h₁⟩, h₂⟩ := h
      have h₁ := ih₁ (fun a ha => hψ a (List.mem_append_left _ ha)) h₁
      have h₂ := ih₂ (fun a ha => hψ a (List.mem_append_right _ ha)) h₂
      simp [Formula.substAtoms, rewrites, h₁, h₂]
    · exact rewrites_of_relates (relates_substAtoms hr h)
  | case3 | case4 => rfl
  | case5 a b =>
    rcases Bool.or_eq_true_iff.1 h with h | h
    · -- an atom that is kept may have become compound, so the rule has to keep all of it
      rw [of_decide_eq_true h]
      exact rewrites_self (hψ b (by simp [Formula.vars]))
    · exact rewrites_of_relates (relates_substAtoms hr h)
  | case6 φ ψ => exact rewrites_of_relates (relates_substAtoms hr h)

end EquivalenceRule

theorem Rule.Justifies.substAtoms {rule : Rule} (hrule : ∀ φ ∈ rule.templates, φ.hasAtoms = false)
    {premises : List Formula} {conclusion : Formula}
    (hconclusion : ∀ a, .atom a ∈ conclusion.vars → (θ a).hasMetavars = false)
    (h : rule.Justifies premises conclusion) :
    rule.Justifies (premises.map (Formula.substAtoms θ)) (conclusion.substAtoms θ) := by
  cases rule with
  | inference r => exact r.justifies_substAtoms hrule h
  | equivalence r =>
    obtain ⟨premise, rfl, h⟩ := h
    exact ⟨_, rfl, r.rewrites_substAtoms hrule hconclusion h⟩

/-! ## Proofs under a map of formulas -/

section
variable (f : Formula → Formula)

/-- The line with the image of its formula, under the same number and citation. -/
def Line.mapFormula (l : Line) : Line := { l with formula := f l.formula }

/-- The step with the image of its formula, which depends on the same lines. -/
def Step.mapFormula (t : Step) : Step := { t with formula := f t.formula }

/-- The same atoms, and the images of the givens.  Givens that become the same
    formula count once. -/
def Declarations.mapGivens (d : Declarations) : Declarations :=
  ⟨d.atoms, (d.givens.map f).foldl addNew []⟩

/-- The image of a proof: of its givens and of all its lines. -/
def Proof.mapFormulas (p : Proof) : Proof :=
  ⟨p.mode, p.declarations.mapGivens f, p.lines.map (Line.mapFormula f)⟩

/-- The image of what an accepted proof leads to: of its steps and of its
    conclusion. -/
def Checked.mapFormulas (r : Checked) : Checked :=
  ⟨r.steps.map (Step.mapFormula f), r.conclusion.mapFormula f⟩

/-- The image of a state of the checker: of the accepted steps and of the open
    assumptions. -/
def Checker.State.mapFormulas (s : Checker.State) : Checker.State :=
  ⟨s.cursor, s.accepted.map (Step.mapFormula f), s.assumptions.map (Step.mapFormula f)⟩

/-- The setting in which the image of a proof is checked: only the givens change. -/
def Setting.mapGivens (Γ : Setting) : Setting := { Γ with declarations := Γ.declarations.mapGivens f }

end

theorem mem_foldl_addNew {α : Type} [DecidableEq α] {xs acc : List α} {y : α} :
    y ∈ xs.foldl addNew acc ↔ y ∈ acc ∨ y ∈ xs := by
  induction xs generalizing acc with
  | nil => simp
  | cons x xs ih => rw [List.foldl_cons, ih, mem_addNew, List.mem_cons, or_assoc]

theorem Step.find?_map (f : Formula → Formula) (steps : List Step) (n : LineNumber) :
    find? (steps.map (mapFormula f)) n = (find? steps n).map (mapFormula f) := by
  induction steps with
  | nil => rfl
  | cons t steps ih =>
    rw [List.map_cons, find?_cons, find?_cons, ih]
    by_cases h : t.number = n
    · rw [if_pos h, if_pos (show (mapFormula f t).number = n from h), Option.map_some]
    · rw [if_neg h, if_neg (show ¬ (mapFormula f t).number = n from h)]

/-- The map `f` respects what the checker asks for. -/
structure Setting.Respects (Γ : Setting) (f : Formula → Formula) : Prop where
  implies : ∀ φ ψ, f (.implies φ ψ) = .implies (f φ) (f ψ)
  declared : ∀ φ, φ.findUndeclared Γ.declarations.isDeclared = none →
    (f φ).findUndeclared Γ.declarations.isDeclared = none
  justifies : ∀ name rule, Γ.catalog.get? name = some rule → ∀ premises conclusion,
    conclusion.findUndeclared Γ.declarations.isDeclared = none →
      rule.Justifies premises conclusion → rule.Justifies (premises.map f) (f conclusion)

namespace Checker.State

variable {f : Formula → Formula} {Γ : Setting} {s s' : State} {l : Line} {ls : List Line}
  {step : Step} {cited : List Step}

theorem last?_mapFormulas (s : State) :
    (s.mapFormulas f).last? = s.last?.map (Step.mapFormula f) := List.head?_map

theorem Cites.mapFormulas {n : LineNumber} {refs : List LineNumber} (h : s.Cites n refs cited) :
    (s.mapFormulas f).Cites n refs (cited.map (Step.mapFormula f)) := by
  refine List.forall₂_map_right_iff.2 (h.imp fun ref t ⟨hfind, haccess⟩ => ⟨?_, haccess⟩)
  rw [State.mapFormulas, Step.find?_map, hfind, Option.map_some]

theorem justify_mapFormulas (hf : Γ.Respects f) {kind : StepKind}
    (hatoms : l.formula.findUndeclared Γ.declarations.isDeclared = none)
    (h : justify Γ l cited = .ok kind) :
    justify (Γ.mapGivens f) (l.mapFormula f) (cited.map (Step.mapFormula f)) = .ok kind := by
  rw [justify_eq_ok] at h ⊢
  rcases h with ⟨hrule, rfl, hgiven, rfl⟩ | ⟨hrule, rule, hget, hmode, hjustify, rfl⟩
  · have hmem : l.formula ∈ Γ.declarations.givens := of_decide_eq_true hgiven
    refine .inl ⟨hrule, rfl, decide_eq_true ?_, rfl⟩
    exact mem_foldl_addNew.2 (.inr (List.mem_map_of_mem hmem))
  · refine .inr ⟨hrule, rule, hget, hmode, Rule.justify_eq_ok.2 ?_, rfl⟩
    have hjustifies := hf.justifies _ rule hget _ _ hatoms (Rule.justify_eq_ok.1 hjustify)
    rw [List.map_map] at hjustifies ⊢
    exact hjustifies

/-- **One line.**  If a state accepts a line, its image accepts the image of the line. -/
theorem Accepts.mapFormulas (hf : Γ.Respects f) (h : Accepts Γ s l s' step) :
    Accepts (Γ.mapGivens f) (s.mapFormulas f) (l.mapFormula f) (s'.mapFormulas f)
      (step.mapFormula f) := by
  cases h with
  | opening hatoms hnumber hmode hrule hrefs =>
    exact .opening (hf.declared _ hatoms) hnumber hmode hrule hrefs
  | @inside kind cited hatoms hnumber hcited hjustify =>
    have hstep : (ordinaryStep l kind cited).mapFormula f =
        ordinaryStep (l.mapFormula f) kind (cited.map (Step.mapFormula f)) := by
      simp only [ordinaryStep, Step.mapFormula, Line.mapFormula, List.map_map]; rfl
    have haccepts := Accepts.inside (Γ := Γ.mapGivens f) (s := s.mapFormulas f)
      (l := l.mapFormula f) (hf.declared _ hatoms) hnumber hcited.mapFormulas
      (justify_mapFormulas hf hatoms hjustify)
    rw [← hstep] at haccepts
    exact haccepts
  | @closing assumption conclusion outer hatoms hnumber hmode hrule hrefs hassumption hlast
      hformula =>
    have hassumption' : (s.mapFormulas f).assumptions =
        assumption.mapFormula f :: outer.map (Step.mapFormula f) := by
      rw [State.mapFormulas, hassumption, List.map_cons]
    have hlast' : (s.mapFormulas f).last? = some (conclusion.mapFormula f) := by
      rw [last?_mapFormulas, hlast, Option.map_some]
    have hformula' : (l.mapFormula f).formula =
        .implies (assumption.mapFormula f).formula (conclusion.mapFormula f).formula := by
      rw [Line.mapFormula, hformula]
      exact hf.implies _ _
    have haccepts := Accepts.closing (Γ := Γ.mapGivens f) (s := s.mapFormulas f)
      (l := l.mapFormula f) (hf.declared _ hatoms) hnumber hmode hrule hrefs hassumption' hlast'
      hformula'
    exact haccepts

theorem Run.mapFormulas (hf : Γ.Respects f) (h : Run Γ s ls s') :
    Run (Γ.mapGivens f) (s.mapFormulas f) (ls.map (Line.mapFormula f)) (s'.mapFormulas f) := by
  induction h with
  | nil => exact .nil
  | cons hstep _ ih => exact .cons (hstep.mapFormulas hf) ih

end Checker.State

open Checker (State)

theorem Proof.check_mapFormulas {f : Formula → Formula} {p : Proof} {c : Catalog} {r : Checked}
    (hf : (p.setting c).Respects f) (h : p.check c = .ok r) :
    (p.mapFormulas f).check c = .ok (r.mapFormulas f) := by
  obtain ⟨s, hrun, hsteps, hlast, hend⟩ := Proof.check_ok_iff.1 h
  refine Proof.check_ok_iff.2 ⟨s.mapFormulas f, hrun.mapFormulas hf, ?_, ?_, ?_⟩
  · rw [Checked.mapFormulas, hsteps]; rfl
  · rw [State.last?_mapFormulas, hlast]; rfl
  · rw [State.mapFormulas, hend]; rfl

/-! ## Compaction -/

section
variable (f : Formula → Formula)

theorem Step.reaches_map (steps : List Step) :
    Reaches (steps.map (mapFormula f)) = Reaches steps := by
  have hdepends : Depends (steps.map (mapFormula f)) = Depends steps := by
    funext n d
    simp [Depends, mapFormula]
  rw [Reaches, hdepends, Reaches]

theorem Step.supporting_map {steps : List Step} (h : Founded steps)
    (h' : Founded (steps.map (mapFormula f))) (n : LineNumber) :
    supporting (steps.map (mapFormula f)) n = (supporting steps n).map (mapFormula f) := by
  rw [supporting, supporting, ← List.map_reverse, List.filter_map]
  congr 1
  refine List.filter_congr fun t ht => decide_eq_decide.2 ?_
  rw [List.mem_reverse] at ht
  rw [mem_support_iff h', mem_support_iff h, reaches_map]
  exact and_congr_right fun _ => iff_of_true ⟨_, List.mem_map_of_mem ht, rfl⟩ ⟨t, ht, rfl⟩

theorem Compaction.layOut_map (cursor : LineNumber) (placed : List (LineNumber × LineNumber))
    (steps : List Step) : layOut cursor placed (steps.map (Step.mapFormula f)) =
      (layOut cursor placed steps).map (List.map (Line.mapFormula f)) := by
  induction steps generalizing cursor placed with
  | nil => rfl
  | cons t steps ih =>
    have hkind : (t.mapFormula f).kind = t.kind := rfl
    rw [List.map_cons, layOut, layOut, hkind]
    cases hnumber : t.kind.numberAfter? cursor with
    | none => rfl
    | some number =>
      have hrefs : citations ((t.number, number) :: placed) (t.mapFormula f) =
        citations ((t.number, number) :: placed) t := rfl
      simp only [bind, Except.bind]
      rw [show (t.mapFormula f).number = t.number from rfl, hrefs, ih]
      cases citations ((t.number, number) :: placed) t with
      | error e => rfl
      | ok refs => cases layOut number ((t.number, number) :: placed) steps <;> rfl

/-- **The compaction does not look at formulas.** -/
theorem compact_mapFormulas {s : State} (hs : s.Wf) (hs' : (s.mapFormulas f).Wf) (n : LineNumber) :
    compact (s.mapFormulas f).accepted n =
      (compact s.accepted n).map (List.map (Line.mapFormula f)) := by
  rw [compact_eq_layOut hs, compact_eq_layOut hs', ← Compaction.layOut_map,
    ← Step.supporting_map f hs.founded hs'.founded]
  rfl

end

/-! ## Substitution -/

theorem Setting.respects_substAtoms {Γ : Setting} (hcatalog : Γ.catalog.Schematic)
    (hθ : ∀ a ∈ Γ.declarations.atoms, (θ a).hasMetavars = false ∧
      (θ a).findUndeclared Γ.declarations.isDeclared = none) :
    Γ.Respects (Formula.substAtoms θ) where
  implies _ _ := rfl
  declared _ hφ := Formula.findUndeclared_substAtoms (fun a ha => (hθ a ha).2) hφ
  justifies name rule hget premises conclusion hconclusion h := by
    refine h.substAtoms (hcatalog _ (Catalog.mem_entries_of_get? hget)) fun a ha => ?_
    exact (hθ a (Formula.findUndeclared_eq_none.1 hconclusion a ha)).1

/-- **Acceptance is closed under substitution.**  If formulas without metavariables
    over the declared atoms are put in place of the declared atoms, an accepted
    proof stays accepted, its steps and its conclusion are the instances of what
    they were, and so are the lines of the compacted proof. -/
theorem check_substAtoms {p : Proof} {r : Checked}
    (hθ : ∀ a ∈ p.declarations.atoms, (θ a).hasMetavars = false ∧
      (θ a).findUndeclared p.declarations.isDeclared = none)
    (h : p.check .standard = .ok r) :
    (p.mapFormulas (Formula.substAtoms θ)).check .standard =
        .ok (r.mapFormulas (Formula.substAtoms θ)) ∧
      ∃ lines, compact r.steps r.conclusion.number = .ok lines ∧
        compact (r.mapFormulas (Formula.substAtoms θ)).steps
            (r.mapFormulas (Formula.substAtoms θ)).conclusion.number =
          .ok (lines.map (Line.mapFormula (Formula.substAtoms θ))) := by
  have hrespects : (p.setting .standard).Respects (Formula.substAtoms θ) :=
    Setting.respects_substAtoms Catalog.schematic_standard hθ
  refine ⟨Proof.check_mapFormulas hrespects h, ?_⟩
  obtain ⟨s, hrun, hsteps, hlast, hend⟩ := Proof.check_ok_iff.1 h
  obtain ⟨lines, hlines⟩ :=
    exists_compact_of_enclosing_eq_nil hrun (hrun.wf.enclosing_of_last? hlast hend)
  refine ⟨lines, by rw [hsteps, hlines], ?_⟩
  have hcompact := compact_mapFormulas (Formula.substAtoms θ) hrun.wf
    (hrun.mapFormulas hrespects).wf r.conclusion.number
  rw [hlines] at hcompact
  rw [Checked.mapFormulas, hsteps]
  exact hcompact

/-- From `q`, a proof of `p → ¬¬q ∧ p` with a line that it does not need. -/
def Proof.exchange : Proof :=
  let p := .atom "p"
  let q := .atom "q"
  { mode := .ordinary
    declarations := ⟨["p", "q"], [q]⟩
    lines := [
      ⟨⟨1, []⟩, q, ⟨"Given", []⟩⟩,
      ⟨⟨2, []⟩, .or q p, ⟨"Intro Or", [⟨1, []⟩]⟩⟩,
      ⟨⟨1, [3]⟩, p, ⟨"Assumption", []⟩⟩,
      ⟨⟨2, [3]⟩, .and p q, ⟨"Intro And", [⟨1, []⟩, ⟨1, [3]⟩]⟩⟩,
      ⟨⟨3, [3]⟩, .and q p, ⟨"Commutativity", [⟨2, [3]⟩]⟩⟩,
      ⟨⟨4, [3]⟩, .and (.not (.not q)) p, ⟨"Double Negation", [⟨3, [3]⟩]⟩⟩,
      ⟨⟨3, []⟩, .implies p (.and (.not (.not q)) p), ⟨"Direct Proof Rule", []⟩⟩] }

/-- Both atoms become the same compound formula. -/
theorem check_substAtoms_exchange :
    let θ := fun _ : String => Formula.or (.atom "q") (.not (.atom "p"))
    (∀ a ∈ Proof.exchange.declarations.atoms, (θ a).hasMetavars = false ∧
      (θ a).findUndeclared Proof.exchange.declarations.isDeclared = none) ∧
    ∃ r, Proof.exchange.check .standard = .ok r ∧
      (Proof.exchange.mapFormulas (Formula.substAtoms θ)).check .standard =
        .ok (r.mapFormulas (Formula.substAtoms θ)) ∧
      ∃ lines, compact r.steps r.conclusion.number = .ok lines ∧ lines.length = 6 ∧
        compact (r.mapFormulas (Formula.substAtoms θ)).steps
            (r.mapFormulas (Formula.substAtoms θ)).conclusion.number =
          .ok (lines.map (Line.mapFormula (Formula.substAtoms θ))) := by
  intro θ
  have hθ : ∀ a ∈ Proof.exchange.declarations.atoms, (θ a).hasMetavars = false ∧
      (θ a).findUndeclared Proof.exchange.declarations.isDeclared = none := by decide +kernel
  have hlength : (Proof.exchange.check .standard).map (fun r =>
      (compact r.steps r.conclusion.number).map (·.length)) = .ok (.ok 6) := by decide +kernel
  cases hr : Proof.exchange.check .standard with
  | error e => rw [hr] at hlength; cases hlength
  | ok r =>
    obtain ⟨hcheck, lines, hlines, hcompact⟩ := check_substAtoms hθ hr
    rw [hr] at hlength
    have hlength : (compact r.steps r.conclusion.number).map (·.length) = .ok 6 :=
      Except.ok.inj hlength
    rw [hlines] at hlength
    exact ⟨hθ, r, rfl, hcheck, lines, hlines, Except.ok.inj hlength, hcompact⟩

end Deduction
