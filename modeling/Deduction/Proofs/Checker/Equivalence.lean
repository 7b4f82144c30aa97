/-
  Equivalence proofs are ordinary proofs.

  In an equivalence proof there are no sub-proofs, and every line is given or
  rewrites another one (`Line.Rewriting`).  On such lines the checker does the
  same in both modes, and others it rejects in an equivalence proof:

  * `accepts_equivalence_iff`: for one line, outside of sub-proofs;
  * `run_equivalence_iff`: for a run;
  * `check_equivalence_iff`: for a whole proof, with the same steps.
-/
import Deduction.Proofs.Checker.Run

namespace Deduction

theorem Catalog.getEquivalence?_eq_some {c : Catalog} {name : String} {r : EquivalenceRule} :
    c.getEquivalence? name = some r ↔ c.get? name = some (.equivalence r) := by
  unfold getEquivalence?
  split <;> simp_all

theorem Rule.isEquivalence_iff {rule : Rule} :
    rule.isEquivalence = true ↔ ∃ r, rule = .equivalence r := by
  cases rule <;> simp [isEquivalence]

/-- A line that stands outside of sub-proofs, and is given or cites an
    equivalence rule. -/
structure Line.Rewriting (c : Catalog) (l : Line) : Prop where
  outside : l.number.levels = 1
  rule : l.citation.ruleKey = RuleName.given ∨ ∃ r, c.getEquivalence? l.citation.ruleKey = some r

namespace Checker.State

variable {c : Catalog} {d : Declarations} {s s' : State} {l : Line} {step : Step}
  {cited : List Step} {kind : StepKind}

theorem justify_equivalence_iff : justify ⟨c, d, .equivalence⟩ l cited = .ok kind ↔
    justify ⟨c, d, .ordinary⟩ l cited = .ok kind ∧
      (l.citation.ruleKey = RuleName.given ∨ ∃ r, c.getEquivalence? l.citation.ruleKey = some r) := by
  simp only [justify_eq_ok, Catalog.getEquivalence?_eq_some]
  constructor
  · rintro (hgiven | ⟨hrule, rule, hget, hmode, hjustify, hkind⟩)
    · exact ⟨.inl hgiven, .inl hgiven.1⟩
    · obtain ⟨r, rfl⟩ := Rule.isEquivalence_iff.1 (hmode trivial)
      exact ⟨.inr ⟨hrule, _, hget, nofun, hjustify, hkind⟩, .inr ⟨r, hget⟩⟩
  · rintro ⟨hgiven | ⟨hrule, rule, hget, -, hjustify, hkind⟩, hequivalence⟩
    · exact .inl hgiven
    · obtain ⟨r, hr⟩ := hequivalence.resolve_left hrule
      obtain rfl : rule = .equivalence r := Option.some.inj (hget.symm.trans hr)
      exact .inr ⟨hrule, _, hget, fun _ => rfl, hjustify, hkind⟩

/-- **One line.**  Outside of sub-proofs, an equivalence proof may go on with the
    lines of an ordinary proof that are given or rewrite. -/
theorem accepts_equivalence_iff (hs : s.cursor.enclosing = []) :
    Accepts ⟨c, d, .equivalence⟩ s l s' step ↔
      Accepts ⟨c, d, .ordinary⟩ s l s' step ∧ l.Rewriting c := by
  constructor
  · intro h
    cases h with
    | opening _ _ hmode => exact absurd rfl hmode
    | closing _ _ hmode => exact absurd rfl hmode
    | inside hatoms hnumber hcited hjustify =>
      obtain ⟨hjustify, hrule⟩ := justify_equivalence_iff.1 hjustify
      obtain ⟨-, hn⟩ := LineNumber.next?_eq_some.1 hnumber
      have houtside : l.number.levels = 1 := by simp [hn, LineNumber.levels, hs]
      exact ⟨.inside hatoms hnumber hcited hjustify, houtside, hrule⟩
  · rintro ⟨h, houtside, hrule⟩
    cases h with
    | opening _ hnumber =>
      obtain ⟨-, hn⟩ := LineNumber.open?_eq_some.1 hnumber
      simp [hn, LineNumber.levels] at houtside
    | closing _ hnumber => rw [hs] at hnumber; cases hnumber
    | inside hatoms hnumber hcited hjustify =>
      exact .inside hatoms hnumber hcited (justify_equivalence_iff.2 ⟨hjustify, hrule⟩)

/-- The lines of an equivalence proof never leave the outermost block. -/
theorem enclosing_of_rewriting {Γ : Setting} (h : Accepts Γ s l s' step) (hl : l.Rewriting c) :
    s'.cursor.enclosing = [] := by
  have hlength : l.number.enclosing.length + 1 = 1 := hl.outside
  rw [h.cursor_eq, h.number_eq]
  exact List.length_eq_zero_iff.1 (by omega)

/-- **Many lines.**  An equivalence proof runs through lines iff an ordinary one
    does and all of them are given or rewrite; it comes to the same state. -/
theorem run_equivalence_iff {ls : List Line} (hs : s.cursor.enclosing = []) :
    Run ⟨c, d, .equivalence⟩ s ls s' ↔
      Run ⟨c, d, .ordinary⟩ s ls s' ∧ ∀ l ∈ ls, l.Rewriting c := by
  constructor
  · intro h
    induction h with
    | nil => exact ⟨.nil, by simp⟩
    | cons hstep _ ih =>
      obtain ⟨hstep', hl⟩ := (accepts_equivalence_iff hs).1 hstep
      obtain ⟨hrun, hls⟩ := ih (enclosing_of_rewriting hstep hl)
      exact ⟨.cons hstep' hrun, List.forall_mem_cons.2 ⟨hl, hls⟩⟩
  · rintro ⟨h, hls⟩
    induction h with
    | nil => exact .nil
    | cons hstep _ ih =>
      obtain ⟨hl, hls⟩ := List.forall_mem_cons.1 hls
      have hstep' := (accepts_equivalence_iff hs).2 ⟨hstep, hl⟩
      exact .cons hstep' (ih (enclosing_of_rewriting hstep hl) hls)

end Checker.State

/-- **An equivalence proof is accepted iff it is accepted as an ordinary proof and
    has no other lines than given ones and rewritings outside of sub-proofs**; the
    steps and the conclusion are the same in both modes. -/
theorem check_equivalence_iff (c : Catalog) (d : Declarations) (ls : List Line) (r : Checked) :
    (⟨.equivalence, d, ls⟩ : Proof).check c = .ok r ↔
      (⟨.ordinary, d, ls⟩ : Proof).check c = .ok r ∧ ∀ l ∈ ls, l.Rewriting c := by
  rw [Proof.check_ok_iff, Proof.check_ok_iff]
  constructor
  · rintro ⟨s, hrun, hend⟩
    obtain ⟨hrun', hls⟩ := (Checker.State.run_equivalence_iff rfl).1 hrun
    exact ⟨⟨s, hrun', hend⟩, hls⟩
  · rintro ⟨⟨s, hrun, hend⟩, hls⟩
    exact ⟨s, (Checker.State.run_equivalence_iff rfl).2 ⟨hrun, hls⟩, hend⟩

end Deduction
