/-
  The checker is sound.

  A step of a run is true wherever the givens and the assumptions of the
  sub-proofs around it are (`State.Sound`).  A line keeps this up: what it can
  see stands under no other assumptions than the line itself, and a closing
  line states the one that it discharges as a premise.  Outside of sub-proofs
  there are no assumptions, so the conclusion follows from the givens alone.
-/
import Deduction.Proofs.Checker.Invariant
import Deduction.Proofs.RuleSoundness

namespace Deduction

/-- All rules of the catalog are valid. -/
def Catalog.Valid (c : Catalog) : Prop := ∀ name rule, c.get? name = some rule → rule.Valid

/-- The assumptions among `steps` of the sub-proofs that enclose the line
    `n`. -/
def assumptionsAround (steps : List Step) (n : LineNumber) : List Formula :=
  (steps.filter fun a => a.kind = .assumption ∧ a.number.enclosing <:+ n.enclosing).map (·.formula)

theorem satisfies_assumptionsAround {steps : List Step} {n : LineNumber} {v : Valuation} :
    v.Satisfies (assumptionsAround steps n) ↔ ∀ a ∈ steps, a.kind = .assumption →
      a.number.enclosing <:+ n.enclosing → a.formula.eval v = true := by
  simp only [Valuation.Satisfies, assumptionsAround, List.forall_mem_map, List.mem_filter,
    decide_eq_true_eq, and_imp]

namespace Checker.State

/-- Each step is true wherever the givens and the assumptions of the sub-proofs
    around it are. -/
def Sound (givens : List Formula) (s : State) : Prop :=
  ∀ t ∈ s.accepted, ∀ v : Valuation, v.Satisfies givens →
    v.Satisfies (assumptionsAround s.accepted t.number) → t.formula.eval v = true

section
variable {Γ : Setting} {s s' : State} {l : Line} {step : Step}

/-- An ordinary line is true wherever the lines are that it cites. -/
theorem eval_of_justify {kind : StepKind} {cited : List Step} (h : justify Γ l cited = .ok kind)
    (hrule : ∀ rule, Γ.catalog.get? l.citation.ruleKey = some rule → rule.Correct) {v : Valuation}
    (hv : v.Satisfies Γ.declarations.givens) (hcited : ∀ t ∈ cited, t.formula.eval v = true) :
    l.formula.eval v = true := by
  rcases justify_eq_ok.1 h with ⟨-, -, hgiven, -⟩ | ⟨-, rule, hget, -, hjustify, -⟩
  · exact hv l.formula (of_decide_eq_true hgiven)
  · exact (hrule rule hget).eval_of_justifies (Rule.justify_eq_ok.1 hjustify)
      (by simpa [Valuation.Satisfies] using hcited)

/-- The assumptions of the sub-proof that a line closes are those around the
    line and the one that it discharges. -/
theorem eval_assumption_of_closing (hwf : Wf s) {n : LineNumber} (hn : s.cursor.enclosing = n.inward)
    {a : Step} {outer : List Step} (ha : s.assumptions = a :: outer) {v : Valuation}
    (hv : v.Satisfies (assumptionsAround s.accepted n)) (hav : a.formula.eval v = true) :
    v.Satisfies (assumptionsAround s.accepted s.cursor) := by
  rw [satisfies_assumptionsAround] at hv ⊢
  intro b hb hkind hsuffix
  rw [hn, LineNumber.inward, List.suffix_cons_iff] at hsuffix
  rcases hsuffix with heq | hsuffix
  · -- `b` is the first line of the same sub-proof, hence `a`
    have hnumber : b.number = a.number := by
      obtain ⟨m, hm⟩ := hwf.first b hb hkind
      rw [hm] at heq
      have hmn : m.inward = n.inward := heq
      rw [hm, (hwf.assumption_number hn ha).1, hmn]
    have hba : some b = some a := by
      rw [← hwf.find?_eq_some hb, hnumber]
      exact hwf.find?_eq_some (hwf.opened (ha ▸ List.mem_cons_self))
    rw [Option.some.inj hba]; exact hav
  · exact hv b hb hkind hsuffix

/-- **What one line keeps.**  If the cited rule is correct, a new step is as
    true as the earlier ones. -/
theorem Sound.of_accepts (hs : Sound Γ.declarations.givens s) (hwf : Wf s)
    (hrule : ∀ rule, Γ.catalog.get? l.citation.ruleKey = some rule → rule.Correct)
    (h : Accepts Γ s l s' step) : Sound Γ.declarations.givens s' := by
  intro t ht v hgivens hv
  rw [satisfies_assumptionsAround] at hv
  rw [h.accepted_eq] at ht hv
  have hold : ∀ u ∈ s.accepted, u.number.enclosing <:+ t.number.enclosing →
      u.formula.eval v = true := fun u hu hsuffix =>
    hs u hu v hgivens <| satisfies_assumptionsAround.2 fun a ha hkind hsuffix' =>
      hv a (List.mem_cons_of_mem _ ha) hkind (hsuffix'.trans hsuffix)
  rcases List.mem_cons.1 ht with rfl | ht
  · cases h with
    | opening => exact hv _ List.mem_cons_self rfl List.suffix_rfl
    | inside _ _ hcited hjustify =>
      refine eval_of_justify hjustify hrule hgivens fun u hu => ?_
      obtain ⟨hmem, haccess⟩ := hcited.of_mem hu
      exact hold u hmem (LineNumber.enclosing_suffix_of_hasAccess haccess)
    | @closing assumption conclusion outer _ hnumber _ _ _ hassumption hlast hformula =>
      change l.formula.eval v = true
      rw [hformula, Formula.eval_implies]
      intro hav
      refine hs conclusion (List.mem_of_mem_head? hlast) v hgivens ?_
      rw [← hwf.cursor_of_last? hlast]
      refine eval_assumption_of_closing hwf hnumber hassumption ?_ hav
      exact satisfies_assumptionsAround.2 fun a ha => hv a (List.mem_cons_of_mem _ ha)
  · exact hold t ht List.suffix_rfl

/-- **What a run keeps.**  If the cited rules are correct, every step is true
    under the givens and the assumptions around it. -/
theorem Run.sound {ls : List Line} (h : Run Γ .initial ls s)
    (hrules : ∀ l ∈ ls, ∀ rule, Γ.catalog.get? l.citation.ruleKey = some rule → rule.Correct) :
    Sound Γ.declarations.givens s := by
  refine (h.preserves (P := fun s => Wf s ∧ Sound Γ.declarations.givens s) ?_ ⟨.initial, nofun⟩).2
  rintro l hl s s' step hstep ⟨hwf, hs⟩
  exact ⟨hwf.of_accepts hstep, hs.of_accepts hwf (hrules l hl) hstep⟩

end

end Checker.State

open Checker (State)

/-- What soundness says of a proof: its conclusion follows from the givens, and
    after each accepted line every step follows from the givens and the
    assumptions around it. -/
structure Proof.Sound (p : Proof) (c : Catalog) : Prop where
  conclusion : ∀ r, p.check c = .ok r → ∀ v : Valuation, v.Satisfies p.declarations.givens →
    r.conclusion.formula.eval v = true
  steps : ∀ ls s, ls <+: p.lines → State.initial.feedAll (p.setting c) ls = (s, .ok ()) →
    s.Sound p.declarations.givens

/-- A proof that cites correct rules only is sound. -/
theorem Proof.sound_of_correct {p : Proof} {c : Catalog}
    (h : ∀ l ∈ p.lines, ∀ rule, c.get? l.citation.ruleKey = some rule → rule.Correct) :
    p.Sound c where
  conclusion r hr v hv := by
    obtain ⟨s, hrun, -, hlast, hclosed⟩ := Proof.check_ok_iff.1 hr
    refine hrun.sound h r.conclusion (List.mem_of_mem_head? hlast) v hv ?_
    -- no assumption is open at the end, so the conclusion stands under none
    have henclosing := hrun.wf.enclosing_of_last? hlast hclosed
    rw [satisfies_assumptionsAround]
    intro a ha hkind hsuffix
    obtain ⟨n, hn⟩ := hrun.wf.first a ha hkind
    rw [henclosing, hn, List.suffix_nil] at hsuffix
    cases hsuffix
  steps ls s hls hfeed :=
    (State.feedAll_ok_iff.1 hfeed).sound fun l hl => h l (hls.subset hl)

/-- **Soundness of the checker.**  Against a catalog of valid rules every proof
    is sound; against the standard catalog every proof is that does not cite
    factoring. -/
theorem check_sound :
    (∀ c : Catalog, c.Valid → ∀ p : Proof, p.Sound c) ∧
      ∀ p : Proof, (∀ l ∈ p.lines, l.citation.ruleKey ≠ "factoring") → p.Sound .standard := by
  constructor
  · intro c hc p
    exact Proof.sound_of_correct fun l _ rule hget => (hc _ rule hget).correct
  · intro p hp
    refine Proof.sound_of_correct fun l hl rule hget => ?_
    exact ((Catalog.standard_valid_iff _ (Catalog.mem_entries_of_get? hget)).2 (hp l hl)).correct

/-- From `q`, a sub-proof of `p → p ∧ q`. -/
def Proof.weakening : Proof where
  mode := .ordinary
  declarations := ⟨["p", "q"], [.atom "q"]⟩
  lines := [
    ⟨⟨1, [1]⟩, .atom "p", ⟨"Assumption", []⟩⟩,
    ⟨⟨2, [1]⟩, .atom "q", ⟨"Given", []⟩⟩,
    ⟨⟨3, [1]⟩, .and (.atom "p") (.atom "q"), ⟨"Intro And", [⟨2, [1]⟩, ⟨1, [1]⟩]⟩⟩,
    ⟨⟨1, []⟩, .implies (.atom "p") (.and (.atom "p") (.atom "q")), ⟨"Direct Proof Rule", []⟩⟩]

theorem check_sound_weakening : ∃ r, Proof.weakening.check .standard = .ok r ∧
    r.conclusion.formula = .implies (.atom "p") (.and (.atom "p") (.atom "q")) ∧
      ∀ v : Valuation, v.Satisfies [.atom "q"] → r.conclusion.formula.eval v = true := by
  have hsound := check_sound.2 .weakening (by decide +kernel)
  have hok : (Proof.weakening.check .standard).map (·.conclusion.formula) =
      .ok (.implies (.atom "p") (.and (.atom "p") (.atom "q"))) := by decide +kernel
  cases hr : Proof.weakening.check .standard with
  | error e => rw [hr] at hok; cases hok
  | ok r => rw [hr] at hok; exact ⟨r, rfl, Except.ok.inj hok, hsound.conclusion r hr⟩

end Deduction
