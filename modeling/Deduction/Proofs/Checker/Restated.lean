/-
  Stating an accepted proof in other words.

  A line may spell the name of its rule in another way and cite its lines in
  another order (`Line.Restates`).  The checker looks up the rule by its
  normalized name, and a rule does not care for the order of its premises
  (`Rule.justifies_perm`).  So the restated line is accepted, too
  (`Accepts.restate`), and a restated proof is accepted (`Proof.check_restate`).
  The steps of an accepted proof restate its lines (`Proof.check_restates_line`).
-/
import Deduction.Proofs.Compaction.Recheck
import Deduction.Proofs.Rule.Inference

namespace Deduction

/-! ## Lists that are related entry by entry -/

theorem map_eq_of_forall₂ {α β : Type} {R : α → α → Prop} {f : α → β} {xs ys : List α}
    (hf : ∀ x y, R x y → f y = f x) (h : List.Forall₂ R xs ys) : ys.map f = xs.map f := by
  induction h with
  | nil => rfl
  | cons hxy _ ih => rw [List.map_cons, List.map_cons, hf _ _ hxy, ih]

/-! ## The order of the premises -/

theorem Rule.justifies_perm (r : Rule) {premises premises' : List Formula}
    (h : premises'.Perm premises) (conclusion : Formula) :
    r.Justifies premises' conclusion ↔ r.Justifies premises conclusion := by
  cases r with
  | inference r => rw [Justifies, Justifies, r.justifies_perm h]
  | equivalence r =>
    constructor
    · rintro ⟨premise, rfl, hrewrites⟩
      exact ⟨premise, List.perm_singleton.1 h.symm, hrewrites⟩
    · rintro ⟨premise, rfl, hrewrites⟩
      exact ⟨premise, List.perm_singleton.1 h, hrewrites⟩

/-! ## Restated lines, steps and states -/

/-- The line `l'` says what `l` says.  Its rule may be spelled in another way, and
    its references may come in another order. -/
structure Line.Restates (l l' : Line) : Prop where
  number : l'.number = l.number
  formula : l'.formula = l.formula
  ruleKey : l'.citation.ruleKey = l.citation.ruleKey
  refs : l'.citation.refs.Perm l.citation.refs

theorem Line.Restates.refl (l : Line) : l.Restates l := ⟨rfl, rfl, rfl, .refl _⟩

/-- The proof `q` says what `p` says, line by line. -/
structure Proof.Restates (p q : Proof) : Prop where
  mode : q.mode = p.mode
  declarations : q.declarations = p.declarations
  lines : List.Forall₂ Line.Restates p.lines q.lines

/-- The step `t'` is `t` with its dependencies in another order. -/
structure Step.Restates (t t' : Step) : Prop where
  number : t'.number = t.number
  formula : t'.formula = t.formula
  kind : t'.kind = t.kind
  rule : t'.rule = t.rule
  dependencies : t'.dependencies.Perm t.dependencies

namespace Step

variable {ts ts' : List Step}

theorem find?_of_restates (h : List.Forall₂ Restates ts ts') {n : LineNumber} {t : Step}
    (ht : find? ts n = some t) : ∃ t', find? ts' n = some t' ∧ t.Restates t' := by
  induction h with
  | nil => cases ht
  | @cons u u' ts ts' hu _ ih =>
    rw [find?_cons] at ht ⊢
    rw [hu.number]
    split at ht
    · rename_i hn
      obtain rfl := Option.some.inj ht
      exact ⟨u', if_pos hn, hu⟩
    · rename_i hn
      rw [if_neg hn]
      exact ih ht

end Step

namespace Checker.State

/-- The state after restated lines. -/
structure Restates (s s' : State) : Prop where
  cursor : s'.cursor = s.cursor
  accepted : List.Forall₂ Step.Restates s.accepted s'.accepted
  assumptions : List.Forall₂ Step.Restates s.assumptions s'.assumptions

variable {Γ : Setting} {s s' s₁ : State} {l l' : Line} {step : Step} {cited cited' : List Step}

theorem Restates.last? (hs : s.Restates s') (h : s.last? = some step) :
    ∃ step', s'.last? = some step' ∧ step.Restates step' := by
  obtain ⟨earlier, hearlier⟩ := List.head?_eq_some_iff.1 h
  have haccepted := hs.accepted
  rw [hearlier] at haccepted
  obtain ⟨step', earlier', hstep, -, heq⟩ := List.forall₂_cons_left_iff.1 haccepted
  exact ⟨step', by rw [State.last?, heq, List.head?_cons], hstep⟩

/-- The cited steps are found again, in the order in which they are cited. -/
theorem Restates.cites (hs : s.Restates s') {n : LineNumber} {refs refs' : List LineNumber}
    (hcited : s.Cites n refs cited) (hrefs : refs'.Perm refs) :
    ∃ cited', s'.Cites n refs' cited' ∧ (cited'.map (·.number)).Perm (cited.map (·.number)) ∧
      (cited'.map (·.formula)).Perm (cited.map (·.formula)) := by
  obtain ⟨mid, hmid, hperm⟩ := List.perm_comp_forall₂ hrefs hcited
  obtain ⟨cited', hcited', hrestates⟩ :
      ∃ cited', s'.Cites n refs' cited' ∧ List.Forall₂ Step.Restates mid cited' := by
    clear hrefs hperm
    induction hmid with
    | nil => exact ⟨[], .nil, .nil⟩
    | cons href _ ih =>
      obtain ⟨t', hfind, ht⟩ := Step.find?_of_restates hs.accepted href.1
      obtain ⟨cited', hcited', hrestates⟩ := ih
      exact ⟨t' :: cited', .cons ⟨hfind, href.2⟩ hcited', .cons ht hrestates⟩
  refine ⟨cited', hcited', ?_, ?_⟩
  · rw [map_eq_of_forall₂ (fun _ _ h => h.number) hrestates]
    exact hperm.map _
  · rw [map_eq_of_forall₂ (fun _ _ h => h.formula) hrestates]
    exact hperm.map _

/-- Neither the spelling of the rule nor the order of the premises matters. -/
theorem justify_restate {kind : StepKind} (hl : l.Restates l')
    (hcited : (cited'.map (·.formula)).Perm (cited.map (·.formula)))
    (h : justify Γ l cited = .ok kind) : justify Γ l' cited' = .ok kind := by
  have hnil : cited' = [] ↔ cited = [] := by
    rw [← List.length_eq_zero_iff, ← List.length_eq_zero_iff]
    simpa using (congrArg (· = 0) hcited.length_eq).to_iff
  simp only [justify_eq_ok, Rule.justify_eq_ok] at h ⊢
  simpa only [hl.ruleKey, hl.formula, hnil, Rule.justifies_perm _ hcited] using h

/-- **A restated line is accepted.** -/
theorem Accepts.restate (hs : s.Restates s') (hl : l.Restates l') (h : Accepts Γ s l s₁ step) :
    ∃ s₁' step', Accepts Γ s' l' s₁' step' ∧ s₁.Restates s₁' := by
  cases h with
  | opening hatoms hnumber hmode hrule hrefs =>
    have hstep : (assumptionStep l).Restates (assumptionStep l') :=
      ⟨hl.number, hl.formula, rfl, rfl, .nil⟩
    refine ⟨_, _, .opening ?_ ?_ hmode ?_ ?_,
      ⟨hl.number, .cons hstep hs.accepted, .cons hstep hs.assumptions⟩⟩
    · rw [hl.formula]; exact hatoms
    · rw [hs.cursor, hl.number]; exact hnumber
    · rw [hl.ruleKey]; exact hrule
    · exact (hrefs ▸ hl.refs).eq_nil
  | @inside kind cited hatoms hnumber hcited hjustify =>
    obtain ⟨cited', hcited', hnumbers, hformulas⟩ := hs.cites hcited hl.refs
    have hstep : (ordinaryStep l kind cited).Restates (ordinaryStep l' kind cited') :=
      ⟨hl.number, hl.formula, rfl, hl.ruleKey, hnumbers⟩
    refine ⟨_, _, .inside ?_ ?_ ?_ (justify_restate hl hformulas hjustify),
      ⟨hl.number, .cons hstep hs.accepted, hs.assumptions⟩⟩
    · rw [hl.formula]; exact hatoms
    · rw [hs.cursor, hl.number]; exact hnumber
    · rw [hl.number]; exact hcited'
  | @closing assumption conclusion outer hatoms hnumber hmode hrule hrefs hassumption hlast
      hformula =>
    have hassumptions := hs.assumptions
    rw [hassumption] at hassumptions
    obtain ⟨assumption', outer', ha, houter, hassumption'⟩ :=
      List.forall₂_cons_left_iff.1 hassumptions
    obtain ⟨conclusion', hlast', hc⟩ := hs.last? hlast
    have hstep : (closingStep l assumption conclusion).Restates
        (closingStep l' assumption' conclusion') :=
      ⟨hl.number, hl.formula, rfl, rfl, by rw [closingStep, closingStep, ha.number, hc.number]⟩
    refine ⟨_, _, .closing ?_ ?_ hmode ?_ ?_ hassumption' hlast' ?_,
      ⟨hl.number, .cons hstep hs.accepted, houter⟩⟩
    · rw [hl.formula]; exact hatoms
    · rw [hs.cursor, hl.number]; exact hnumber
    · rw [hl.ruleKey]; exact hrule
    · exact (hrefs ▸ hl.refs).eq_nil
    · rw [hl.formula, hformula, ha.formula, hc.formula]

/-- **A restated run is a run.** -/
theorem Run.restate {ls ls' : List Line} (hs : s.Restates s')
    (hls : List.Forall₂ Line.Restates ls ls') (h : Run Γ s ls s₁) :
    ∃ s₁', Run Γ s' ls' s₁' ∧ s₁.Restates s₁' := by
  induction h generalizing s' ls' with
  | nil =>
    cases hls
    exact ⟨s', .nil, hs⟩
  | cons hstep _ ih =>
    obtain ⟨l', ls', hl, hrest, rfl⟩ := List.forall₂_cons_left_iff.1 hls
    obtain ⟨s₂', step', hstep', hs'⟩ := hstep.restate hs hl
    obtain ⟨s₁', hrun', hs₁⟩ := ih hs' hrest
    exact ⟨s₁', .cons hstep' hrun', hs₁⟩

/-! ## The lines of the accepted steps -/

theorem Cites.map_number {n : LineNumber} {refs : List LineNumber} (h : s.Cites n refs cited) :
    cited.map (·.number) = refs := by
  induction h with
  | nil => rfl
  | cons href _ ih => rw [List.map_cons, ih, (Step.find?_mem href.1).2]

theorem Accepts.restates_line (hcatalog : Γ.catalog.Normalized) (h : Accepts Γ s l s₁ step) :
    l.Restates step.line := by
  refine ⟨h.number_eq, h.formula_eq, (h.normalize_rule hcatalog).trans h.rule_eq, ?_⟩
  cases h with
  | opening _ _ _ _ hrefs => rw [hrefs]; exact .nil
  | closing _ _ _ _ hrefs => rw [hrefs]; exact .nil
  | inside _ _ hcited hjustify =>
    rw [Step.refs_line (kind_ne_directProof hjustify)]
    exact .of_eq hcited.map_number

/-- **The accepted steps restate the lines.** -/
theorem Run.restates_line {ls : List Line} (hcatalog : Γ.catalog.Normalized) (h : Run Γ s ls s₁) :
    ∃ new : List Step, s₁.accepted = new.reverse ++ s.accepted ∧
      List.Forall₂ Line.Restates ls (new.map Step.line) := by
  induction h with
  | nil => exact ⟨[], rfl, .nil⟩
  | @cons s s' s₁ l ls step hstep _ ih =>
    obtain ⟨new, haccepted, hrestates⟩ := ih
    refine ⟨step :: new, ?_, .cons (hstep.restates_line hcatalog) hrestates⟩
    rw [haccepted, hstep.accepted_eq, List.reverse_cons, List.append_assoc]; rfl

end Checker.State

open Checker (State)

/-- **A restated proof is accepted.** -/
theorem Proof.check_restate {p q : Proof} {c : Catalog} {r : Checked} (hq : p.Restates q)
    (h : p.check c = .ok r) :
    ∃ r', q.check c = .ok r' ∧ List.Forall₂ Step.Restates r.steps r'.steps ∧
      r.conclusion.Restates r'.conclusion := by
  obtain ⟨s, hrun, hsteps, hlast, hend⟩ := Proof.check_ok_iff.1 h
  obtain ⟨s', hrun', hs⟩ := hrun.restate ⟨rfl, .nil, .nil⟩ hq.lines
  obtain ⟨conclusion, hlast', hconclusion⟩ := hs.last? hlast
  refine ⟨⟨s'.accepted, conclusion⟩, Proof.check_ok_iff.2 ⟨s', ?_, rfl, hlast', ?_⟩, ?_,
    hconclusion⟩
  · rw [setting, hq.mode, hq.declarations]; exact hrun'
  · have hassumptions := hs.assumptions
    rw [hend] at hassumptions
    exact List.forall₂_nil_left_iff.1 hassumptions
  · rw [hsteps]; exact hs.accepted

/-- The steps of a checked proof restate its lines. -/
theorem Proof.check_restates_line {p : Proof} {c : Catalog} {r : Checked} (hcatalog : c.Normalized)
    (h : p.check c = .ok r) : List.Forall₂ Line.Restates p.lines (r.steps.reverse.map Step.line) := by
  obtain ⟨s, hrun, hsteps, -, -⟩ := Proof.check_ok_iff.1 h
  obtain ⟨new, haccepted, hrestates⟩ := hrun.restates_line hcatalog
  rw [hsteps, haccepted, List.reverse_append, List.reverse_reverse]
  exact hrestates

end Deduction
