/-
  Checking again what is kept of an accepted proof.

  The kept lines may be any set that contains, with each line, what the line
  depends on and the sub-proofs around it (`Kept`).  Under their new numbers
  they are accepted, and they lead from kept state to kept state:

  * `Accepts.keep_of_mem`: a kept line is accepted again;
  * `Accepts.keep_of_notMem`: a line that is not kept changes nothing;
  * `Run.keep`: so what is kept of a run is a run.
-/
import Deduction.Proofs.Checker.Invariant
import Deduction.Proofs.Compaction.Renumbering
import Deduction.Proofs.RuleSoundness

namespace Deduction

/-- The rules are registered under normalized names, as they are cited. -/
def Catalog.Normalized (c : Catalog) : Prop :=
  ∀ name ∈ c.names, RuleName.normalize name = name

instance (c : Catalog) : Decidable c.Normalized :=
  inferInstanceAs (Decidable (∀ name ∈ c.names, RuleName.normalize name = name))

theorem RuleName.normalize_keyword : ∀ name ∈ [assumption, given, directProof],
    normalize name = name := by decide +kernel

namespace Step

/-- The step under a new number, where the lines that it depends on have new
    numbers, too. -/
def mapNumbers (f : LineNumber → LineNumber) (t : Step) : Step :=
  { t with number := f t.number, dependencies := t.dependencies.map f }

/-- The step when only `kept` remains. -/
def renumber (kept : List LineNumber) : Step → Step := mapNumbers (LineNumber.renumber kept)

/-- The line that states a step again. -/
def line (t : Step) : Line :=
  ⟨t.number, t.formula, ⟨t.rule, if t.kind = .directProof then [] else t.dependencies⟩⟩

/-- What is kept of a list of steps. -/
def keep (kept : List LineNumber) (steps : List Step) : List Step :=
  (steps.filter (·.number ∈ kept)).map (renumber kept)

/-- The lines `kept` of a proof can stand alone. -/
structure Kept (kept : List LineNumber) (steps : List Step) : Prop where
  blocks : LineNumber.BlocksKept kept
  dependencies : ∀ t ∈ steps, t.number ∈ kept → ∀ d ∈ t.dependencies, d ∈ kept
  /-- The assumption of a kept sub-proof is kept, too. -/
  assumptions : ∀ a ∈ steps, a.kind = .assumption → ∀ n ∈ kept, a.number.enclosing = n.inward →
    a.number ∈ kept

section
variable {kept : List LineNumber} {steps : List Step} {t : Step}

theorem keep_cons_of_mem (h : t.number ∈ kept) :
    keep kept (t :: steps) = t.renumber kept :: keep kept steps := by
  simp [keep, h]

theorem keep_cons_of_notMem (h : t.number ∉ kept) : keep kept (t :: steps) = keep kept steps := by
  simp [keep, h]

theorem keep_append (kept : List LineNumber) (steps₁ steps₂ : List Step) :
    keep kept (steps₁ ++ steps₂) = keep kept steps₁ ++ keep kept steps₂ := by
  simp [keep]

theorem keep_reverse (kept : List LineNumber) (steps : List Step) :
    keep kept steps.reverse = (keep kept steps).reverse := by
  simp [keep]

theorem mapNumbers_id : mapNumbers id = id := by
  funext t; simp [mapNumbers]

theorem refs_line (h : t.kind ≠ .directProof) : t.line.citation.refs = t.dependencies := if_neg h

theorem mem_keep (ht : t ∈ steps) (h : t.number ∈ kept) : t.renumber kept ∈ keep kept steps :=
  List.mem_map_of_mem (List.mem_filter.2 ⟨ht, decide_eq_true h⟩)

end

end Step

namespace Checker.State

/-- What is kept of a state. -/
def keep (kept : List LineNumber) (s : State) : State :=
  ⟨s.cursor.shadow kept, Step.keep kept s.accepted, Step.keep kept s.assumptions⟩

variable {kept : List LineNumber} {steps : List Step} {Γ : Setting} {s s' : State} {l : Line}
  {step : Step}

theorem last?_keep (h : s.last? = some step) (hstep : step.number ∈ kept) :
    (s.keep kept).last? = some (step.renumber kept) := by
  obtain ⟨earlier, hearlier⟩ := List.head?_eq_some_iff.1 h
  rw [last?, keep, hearlier, Step.keep_cons_of_mem hstep, List.head?_cons]

theorem keep_initial : State.initial.keep kept = .initial := by
  simp [keep, State.initial, LineNumber.zero, LineNumber.shadow, LineNumber.renumber,
    LineNumber.rank, LineNumber.rerank, Step.keep]

namespace Accepts

/-- **A line that is not kept changes nothing.** -/
theorem keep_of_notMem (hkept : Step.Kept kept steps) (hs : Wf s) (h : Accepts Γ s l s' step)
    (hmem : step ∈ steps) (hstep : step.number ∉ kept) : s'.keep kept = s.keep kept := by
  cases h with
  | opening _ hnumber =>
    obtain ⟨-, hn⟩ := LineNumber.open?_eq_some.1 hnumber
    have hclosing : ⟨s.cursor.slot + 1, s.cursor.enclosing⟩ ∉ kept := fun hclosing =>
      hstep (hkept.assumptions _ hmem rfl _ hclosing (congrArg LineNumber.enclosing hn))
    have hshadow : l.number.shadow kept = s.cursor.shadow kept := by
      rw [hn, LineNumber.shadow_eq_shadow rfl hclosing, LineNumber.shadow_succ_of_notMem hclosing]
    simp only [keep, hshadow, Step.keep_cons_of_notMem hstep]
  | inside _ hnumber =>
    obtain ⟨-, hn⟩ := LineNumber.next?_eq_some.1 hnumber
    have hshadow : l.number.shadow kept = s.cursor.shadow kept := by
      have hstep' : l.number ∉ kept := hstep
      rw [hn] at hstep' ⊢
      exact LineNumber.shadow_succ_of_notMem hstep'
    simp only [keep, hshadow, Step.keep_cons_of_notMem hstep]
  | @closing assumption _ outer _ hnumber _ _ _ hassumption =>
    -- a kept assumption would keep its sub-proof
    have hdropped : assumption.number ∉ kept := fun hassumption' =>
      hstep (hkept.blocks _ hassumption' l.number
        (by rw [(hs.assumption_number hnumber hassumption).1]))
    simp only [keep, hassumption, Step.keep_cons_of_notMem hstep,
      Step.keep_cons_of_notMem hdropped, LineNumber.shadow_eq_shadow hnumber hstep]

theorem rule_mem (h : Accepts Γ s l s' step) :
    step.rule ∈ [RuleName.assumption, RuleName.given, RuleName.directProof] ∨
      step.rule ∈ Γ.catalog.names := by
  cases h with
  | opening => exact .inl (by simp [assumptionStep])
  | closing => exact .inl (by simp [closingStep])
  | inside _ _ _ hjustify =>
    rcases justify_eq_ok.1 hjustify with ⟨hgiven, -⟩ | ⟨-, rule, hget, -⟩
    · exact .inl (by simp [ordinaryStep, hgiven])
    · exact .inr (List.mem_map_of_mem (Catalog.mem_entries_of_get? hget))

/-- A step has the name of its rule in the form in which the rule is cited. -/
theorem normalize_rule (hcatalog : Γ.catalog.Normalized) (h : Accepts Γ s l s' step) :
    RuleName.normalize step.rule = step.rule :=
  h.rule_mem.elim (RuleName.normalize_keyword _) (hcatalog _)

theorem keep_eq (hblocks : LineNumber.BlocksKept kept) (h : Accepts Γ s l s' step)
    (hstep : step.number ∈ kept) : s'.keep kept = ⟨step.number.renumber kept,
      step.renumber kept :: (s.keep kept).accepted, Step.keep kept s'.assumptions⟩ := by
  rw [keep, h.accepted_eq, Step.keep_cons_of_mem hstep, h.cursor_eq,
    LineNumber.shadow_of_mem hblocks hstep]
  rfl

/-- **A kept line is accepted again**, under its new number. -/
theorem keep_of_mem (hkept : Step.Kept kept steps) (hcatalog : Γ.catalog.Normalized)
    (hs' : Wf (s.keep kept)) (h : Accepts Γ s l s' step) (hmem : step ∈ steps)
    (hstep : step.number ∈ kept) :
    Accepts Γ (s.keep kept) (step.renumber kept).line (s'.keep kept) (step.renumber kept) := by
  have hnormal := h.normalize_rule hcatalog
  have hdependencies := hkept.dependencies step hmem hstep
  rw [h.keep_eq hkept.blocks hstep]
  cases h with
  | opening hatoms hnumber hmode =>
    rw [Step.keep_cons_of_mem hstep]
    exact .opening hatoms (LineNumber.open?_shadow hkept.blocks hnumber hstep) hmode hnormal rfl
  | @inside kind cited hatoms hnumber hcited hjustify =>
    have hrule : ((ordinaryStep l kind cited).renumber kept).line.citation.ruleKey =
        l.citation.ruleKey := hnormal
    have hdependencies' : ((ordinaryStep l kind cited).renumber kept).dependencies =
        (cited.map (Step.renumber kept)).map (·.number) := by
      rw [List.map_map]; exact List.map_map
    have hcited' : (s.keep kept).Cites (l.number.renumber kept)
        ((ordinaryStep l kind cited).renumber kept).line.citation.refs
        (cited.map (Step.renumber kept)) := by
      rw [Step.refs_line (kind_ne_directProof hjustify), hdependencies']
      refine hs'.cites fun u' hu' => ?_
      obtain ⟨u, hu, rfl⟩ := List.mem_map.1 hu'
      obtain ⟨haccepted, haccess⟩ := hcited.of_mem hu
      exact ⟨Step.mem_keep haccepted (hdependencies _ (List.mem_map_of_mem hu)),
        LineNumber.hasAccess_renumber hkept.blocks hstep haccess⟩
    have hstep' : ordinaryStep ((ordinaryStep l kind cited).renumber kept).line kind
        (cited.map (Step.renumber kept)) = (ordinaryStep l kind cited).renumber kept := by
      rw [ordinaryStep, ← hdependencies', hrule]; rfl
    have haccepts := Accepts.inside (l := ((ordinaryStep l kind cited).renumber kept).line) hatoms
      (LineNumber.next?_shadow hkept.blocks hnumber hstep) hcited'
      (justify_congr hrule rfl (by rw [List.map_map]; rfl) hjustify)
    rw [hstep'] at haccepts
    exact haccepts
  | @closing assumption conclusion outer hatoms hnumber hmode _ _ hassumption hlast hformula =>
    have hassumption' : (s.keep kept).assumptions =
        assumption.renumber kept :: Step.keep kept outer := by
      rw [keep, hassumption, Step.keep_cons_of_mem (hdependencies _ List.mem_cons_self)]
    have hlast' : (s.keep kept).last? = some (conclusion.renumber kept) :=
      last?_keep hlast (hdependencies _ (by simp [closingStep]))
    exact .closing (l := ((closingStep l assumption conclusion).renumber kept).line) hatoms
      (LineNumber.enclosing_shadow hnumber hstep) hmode hnormal rfl hassumption'
      hlast' hformula

theorem keep (hkept : Step.Kept kept steps) (hcatalog : Γ.catalog.Normalized) (hs : Wf s)
    (hs' : Wf (s.keep kept)) (h : Accepts Γ s l s' step) (hmem : step ∈ steps) :
    Run Γ (s.keep kept) ((Step.keep kept [step]).map Step.line) (s'.keep kept) := by
  by_cases hstep : step.number ∈ kept
  · rw [Step.keep_cons_of_mem hstep]
    exact .cons (h.keep_of_mem hkept hcatalog hs' hmem hstep) .nil
  · rw [Step.keep_cons_of_notMem hstep, h.keep_of_notMem hkept hs hmem hstep]
    exact .nil

end Accepts

/-- **What is kept of a run is a run.** -/
theorem Run.keep {ls : List Line} (hkept : Step.Kept kept steps) (hcatalog : Γ.catalog.Normalized)
    (hs : Wf s) (hs' : Wf (s.keep kept)) (h : Run Γ s ls s') (hsub : s'.accepted ⊆ steps) :
    ∃ new, s'.accepted = new.reverse ++ s.accepted ∧
      Run Γ (s.keep kept) ((Step.keep kept new).map Step.line) (s'.keep kept) := by
  induction h with
  | nil => exact ⟨[], rfl, .nil⟩
  | @cons s s₁ s₂ l ls step hstep hrun ih =>
    have hmem : step ∈ steps :=
      hsub (hrun.accepted_subset (hstep.accepted_eq ▸ List.mem_cons_self))
    have hfirst := hstep.keep hkept hcatalog hs hs' hmem
    obtain ⟨new, haccepted, hrest⟩ := ih (hs.of_accepts hstep) (hs'.of_run hfirst) hsub
    refine ⟨step :: new, ?_, ?_⟩
    · rw [haccepted, hstep.accepted_eq, List.reverse_cons, List.append_assoc]; rfl
    · rw [← List.singleton_append, Step.keep_append, List.map_append]
      exact append_iff.2 ⟨_, hfirst, hrest⟩

end Checker.State

end Deduction
