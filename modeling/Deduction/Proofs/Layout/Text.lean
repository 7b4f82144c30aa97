/-
  The canonical text of an accepted proof.

  * `Layout.text_of_restates`: proofs that restate each other have the same text;
  * `Accepts.printable_titled`: an accepted line can be written with the title
    of its rule.  Its numbers are in range since the checker counts from the
    first line on (`Run.inRange`), and the rule that it cites has a title;
  * `Proof.parse_layout_text`: so the text of an accepted proof is read, and what
    is read restates the proof.
-/
import Deduction.Layout.Text
import Deduction.Proofs.Checker.Restated
import Deduction.Proofs.RuleName
import Deduction.Proofs.Source.Document

namespace Deduction

/-! ## Titles -/

/-- The line with the title of its rule. -/
def Line.titled (l : Line) : Line :=
  { l with citation := { l.citation with rule := RuleName.titleCase l.citation.rule } }

/-- The proof with the titles of its rules. -/
def Proof.titled (p : Proof) : Proof := { p with lines := p.lines.map Line.titled }

namespace Layout

variable {l l' : Line} {p q : Proof}

theorem text_eq (p : Proof) : text p = p.titled.text := by
  simp only [text, Proof.text, Proof.titled, List.map_map]
  rfl

/-- Neither the spelling of the rule nor the order of the references shows. -/
theorem textLine_of_restates (h : l.Restates l') : textLine l' = textLine l := by
  have hsorted : l'.titled.sorted = l.titled.sorted := by
    simp only [Line.titled, Line.sorted, Citation.sorted, h.number, h.formula,
      RuleName.titleCase_congr h.ruleKey, LineNumber.sort_eq_of_perm h.refs]
  calc textLine l' = l'.titled.sorted.text := (Line.text_sorted l'.titled).symm
    _ = l.titled.sorted.text := by rw [hsorted]
    _ = textLine l := Line.text_sorted l.titled

/-- **Proofs that restate each other have the same canonical text.** -/
theorem text_of_restates (h : p.Restates q) : text q = text p := by
  have hmap : q.lines.map (fun l => textLine l ++ "\n") = p.lines.map (fun l => textLine l ++ "\n") :=
    map_eq_of_forall₂ (fun _ _ hl => by rw [textLine_of_restates hl]) h.lines
  rw [text, text, h.mode, h.declarations, hmap]

end Layout

/-! ## Numbers in range -/

theorem LineNumber.inRange_iff {n : LineNumber} : n.InRange ↔ ∀ k ∈ n.inward, k ≤ maxSlot := by
  simp only [InRange, path, List.mem_reverse]

theorem StepKind.inRange_of_numberAfter? {kind : StepKind} {cursor n : LineNumber}
    (h : kind.numberAfter? cursor = some n) (hcursor : cursor.InRange) : n.InRange := by
  rw [LineNumber.inRange_iff] at hcursor ⊢
  intro k hk
  rcases mem_inward_of_numberAfter? h hk with rfl | hk | ⟨rfl, hlt⟩
  · decide
  · exact hcursor k hk
  · exact hlt

namespace Checker.State

/-- The numbers that have been used can be written. -/
structure InRange (s : State) : Prop where
  cursor : s.cursor.InRange
  accepted : ∀ t ∈ s.accepted, t.number.InRange

variable {Γ : Setting} {s s' : State} {l : Line} {ls : List Line} {step : Step}

theorem Accepts.inRange_number (hs : s.InRange) (h : Accepts Γ s l s' step) :
    step.number.InRange :=
  StepKind.inRange_of_numberAfter? h.numberAfter?_eq hs.cursor

theorem Run.inRange (h : Run Γ .initial ls s) : s.InRange := by
  refine h.preserves (fun l _ s s' step hstep hs => ?_)
    ⟨LineNumber.inRange_iff.2 (List.forall_mem_singleton.2 (Nat.zero_le _)), List.forall_mem_nil _⟩
  have hnumber := hstep.inRange_number hs
  refine ⟨?_, ?_⟩
  · rw [hstep.cursor_eq]; exact hnumber
  · rw [hstep.accepted_eq]; exact List.forall_mem_cons.2 ⟨hnumber, hs.accepted⟩

theorem Accepts.inRange_refs (hs : s.InRange) (h : Accepts Γ s l s' step) :
    ∀ n ∈ l.citation.refs, n.InRange := by
  cases h with
  | opening _ _ _ _ hrefs => rw [hrefs]; exact List.forall_mem_nil _
  | closing _ _ _ _ hrefs => rw [hrefs]; exact List.forall_mem_nil _
  | inside _ _ hcited _ =>
    rw [← hcited.map_number, List.forall_mem_map]
    exact fun t ht => hs.accepted t (hcited.of_mem ht).1

/-! ## Reading the text of an accepted proof -/

theorem Run.exists_accepts (h : Run Γ s ls s') (hl : l ∈ ls) :
    ∃ ls₁ s₁ s₂ step, Run Γ s ls₁ s₁ ∧ Accepts Γ s₁ l s₂ step := by
  obtain ⟨ls₁, ls₂, rfl⟩ := List.append_of_mem hl
  obtain ⟨s₁, hbefore, _ | ⟨hstep, -⟩⟩ := Run.append_iff.1 h
  exact ⟨ls₁, s₁, _, _, hbefore, hstep⟩

section
variable (hnormalized : Γ.catalog.Normalized) (htitled : Γ.catalog.Titled)
include hnormalized htitled

/-- The rule of an accepted line has a title. -/
theorem Accepts.exists_hasTitle (h : Accepts Γ s l s' step) :
    ∃ name, RuleName.HasTitle name ∧ RuleName.normalize l.citation.rule = RuleName.normalize name :=
  ⟨step.rule, h.rule_mem.elim (RuleName.hasTitle_keyword _) (htitled _),
    h.rule_eq.symm.trans (h.normalize_rule hnormalized).symm⟩

theorem Accepts.printable_titled (hs : s.InRange) (hformula : l.formula.Readable)
    (h : Accepts Γ s l s' step) : l.titled.Printable := by
  obtain ⟨name, hname, hkey⟩ := h.exists_hasTitle hnormalized htitled
  have hnumber := h.inRange_number hs
  have hrefs := h.inRange_refs hs
  have hrule := hname.isRuleName
  rw [← RuleName.titleCase_congr hkey] at hrule
  rw [h.number_eq] at hnumber
  exact ⟨hnumber, hformula, hrule, hrefs⟩

/-- The title of the rule cites the same rule. -/
theorem Accepts.restates_titled (h : Accepts Γ s l s' step) : l.Restates l.titled.sorted := by
  obtain ⟨name, hname, hkey⟩ := h.exists_hasTitle hnormalized htitled
  refine ⟨rfl, rfl, ?_, LineNumber.sort_perm _⟩
  calc RuleName.normalize (RuleName.titleCase l.citation.rule)
    _ = RuleName.normalize (RuleName.titleCase name) := by rw [RuleName.titleCase_congr hkey]
    _ = RuleName.normalize name := hname.normalize_titleCase
    _ = RuleName.normalize l.citation.rule := hkey.symm

end

end Checker.State

/-- **The canonical text of an accepted proof is read**, and what is read restates
    the proof. -/
theorem Proof.parse_layout_text {p : Proof} {c : Catalog} {r : Checked} (hnormalized : c.Normalized)
    (htitled : c.Titled) (hcheck : p.check c = .ok r) (hdeclarations : p.declarations.Printable)
    (hformulas : ∀ l ∈ p.lines, l.formula.Readable) :
    ∃ q, Proof.parse (Layout.text p) = .ok q ∧ p.Restates q := by
  obtain ⟨s, hrun, -, -, -⟩ := Proof.check_ok_iff.1 hcheck
  refine ⟨p.titled.sorted, ?_, rfl, rfl, ?_⟩
  · rw [Layout.text_eq]
    refine parse_text ⟨hdeclarations, List.forall_mem_map.2 fun l hl => ?_⟩
    obtain ⟨ls₁, s₁, s₂, step, hbefore, hstep⟩ := hrun.exists_accepts hl
    exact hstep.printable_titled hnormalized htitled hbefore.inRange (hformulas l hl)
  · simp only [sorted, titled, List.map_map, List.forall₂_map_right_iff, List.forall₂_same]
    intro l hl
    obtain ⟨ls₁, s₁, s₂, step, -, hstep⟩ := hrun.exists_accepts hl
    exact hstep.restates_titled hnormalized htitled

end Deduction
