/-
  Runs of the checker.

  * `Accepts`: what it takes for a line to be accepted, and what the checker
    then records; `feed_ok_iff` says that this is exactly what `feed` does.
  * `Run`: a run without rejected lines, with `feedAll_ok_iff` for a list of
    lines and `check_ok_iff` for a whole proof.
-/
import Deduction.Checker.Basic
import Deduction.Proofs.LineNumber
import Mathlib.Data.List.Forall2

namespace Deduction

theorem exists_of_forall₂ {α β : Type} {R : α → β → Prop} {xs : List α} {ys : List β} {x : α}
    (h : List.Forall₂ R xs ys) (hx : x ∈ xs) : ∃ y ∈ ys, R x y := by
  induction h with
  | nil => cases hx
  | @cons x' y xs ys hxy _ ih =>
    rcases List.mem_cons.1 hx with rfl | hx
    · exact ⟨y, List.mem_cons_self, hxy⟩
    · obtain ⟨y', hy', hxy'⟩ := ih hx
      exact ⟨y', List.mem_cons_of_mem _ hy', hxy'⟩

theorem mapM_eq_ok {α β ε : Type} {f : α → Except ε β} {xs : List α} {ys : List β} :
    xs.mapM f = .ok ys ↔ List.Forall₂ (fun x y => f x = .ok y) xs ys := by
  induction xs generalizing ys with
  | nil => simp [pure, Except.pure, eq_comm]
  | cons x xs ih =>
    rw [List.mapM_cons, List.forall₂_cons_left_iff]
    cases hx : f x with
    | error e => simp [bind, Except.bind]
    | ok y =>
      cases hxs : xs.mapM f with
      | error e => simp [bind, Except.bind, ← ih, hxs]
      | ok zs => simp [bind, Except.bind, pure, Except.pure, ← ih, hxs, eq_comm]

theorem of_mapM_eq_error {α β ε : Type} {f : α → Except ε β} {xs : List α} {e : ε}
    (h : xs.mapM f = .error e) : ∃ x ∈ xs, f x = .error e := by
  induction xs with
  | nil => cases h
  | cons x xs ih =>
    rw [List.mapM_cons] at h
    cases hx : f x with
    | error e' =>
      rw [hx] at h
      obtain rfl := Except.error.inj h
      exact ⟨x, List.mem_cons_self, hx⟩
    | ok y =>
      cases hxs : xs.mapM f with
      | ok ys => rw [hx, hxs] at h; cases h
      | error e' =>
        rw [hx, hxs] at h
        obtain rfl := Except.error.inj h
        obtain ⟨x', hx', hf⟩ := ih hxs
        exact ⟨x', List.mem_cons_of_mem _ hx', hf⟩

/-! ## Places -/

namespace Place

variable {cursor n : LineNumber}

theorem of_close (h : cursor.enclosing = n.inward) : of cursor n = closing := by
  simp [of, LineNumber.levels, h, LineNumber.inward]

theorem of_enclosing_eq (h : cursor.enclosing = n.enclosing) : of cursor n = inside := by
  simp [of, LineNumber.levels, h]

theorem of_enclosing_cons {slot : Nat} (h : n.enclosing = slot :: cursor.enclosing) :
    of cursor n = opening := by
  simp [of, LineNumber.levels, h]

theorem of_next? (h : cursor.next? = some n) : of cursor n = inside := by
  obtain ⟨-, rfl⟩ := LineNumber.next?_eq_some.1 h
  exact of_enclosing_eq rfl

theorem of_open? (h : cursor.open? = some n) : of cursor n = opening := by
  obtain ⟨-, rfl⟩ := LineNumber.open?_eq_some.1 h
  exact of_enclosing_cons rfl

/-- Only a line inside a sub-proof can be followed by a closing line. -/
theorem enclosing_eq_of_closing (h : of cursor n = closing) (hn : cursor.close = n) :
    cursor.enclosing = n.inward := by
  have hlevels : n.levels < cursor.levels := by
    unfold of at h; split at h
    · assumption
    · split at h <;> cases h
  obtain ⟨slot, _ | ⟨y, e⟩⟩ := cursor
  · simp [LineNumber.levels] at hlevels
  · rw [← hn]; rfl

end Place

/-- The components of the number that follows a line. -/
theorem StepKind.mem_inward_of_numberAfter? {kind : StepKind} {cursor n : LineNumber} {k : Nat}
    (h : kind.numberAfter? cursor = some n) (hk : k ∈ n.inward) :
    k = 1 ∨ k ∈ cursor.inward ∨ k = cursor.slot + 1 ∧ cursor.slot < LineNumber.maxSlot := by
  cases kind with
  | given | inference | equivalence =>
    obtain ⟨hlt, rfl⟩ := LineNumber.next?_eq_some.1 h
    rcases List.mem_cons.1 hk with rfl | hk
    · exact .inr (.inr ⟨rfl, hlt⟩)
    · exact .inr (.inl (List.mem_cons_of_mem _ hk))
  | assumption =>
    obtain ⟨hlt, rfl⟩ := LineNumber.open?_eq_some.1 h
    rcases List.mem_cons.1 hk with rfl | hk
    · exact .inl rfl
    rcases List.mem_cons.1 hk with rfl | hk
    · exact .inr (.inr ⟨rfl, hlt⟩)
    · exact .inr (.inl (List.mem_cons_of_mem _ hk))
  | directProof =>
    obtain rfl := Option.some.inj h
    obtain ⟨slot, _ | ⟨outer, enclosing⟩⟩ := cursor
    · exact .inr (.inl hk)
    · exact .inr (.inl (List.mem_cons_of_mem _ hk))

namespace Checker.State

/-! ## One line -/

/-- The lines `refs` that the line `n` cites are accepted and visible: they are
    the steps `cited`. -/
def Cites (s : State) (n : LineNumber) : List LineNumber → List Step → Prop :=
  List.Forall₂ fun ref step => Step.find? s.accepted ref = some step ∧ n.hasAccess ref = true

/-- The step of an assumption. -/
def assumptionStep (l : Line) : Step := ⟨l.number, l.formula, .assumption, RuleName.assumption, []⟩

/-- The step of an ordinary line. -/
def ordinaryStep (l : Line) (kind : StepKind) (cited : List Step) : Step :=
  ⟨l.number, l.formula, kind, l.citation.ruleKey, cited.map (·.number)⟩

/-- The step of a closing line. -/
def closingStep (l : Line) (assumption conclusion : Step) : Step :=
  ⟨l.number, l.formula, .directProof, RuleName.directProof, [assumption.number, conclusion.number]⟩

/-- What it takes for a line to be accepted at each of the three places, and
    the state and the step that follow. -/
inductive Accepts (Γ : Setting) (s : State) (l : Line) : State → Step → Prop
  /-- An assumption opens a sub-proof. -/
  | opening (hatoms : l.formula.findUndeclared Γ.declarations.isDeclared = none)
      (hnumber : s.cursor.open? = some l.number) (hmode : Γ.mode ≠ .equivalence)
      (hrule : l.citation.ruleKey = RuleName.assumption) (hrefs : l.citation.refs = []) :
      Accepts Γ s l
        ⟨l.number, assumptionStep l :: s.accepted, assumptionStep l :: s.assumptions⟩
        (assumptionStep l)
  /-- An ordinary line is justified by the steps that it cites. -/
  | inside {kind : StepKind} {cited : List Step}
      (hatoms : l.formula.findUndeclared Γ.declarations.isDeclared = none)
      (hnumber : s.cursor.next? = some l.number)
      (hcited : s.Cites l.number l.citation.refs cited) (hjustify : justify Γ l cited = .ok kind) :
      Accepts Γ s l ⟨l.number, ordinaryStep l kind cited :: s.accepted, s.assumptions⟩
        (ordinaryStep l kind cited)
  /-- A closing line discharges the innermost assumption. -/
  | closing {assumption conclusion : Step} {outer : List Step}
      (hatoms : l.formula.findUndeclared Γ.declarations.isDeclared = none)
      (hnumber : s.cursor.enclosing = l.number.inward) (hmode : Γ.mode ≠ .equivalence)
      (hrule : l.citation.ruleKey = RuleName.directProof) (hrefs : l.citation.refs = [])
      (hassumption : s.assumptions = assumption :: outer) (hlast : s.last? = some conclusion)
      (hformula : l.formula = .implies assumption.formula conclusion.formula) :
      Accepts Γ s l ⟨l.number, closingStep l assumption conclusion :: s.accepted, outer⟩
        (closingStep l assumption conclusion)

section
variable {Γ : Setting} {s s' : State} {l : Line} {step : Step} {cited : List Step}

theorem expectCount_eq_ok {n m : Nat} : RuleFault.expectCount n m = .ok () ↔ n = m := by
  simp only [RuleFault.expectCount]
  split
  · simp [*]
  · simp [*]

theorem cite_eq_ok {n ref : LineNumber} :
    s.cite n ref = .ok step ↔ Step.find? s.accepted ref = some step ∧ n.hasAccess ref = true := by
  simp only [cite]
  cases Step.find? s.accepted ref with
  | none => simp
  | some t =>
    by_cases h : n.hasAccess ref = true <;> simp [h]

theorem checkNumber_eq_ok {n : LineNumber} : s.checkNumber l = .ok n ↔
    (Place.of s.cursor l.number).expected? s.cursor = some l.number ∧ n = l.number := by
  simp only [checkNumber]
  cases (Place.of s.cursor l.number).expected? s.cursor with
  | none => simp
  | some m =>
    by_cases h : l.number = m
    · simp [h, eq_comm]
    · have h' : m ≠ l.number := fun e => h e.symm
      simp [h, h']

theorem mapM_cite_eq_ok {n : LineNumber} {refs : List LineNumber} :
    refs.mapM (s.cite n) = .ok cited ↔ s.Cites n refs cited := by
  simp only [mapM_eq_ok, cite_eq_ok, Cites]

theorem cites_nil_right {n : LineNumber} {refs : List LineNumber} :
    s.Cites n refs [] ↔ refs = [] := List.forall₂_nil_right_iff

theorem openSubproof_eq_ok : s.openSubproof Γ l cited = (s', .ok step) ↔
    Γ.mode ≠ .equivalence ∧ l.citation.ruleKey = RuleName.assumption ∧ cited = [] ∧
      step = assumptionStep l ∧
        s' = { s.accept (assumptionStep l) with assumptions := assumptionStep l :: s.assumptions } := by
  simp only [openSubproof]
  split
  · simp [*]
  · split
    · simp [*]
    · cases hc : RuleFault.expectCount 0 cited.length with
      | error f =>
        have hne : cited ≠ [] := by rintro rfl; simp [RuleFault.expectCount] at hc
        simp [hne]
      | ok _ =>
        have hnil : cited = [] := List.length_eq_zero_iff.1 (expectCount_eq_ok.1 hc).symm
        simp_all [assumptionStep, eq_comm, and_comm]

theorem closeSubproof_eq_ok : s.closeSubproof Γ l cited = (s', .ok step) ↔
    Γ.mode ≠ .equivalence ∧ l.citation.ruleKey = RuleName.directProof ∧ cited = [] ∧
      ∃ assumption outer conclusion, s.assumptions = assumption :: outer ∧
        s.last? = some conclusion ∧ l.formula = .implies assumption.formula conclusion.formula ∧
          step = closingStep l assumption conclusion ∧
            s' = { s.accept (closingStep l assumption conclusion) with assumptions := outer } := by
  simp only [closeSubproof]
  split
  · simp [*]
  · split
    · simp [*]
    · cases ha : s.assumptions with
      | nil => simp
      | cons assumption outer =>
        have hlast : ({ s with assumptions := outer } : State).last? = s.last? := rfl
        simp only [hlast]
        clear hlast
        cases hl : s.last? with
        | none => simp
        | some conclusion =>
          cases hc : RuleFault.expectCount 0 cited.length with
          | error f =>
            have hne : cited ≠ [] := by rintro rfl; simp [RuleFault.expectCount] at hc
            simp [hne]
          | ok _ =>
            have hnil : cited = [] := List.length_eq_zero_iff.1 (expectCount_eq_ok.1 hc).symm
            by_cases hf : l.formula = .implies assumption.formula conclusion.formula
            · simp only [hf, if_true]
              constructor
              · rintro ⟨⟩
                exact ⟨by assumption, by simp_all, hnil, assumption, outer, conclusion, rfl, rfl, rfl,
                  by rw [closingStep, hf], by rw [closingStep, hf]; rfl⟩
              · rintro ⟨-, -, -, _, _, _, ⟨⟩, ⟨⟩, -, rfl, rfl⟩
                simp [closingStep, accept, hf]
            · simp only [hf, if_false]
              constructor
              · rintro ⟨⟩
              · rintro ⟨-, -, -, _, _, _, ⟨⟩, ⟨⟩, hf', -⟩
                exact absurd hf' hf

theorem extend_eq_ok : s.extend Γ l cited = (s', .ok step) ↔
    ∃ kind, justify Γ l cited = .ok kind ∧ step = ordinaryStep l kind cited ∧
      s' = s.accept (ordinaryStep l kind cited) := by
  simp only [extend]
  cases justify Γ l cited with
  | error e => simp
  | ok kind => simp [ordinaryStep, eq_comm, and_comm]

/-- **A line is accepted exactly under the stated conditions.** -/
theorem feed_ok_iff : s.feed Γ l = (s', .ok step) ↔ Accepts Γ s l s' step := by
  constructor
  · intro h
    unfold feed at h
    split at h
    · cases h
    rename_i hatoms
    split at h
    · cases h
    rename_i n hn
    obtain ⟨hexpected, rfl⟩ := checkNumber_eq_ok.1 hn
    simp only at h
    split at h
    · cases h
    rename_i cited hcited
    have hcited := mapM_cite_eq_ok.1 hcited
    cases hplace : Place.of s.cursor l.number with
    | opening =>
      simp only [hplace, Place.expected?] at h hexpected
      obtain ⟨hmode, hrule, rfl, rfl, rfl⟩ := openSubproof_eq_ok.1 h
      exact .opening hatoms hexpected hmode hrule (cites_nil_right.1 hcited)
    | inside =>
      simp only [hplace, Place.expected?] at h hexpected
      obtain ⟨kind, hkind, rfl, rfl⟩ := extend_eq_ok.1 h
      exact .inside hatoms hexpected hcited hkind
    | closing =>
      simp only [hplace, Place.expected?, Option.some.injEq] at h hexpected
      obtain ⟨hmode, hrule, rfl, _, _, _, ha, hl, hf, rfl, rfl⟩ := closeSubproof_eq_ok.1 h
      exact .closing hatoms (Place.enclosing_eq_of_closing hplace hexpected) hmode hrule
        (cites_nil_right.1 hcited) ha hl hf
  · intro h
    unfold feed
    cases h with
    | opening hatoms hnumber hmode hrule hrefs =>
      have hplace := Place.of_open? hnumber
      have hn : s.checkNumber l = .ok l.number :=
        checkNumber_eq_ok.2 ⟨by rw [hplace]; exact hnumber, rfl⟩
      simp only [hatoms, hn, hplace, hrefs, List.mapM_nil, pure, Except.pure]
      exact openSubproof_eq_ok.2 ⟨hmode, hrule, rfl, rfl, rfl⟩
    | @inside kind cited hatoms hnumber hcited hjustify =>
      have hplace := Place.of_next? hnumber
      have hn : s.checkNumber l = .ok l.number :=
        checkNumber_eq_ok.2 ⟨by rw [hplace]; exact hnumber, rfl⟩
      have hc : l.citation.refs.mapM (({ s with cursor := l.number } : State).cite l.number) =
          .ok cited := mapM_cite_eq_ok.2 hcited
      simp only [hatoms, hn, hplace, hc]
      exact extend_eq_ok.2 ⟨kind, hjustify, rfl, rfl⟩
    | closing hatoms hnumber hmode hrule hrefs hassumption hlast hformula =>
      have hplace := Place.of_close hnumber
      have hn : s.checkNumber l = .ok l.number :=
        checkNumber_eq_ok.2 ⟨by rw [hplace, Place.expected?, LineNumber.close_eq hnumber], rfl⟩
      simp only [hatoms, hn, hplace, hrefs, List.mapM_nil, pure, Except.pure]
      exact closeSubproof_eq_ok.2
        ⟨hmode, hrule, rfl, _, _, _, hassumption, hlast, hformula, rfl, rfl⟩

/-- Why an ordinary line holds. -/
theorem justify_eq_ok {kind : StepKind} : justify Γ l cited = .ok kind ↔
    (l.citation.ruleKey = RuleName.given ∧ cited = [] ∧ Γ.declarations.isGiven l.formula = true ∧
      kind = .given) ∨
    (l.citation.ruleKey ≠ RuleName.given ∧ ∃ rule, Γ.catalog.get? l.citation.ruleKey = some rule ∧
      (Γ.mode = .equivalence → rule.isEquivalence = true) ∧
        rule.justify (cited.map (·.formula)) l.formula = .ok () ∧
          kind = if rule.isEquivalence then .equivalence else .inference) := by
  simp only [justify]
  split
  · rename_i hrule
    cases hc : RuleFault.expectCount 0 cited.length with
    | error f =>
      have hne : cited ≠ [] := by rintro rfl; simp [RuleFault.expectCount] at hc
      simp [hrule, hne]
    | ok _ =>
      have hnil : cited = [] := List.length_eq_zero_iff.1 (expectCount_eq_ok.1 hc).symm
      by_cases hg : Γ.declarations.isGiven l.formula = true
      · simp only [hg, if_true]
        constructor
        · rintro ⟨⟩; exact .inl ⟨hrule, hnil, trivial, rfl⟩
        · rintro (⟨-, -, -, rfl⟩ | ⟨hne, -⟩)
          · rfl
          · exact absurd hrule hne
      · simp [hrule, hg]
  · rename_i hrule
    cases hget : Γ.catalog.get? l.citation.ruleKey with
    | none => simp [hrule]
    | some rule =>
      simp only [Bool.and_eq_true, decide_eq_true_eq, Bool.not_eq_true']
      split
      · rename_i hm
        simp [hrule, hm]
      · rename_i hm
        have hm' : Γ.mode = .equivalence → rule.isEquivalence = true := by simpa using hm
        cases hj : rule.justify (cited.map (·.formula)) l.formula with
        | error f =>
          constructor
          · rintro ⟨⟩
          · rintro (⟨hne, -⟩ | ⟨-, _, ⟨⟩, -, hj', -⟩)
            · exact absurd hne hrule
            · rw [hj] at hj'; cases hj'
        | ok _ =>
          constructor
          · rintro ⟨⟩; exact .inr ⟨hrule, rule, rfl, hm', hj, rfl⟩
          · rintro (⟨hne, -⟩ | ⟨-, _, ⟨⟩, -, -, rfl⟩)
            · exact absurd hne hrule
            · rfl

theorem kind_ne_directProof {kind : StepKind} (h : justify Γ l cited = .ok kind) :
    kind ≠ .directProof := by
  rcases justify_eq_ok.1 h with ⟨-, -, -, rfl⟩ | ⟨-, rule, -, -, -, rfl⟩
  · exact nofun
  · cases rule <;> exact nofun

/-- Only the rule and the formulas matter. -/
theorem justify_congr {l' : Line} {cited' : List Step} {kind : StepKind}
    (hrule : l'.citation.ruleKey = l.citation.ruleKey) (hformula : l'.formula = l.formula)
    (hcited : cited'.map (·.formula) = cited.map (·.formula)) (h : justify Γ l cited = .ok kind) :
    justify Γ l' cited' = .ok kind := by
  have hnil : cited' = [] ↔ cited = [] := by
    rw [← List.map_eq_nil_iff, hcited, List.map_eq_nil_iff]
  rw [justify_eq_ok] at h ⊢
  rwa [hrule, hformula, hcited, hnil]

end

namespace Accepts

variable {Γ : Setting} {s s' : State} {l : Line} {step : Step}

theorem cursor_eq (h : Accepts Γ s l s' step) : s'.cursor = step.number := by cases h <;> rfl

theorem accepted_eq (h : Accepts Γ s l s' step) : s'.accepted = step :: s.accepted := by
  cases h <;> rfl

theorem last?_eq (h : Accepts Γ s l s' step) : s'.last? = some step := by
  rw [last?, h.accepted_eq, List.head?_cons]

theorem number_eq (h : Accepts Γ s l s' step) : step.number = l.number := by cases h <;> rfl

theorem formula_eq (h : Accepts Γ s l s' step) : step.formula = l.formula := by cases h <;> rfl

theorem rule_eq (h : Accepts Γ s l s' step) : step.rule = l.citation.ruleKey := by
  cases h with
  | opening _ _ _ hrule => exact hrule.symm
  | inside => rfl
  | closing _ _ _ hrule => exact hrule.symm

/-- A step has the number that its kind asks for. -/
theorem numberAfter?_eq (h : Accepts Γ s l s' step) :
    step.kind.numberAfter? s.cursor = some step.number := by
  cases h with
  | opening _ hnumber => exact hnumber
  | inside _ hnumber _ hjustify =>
    rcases justify_eq_ok.1 hjustify with ⟨-, -, -, rfl⟩ | ⟨-, rule, -, -, -, rfl⟩
    · exact hnumber
    · cases rule <;> exact hnumber
  | closing _ hnumber => exact congrArg some (LineNumber.close_eq hnumber)

theorem of_opening (h : Accepts Γ s l s' step) (hplace : Place.of s.cursor l.number = .opening) :
    l.formula.findUndeclared Γ.declarations.isDeclared = none ∧
      l.citation.ruleKey = RuleName.assumption ∧ l.citation.refs = [] ∧ step = assumptionStep l ∧
        s'.assumptions = step :: s.assumptions := by
  cases h with
  | opening hatoms _ _ hrule hrefs => exact ⟨hatoms, hrule, hrefs, rfl, rfl⟩
  | inside _ hnumber => rw [Place.of_next? hnumber] at hplace; cases hplace
  | closing _ hnumber => rw [Place.of_close hnumber] at hplace; cases hplace

theorem of_inside (h : Accepts Γ s l s' step) (hplace : Place.of s.cursor l.number = .inside) :
    l.formula.findUndeclared Γ.declarations.isDeclared = none ∧ s'.assumptions = s.assumptions ∧
      ∃ kind cited, s.Cites l.number l.citation.refs cited ∧ justify Γ l cited = .ok kind ∧
        step = ordinaryStep l kind cited := by
  cases h with
  | opening _ hnumber => rw [Place.of_open? hnumber] at hplace; cases hplace
  | inside hatoms _ hcited hjustify => exact ⟨hatoms, rfl, _, _, hcited, hjustify, rfl⟩
  | closing _ hnumber => rw [Place.of_close hnumber] at hplace; cases hplace

theorem of_closing (h : Accepts Γ s l s' step) (hplace : Place.of s.cursor l.number = .closing) :
    l.formula.findUndeclared Γ.declarations.isDeclared = none ∧
      l.citation.ruleKey = RuleName.directProof ∧ l.citation.refs = [] ∧
        ∃ assumption conclusion, s.assumptions = assumption :: s'.assumptions ∧
          s.last? = some conclusion ∧
            l.formula = .implies assumption.formula conclusion.formula ∧
              step = closingStep l assumption conclusion := by
  cases h with
  | opening _ hnumber => rw [Place.of_open? hnumber] at hplace; cases hplace
  | inside _ hnumber => rw [Place.of_next? hnumber] at hplace; cases hplace
  | closing hatoms _ _ hrule hrefs hassumption hlast hformula =>
    exact ⟨hatoms, hrule, hrefs, _, _, hassumption, hlast, hformula, rfl⟩

/-- A step comes after all that went before. -/
theorem cursor_lt (h : Accepts Γ s l s' step) : s.cursor < step.number := by
  cases h with
  | opening _ hnumber => exact LineNumber.lt_of_open? hnumber
  | inside _ hnumber => exact LineNumber.lt_of_next? hnumber
  | closing _ hnumber => exact LineNumber.lt_of_close hnumber

end Accepts

/-! ## Many lines -/

/-- A run without rejected lines. -/
inductive Run (Γ : Setting) : State → List Line → State → Prop
  | nil {s : State} : Run Γ s [] s
  | cons {s s₁ s₂ : State} {l : Line} {ls : List Line} {step : Step} (hstep : Accepts Γ s l s₁ step)
      (hrun : Run Γ s₁ ls s₂) : Run Γ s (l :: ls) s₂

section
variable {Γ : Setting} {s s' : State} {ls : List Line}

theorem feedAll_ok_iff : s.feedAll Γ ls = (s', .ok ()) ↔ Run Γ s ls s' := by
  induction ls generalizing s with
  | nil =>
    simp only [feedAll, Prod.mk.injEq, and_true]
    constructor
    · rintro rfl; exact .nil
    · rintro ⟨⟩; rfl
  | cons l ls ih =>
    rw [feedAll]
    constructor
    · intro h
      split at h
      · cases h
      · rename_i s₁ step hfeed
        exact .cons (feed_ok_iff.1 hfeed) (ih.1 h)
    · rintro (_ | ⟨hstep, hrun⟩)
      simp only [feed_ok_iff.2 hstep]
      exact ih.2 hrun

theorem finish_eq_ok {step : Step} :
    s.finish = .ok step ↔ s.last? = some step ∧ s.assumptions = [] := by
  simp only [finish]
  cases s.last? with
  | none => simp
  | some t => by_cases h : s.assumptions = [] <;> simp [h]

namespace Run

/-- Whatever each accepted line keeps, a run keeps. -/
theorem preserves {P : State → Prop} (h : Run Γ s ls s')
    (hstep : ∀ l ∈ ls, ∀ s s' step, Accepts Γ s l s' step → P s → P s') (hs : P s) : P s' := by
  induction h with
  | nil => exact hs
  | cons h _ ih =>
    exact ih (fun l hl => hstep l (List.mem_cons_of_mem _ hl)) (hstep _ List.mem_cons_self _ _ _ h hs)

theorem accepted_subset (h : Run Γ s ls s') : s.accepted ⊆ s'.accepted :=
  h.preserves (P := fun s₁ => s.accepted ⊆ s₁.accepted)
    (fun _ _ _ _ _ hstep ih => hstep.accepted_eq ▸ List.subset_cons_of_subset _ ih)
    (List.Subset.refl _)

/-- Every line of a run becomes a step under its number. -/
theorem numbers_accepted (h : Run Γ s ls s') :
    s'.accepted.map (·.number) = (ls.map (·.number)).reverse ++ s.accepted.map (·.number) := by
  induction h with
  | nil => rfl
  | cons hstep _ ih => simp [ih, hstep.accepted_eq, hstep.number_eq]

theorem length_accepted (h : Run Γ s ls s') :
    s'.accepted.length = s.accepted.length + ls.length := by
  simpa [Nat.add_comm] using congrArg List.length h.numbers_accepted

theorem exists_last? (h : Run Γ s ls s') (hls : ls ≠ []) : ∃ t, s'.last? = some t := by
  have hlength := h.length_accepted
  have hpos := List.length_pos_iff.2 hls
  exact ⟨s'.accepted.head (List.ne_nil_of_length_pos (by omega)), List.head?_eq_some_head _⟩

theorem append_iff {ls₁ ls₂ : List Line} :
    Run Γ s (ls₁ ++ ls₂) s' ↔ ∃ s₁, Run Γ s ls₁ s₁ ∧ Run Γ s₁ ls₂ s' := by
  induction ls₁ generalizing s with
  | nil =>
    constructor
    · intro h; exact ⟨s, .nil, h⟩
    · rintro ⟨_, ⟨⟩, h⟩; exact h
  | cons l ls₁ ih =>
    constructor
    · rintro (_ | ⟨hstep, hrun⟩)
      obtain ⟨s₁, h₁, h₂⟩ := ih.1 hrun
      exact ⟨s₁, .cons hstep h₁, h₂⟩
    · rintro ⟨s₁, _ | ⟨hstep, hrun⟩, h₂⟩
      exact .cons hstep (ih.2 ⟨s₁, hrun, h₂⟩)

end Run

end

end Checker.State

open Checker (State)

/-- **A proof is accepted iff the checker runs through all its lines and ends
    outside of sub-proofs.** -/
theorem Proof.check_ok_iff {p : Proof} {c : Catalog} {r : Checked} : p.check c = .ok r ↔
    ∃ s, State.Run (p.setting c) .initial p.lines s ∧ r.steps = s.accepted ∧
      s.last? = some r.conclusion ∧ s.assumptions = [] := by
  simp only [← State.feedAll_ok_iff, ← State.finish_eq_ok, check, run]
  obtain ⟨steps, conclusion⟩ := r
  rcases State.initial.feedAll (p.setting c) p.lines with ⟨s, e | _⟩
  · simp
  · cases hf : s.finish with
    | error e => simp [hf]
    | ok t => simp [hf, eq_comm]

end Deduction
