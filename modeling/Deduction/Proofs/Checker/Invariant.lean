/-
  What holds throughout a run of the checker.

  A state of the checker knows the nesting of sub-proofs twice: from the
  number of the last line and from the stack of open assumptions.  `Wf` says
  that the two agree, that the accepted lines come in ascending order, and that
  each step depends on earlier ones: a closing line on the assumption and on
  the last line of its sub-proof, any other line on lines that it can see.

  `Run.wf`: every state of a run without rejected lines is well formed.
-/
import Deduction.Proofs.Checker.Run

namespace Deduction

namespace Step

theorem find?_cons {t : Step} {steps : List Step} {n : LineNumber} :
    find? (t :: steps) n = if t.number = n then some t else find? steps n := by
  simp only [find?, List.find?_cons]
  split <;> simp_all

theorem find?_mem {steps : List Step} {n : LineNumber} {t : Step} (h : find? steps n = some t) :
    t ∈ steps ∧ t.number = n :=
  ⟨List.mem_of_find?_eq_some h, by simpa using List.find?_some h⟩

/-- Among steps with different numbers, each is found under its number. -/
theorem find?_eq_some {steps : List Step} (h : steps.Pairwise fun t u => u.number < t.number)
    {t : Step} (ht : t ∈ steps) : find? steps t.number = some t := by
  induction h with
  | nil => cases ht
  | @cons u steps hu _ ih =>
    rw [find?_cons]
    rcases List.mem_cons.1 ht with rfl | ht
    · exact if_pos rfl
    · rw [if_neg (hu t ht).ne', ih ht]

/-- What a step among `steps` depends on: on earlier steps, which a closing line
    takes from the sub-proof that it closes and any other line can see. -/
structure Grounded (steps : List Step) (t : Step) : Prop where
  earlier : ∀ d ∈ t.dependencies, d < t.number ∧ ∃ u ∈ steps, u.number = d
  visible : t.kind ≠ .directProof → ∀ d ∈ t.dependencies, t.number.hasAccess d = true
  discharged : t.kind = .directProof → ∃ slot,
    t.dependencies = [⟨1, t.number.inward⟩, ⟨slot, t.number.inward⟩]

theorem Grounded.mono {steps steps' : List Step} {t : Step} (h : t.Grounded steps)
    (hsub : steps ⊆ steps') : t.Grounded steps' where
  earlier d hd := by
    obtain ⟨hlt, u, hu, heq⟩ := h.earlier d hd
    exact ⟨hlt, u, hsub hu, heq⟩
  visible := h.visible
  discharged := h.discharged

end Step

namespace Checker.State

/-- A state that a run without rejected lines can come to. -/
structure Wf (s : State) : Prop where
  /-- The checker is at the last step, or at the beginning. -/
  cursor : s.cursor = (s.last?.map (·.number)).getD .zero
  /-- The steps are accepted in the order of their numbers. -/
  ascending : s.accepted.Pairwise fun t u => u.number < t.number
  /-- There is no slot `0`. -/
  positive : ∀ t ∈ s.accepted, 0 ∉ t.number.inward
  /-- The open assumptions are those of the sub-proofs around the cursor. -/
  openings : s.assumptions.map (·.number) = LineNumber.openings s.cursor.enclosing
  opened : s.assumptions ⊆ s.accepted
  /-- An assumption is the first line of its sub-proof. -/
  first : ∀ a ∈ s.accepted, a.kind = .assumption → ∃ n : LineNumber, a.number = ⟨1, n.inward⟩
  /-- The slot in which a sub-proof stands is left to the closing line. -/
  reserved : ∀ a ∈ s.accepted, ∀ t ∈ s.accepted, a.kind = .assumption →
    a.number.enclosing = t.number.inward → t.kind = .directProof
  grounded : ∀ t ∈ s.accepted, t.Grounded s.accepted

/-- A cited step is an accepted one that the line can see. -/
theorem Cites.of_mem {s : State} {n : LineNumber} {refs : List LineNumber} {cited : List Step}
    (h : s.Cites n refs cited) {u : Step} (hu : u ∈ cited) :
    u ∈ s.accepted ∧ n.hasAccess u.number = true := by
  induction h with
  | nil => cases hu
  | cons href _ ih =>
    rcases List.mem_cons.1 hu with rfl | hu
    · obtain ⟨hmem, rfl⟩ := Step.find?_mem href.1
      exact ⟨hmem, href.2⟩
    · exact ih hu

namespace Wf

variable {Γ : Setting} {s s' : State} {l : Line} {step : Step}

theorem initial : Wf .initial where
  cursor := rfl
  ascending := .nil
  positive := by simp [State.initial]
  openings := rfl
  opened := List.nil_subset _
  first := by simp [State.initial]
  reserved := by simp [State.initial]
  grounded := by simp [State.initial]

theorem cursor_of_last? (hs : Wf s) {t : Step} (h : s.last? = some t) : s.cursor = t.number := by
  simp [hs.cursor, h]

theorem find?_eq_some (hs : Wf s) {t : Step} (ht : t ∈ s.accepted) :
    Step.find? s.accepted t.number = some t :=
  Step.find?_eq_some hs.ascending ht

/-- Accepted steps that a line can see can be cited by their numbers. -/
theorem cites (hs : Wf s) {n : LineNumber} {cited : List Step}
    (h : ∀ u ∈ cited, u ∈ s.accepted ∧ n.hasAccess u.number = true) :
    s.Cites n (cited.map (·.number)) cited := by
  induction cited with
  | nil => exact .nil
  | cons u cited ih =>
    obtain ⟨hu, haccess⟩ := h u List.mem_cons_self
    exact .cons ⟨hs.find?_eq_some hu, haccess⟩
      (ih fun v hv => h v (List.mem_cons_of_mem _ hv))

/-- No step comes after the cursor. -/
theorem le_cursor (hs : Wf s) {t : Step} (ht : t ∈ s.accepted) : t.number ≤ s.cursor := by
  have hpair := hs.ascending
  have hcursor := hs.cursor
  simp only [last?] at hcursor
  cases hacc : s.accepted with
  | nil => rw [hacc] at ht; cases ht
  | cons u us =>
    rw [hacc] at ht hpair hcursor
    simp only [List.head?_cons, Option.map_some, Option.getD_some] at hcursor
    rw [hcursor]
    rcases List.mem_cons.1 ht with rfl | ht
    · exact le_rfl
    · exact ((List.pairwise_cons.1 hpair).1 t ht).le

theorem lt_step (hs : Wf s) (h : Accepts Γ s l s' step) {t : Step} (ht : t ∈ s.accepted) :
    t.number < step.number :=
  (hs.le_cursor ht).trans_lt h.cursor_lt

theorem zero_notMem_enclosing (hs : Wf s) : 0 ∉ s.cursor.enclosing := by
  intro h0
  cases hl : s.last? with
  | none => simp [hs.cursor, hl, LineNumber.zero] at h0
  | some t =>
    rw [hs.cursor_of_last? hl] at h0
    exact hs.positive t (List.mem_of_mem_head? hl) (List.mem_cons_of_mem _ h0)

/-- The assumption that a closing line discharges is that of the sub-proof that
    it closes. -/
theorem assumption_number (hs : Wf s) {n : LineNumber} (hn : s.cursor.enclosing = n.inward)
    {a : Step} {outer : List Step} (ha : s.assumptions = a :: outer) :
    a.number = ⟨1, n.inward⟩ ∧ outer.map (·.number) = LineNumber.openings n.enclosing := by
  have h := hs.openings
  rw [ha, hn] at h
  exact List.cons.inj h

/-- Where no assumption is open, the last line stands outside of sub-proofs. -/
theorem enclosing_eq_nil (hs : Wf s) (h : s.assumptions = []) : s.cursor.enclosing = [] := by
  have hopen := hs.openings
  rw [h] at hopen
  cases he : s.cursor.enclosing with
  | nil => rfl
  | cons => rw [he] at hopen; cases hopen

theorem enclosing_of_last? (hs : Wf s) {t : Step} (hlast : s.last? = some t)
    (h : s.assumptions = []) : t.number.enclosing = [] := by
  rw [← hs.cursor_of_last? hlast]
  exact hs.enclosing_eq_nil h

/-! ### What one line keeps -/

theorem positive_step (hs : Wf s) (h : Accepts Γ s l s' step) : 0 ∉ step.number.inward := by
  have h0 := hs.zero_notMem_enclosing
  cases h with
  | opening _ hnumber =>
    obtain ⟨-, hn⟩ := LineNumber.open?_eq_some.1 hnumber
    simpa [assumptionStep, hn, LineNumber.inward] using h0
  | inside _ hnumber =>
    obtain ⟨-, hn⟩ := LineNumber.next?_eq_some.1 hnumber
    simpa [ordinaryStep, hn, LineNumber.inward] using h0
  | closing _ hnumber => rwa [hnumber] at h0

theorem openings_step (hs : Wf s) (h : Accepts Γ s l s' step) :
    s'.assumptions.map (·.number) = LineNumber.openings s'.cursor.enclosing := by
  have hopen := hs.openings
  cases h with
  | opening _ hnumber =>
    obtain ⟨-, hn⟩ := LineNumber.open?_eq_some.1 hnumber
    simp [hn, LineNumber.openings, assumptionStep, hopen]
  | inside _ hnumber =>
    obtain ⟨-, hn⟩ := LineNumber.next?_eq_some.1 hnumber
    simp [hn, hopen]
  | closing _ hnumber _ _ _ hassumption => exact (hs.assumption_number hnumber hassumption).2

theorem opened_step (hs : Wf s) (h : Accepts Γ s l s' step) : s'.assumptions ⊆ s'.accepted := by
  cases h with
  | opening => exact List.cons_subset_cons _ hs.opened
  | inside => exact List.subset_cons_of_subset _ hs.opened
  | closing _ _ _ _ _ hassumption =>
    refine List.subset_cons_of_subset _ fun t ht => hs.opened ?_
    rw [hassumption]; exact List.mem_cons_of_mem _ ht

theorem first_step (h : Accepts Γ s l s' step) (hkind : step.kind = .assumption) :
    ∃ n : LineNumber, step.number = ⟨1, n.inward⟩ := by
  have hnumber := h.numberAfter?_eq
  rw [hkind] at hnumber
  obtain ⟨-, hn⟩ := LineNumber.open?_eq_some.1 hnumber
  exact ⟨⟨s.cursor.slot + 1, s.cursor.enclosing⟩, hn⟩

/-- A new line stands in a slot that no sub-proof has taken, unless it closes
    one. -/
theorem reserved_step (hs : Wf s) (h : Accepts Γ s l s' step) {a : Step} (ha : a ∈ s.accepted)
    (hslot : a.number.enclosing = step.number.inward) : step.kind = .directProof := by
  -- an earlier line of a sub-proof in the slot of the new line would come after the cursor
  have hle := hs.le_cursor ha
  cases h with
  | opening _ hnumber =>
    obtain ⟨-, hn⟩ := LineNumber.open?_eq_some.1 hnumber
    simp only [assumptionStep, hn, LineNumber.inward] at hslot
    have hlt : s.cursor < a.number :=
      LineNumber.lt_of_enclosing (d := [1]) hslot (Nat.lt_succ_self s.cursor.slot)
    exact absurd hle hlt.not_ge
  | inside _ hnumber =>
    obtain ⟨-, hn⟩ := LineNumber.next?_eq_some.1 hnumber
    simp only [ordinaryStep, hn, LineNumber.inward] at hslot
    have hlt : s.cursor < a.number :=
      LineNumber.lt_of_enclosing (d := []) hslot (Nat.lt_succ_self s.cursor.slot)
    exact absurd hle hlt.not_ge
  | closing => rfl

/-- A new sub-proof stands in a slot that no line has taken. -/
theorem unused_step (hs : Wf s) (h : Accepts Γ s l s' step) (hkind : step.kind = .assumption)
    {t : Step} (ht : t ∈ s.accepted) : step.number.enclosing ≠ t.number.inward := by
  have hnumber := h.numberAfter?_eq
  rw [hkind] at hnumber
  obtain ⟨-, hn⟩ := LineNumber.open?_eq_some.1 hnumber
  intro heq
  rw [hn] at heq
  have htn : ⟨s.cursor.slot + 1, s.cursor.enclosing⟩ = t.number := LineNumber.inward_injective heq
  have hlt : s.cursor < t.number := by
    rw [← htn]; exact LineNumber.lt_of_slot_lt (Nat.lt_succ_self s.cursor.slot)
  exact absurd (hs.le_cursor ht) hlt.not_ge

theorem grounded_step (hs : Wf s) (h : Accepts Γ s l s' step) : step.Grounded s'.accepted := by
  have hlt : ∀ t ∈ s.accepted, t.number < step.number := fun t ht => hs.lt_step h ht
  have hmem : ∀ t ∈ s.accepted, t ∈ s'.accepted := fun t ht => by
    rw [h.accepted_eq]; exact List.mem_cons_of_mem _ ht
  cases h with
  | opening => exact ⟨by simp [assumptionStep], by simp [assumptionStep], nofun⟩
  | @inside kind cited _ _ hcited hjustify =>
    refine ⟨fun d hd => ?_, fun _ d hd => ?_, fun hkind => absurd hkind (kind_ne_directProof hjustify)⟩
    · obtain ⟨u, hu, rfl⟩ := List.mem_map.1 hd
      have hu := (hcited.of_mem hu).1
      exact ⟨hlt u hu, u, hmem u hu, rfl⟩
    · obtain ⟨u, hu, rfl⟩ := List.mem_map.1 hd
      exact (hcited.of_mem hu).2
  | @closing assumption conclusion outer _ hnumber _ _ _ hassumption hlast _ =>
    have ha : assumption ∈ s.accepted := hs.opened (hassumption ▸ List.mem_cons_self)
    have hc : conclusion ∈ s.accepted := List.mem_of_mem_head? hlast
    refine ⟨fun d hd => ?_, fun hkind => absurd rfl hkind, fun _ => ⟨conclusion.number.slot, ?_⟩⟩
    · rcases List.mem_cons.1 hd with rfl | hd
      · exact ⟨hlt _ ha, _, hmem _ ha, rfl⟩
      · rw [List.mem_singleton.1 hd]; exact ⟨hlt _ hc, _, hmem _ hc, rfl⟩
    · have hcn : conclusion.number.enclosing = l.number.inward := by
        rw [← hs.cursor_of_last? hlast]; exact hnumber
      simp only [closingStep, (hs.assumption_number hnumber hassumption).1, ← hcn]

/-- **An accepted line leads from one well-formed state to another.** -/
theorem of_accepts (hs : Wf s) (h : Accepts Γ s l s' step) : Wf s' where
  cursor := by simp [h.cursor_eq, last?, h.accepted_eq]
  ascending := by
    rw [h.accepted_eq]
    exact List.pairwise_cons.2 ⟨fun t ht => hs.lt_step h ht, hs.ascending⟩
  positive t ht := by
    rw [h.accepted_eq] at ht
    rcases List.mem_cons.1 ht with rfl | ht
    · exact hs.positive_step h
    · exact hs.positive t ht
  openings := hs.openings_step h
  opened := hs.opened_step h
  first a ha hkind := by
    rw [h.accepted_eq] at ha
    rcases List.mem_cons.1 ha with rfl | ha
    · exact first_step h hkind
    · exact hs.first a ha hkind
  reserved a ha t ht hkind hslot := by
    rw [h.accepted_eq] at ha ht
    rcases List.mem_cons.1 ha with rfl | ha' <;> rcases List.mem_cons.1 ht with rfl | ht'
    · have := congrArg List.length hslot
      simp [LineNumber.inward] at this
    · exact absurd hslot (hs.unused_step h hkind ht')
    · exact hs.reserved_step h ha' hslot
    · exact hs.reserved a ha' t ht' hkind hslot
  grounded t ht := by
    rw [h.accepted_eq] at ht
    rcases List.mem_cons.1 ht with rfl | ht
    · exact hs.grounded_step h
    · refine (hs.grounded t ht).mono ?_
      rw [h.accepted_eq]; exact List.subset_cons_self _ _

theorem of_run {ls : List Line} (hs : Wf s) (h : Run Γ s ls s') : Wf s' :=
  h.preserves (fun _ _ _ _ _ hstep hs => hs.of_accepts hstep) hs

end Wf

/-- **Every state of a run without rejected lines is well formed.** -/
theorem Run.wf {Γ : Setting} {ls : List Line} {s : State} (h : Run Γ .initial ls s) : Wf s :=
  Wf.initial.of_run h

end Checker.State

end Deduction
