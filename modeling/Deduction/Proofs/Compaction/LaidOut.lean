/-
  What it means to lay out steps.

  `LaidOut` describes a compacted proof without a queue: the steps are taken one
  after another, each is stated again under the number that follows the line
  before it, and a reference to an earlier step becomes one to the line that
  states it.

  * `layOut_eq_ok_iff`: placing steps one after another does just this;
  * `compact_eq_ok_iff`: so the compacted proof of a line is what lays out the
    lines that it rests on;
  * `Step.Placed`: steps whose numbers follow the rules of the checker, as those
    of a run do (`Run.placed`).  If the new numbers of steps do, then the steps
    are laid out under these numbers (`compact_eq_ok`).
-/
import Deduction.Proofs.Compaction.Recheck
import Deduction.Proofs.Compaction.Schedule

namespace Deduction

open Checker (State)

namespace Compaction

/-- The lines state the steps again, one line for each step, behind the line
    `cursor`.  `earlier` holds the steps that have been stated before, each with
    its line. -/
inductive LaidOut : (cursor : LineNumber) → (earlier : List (Step × Line)) → List Step →
    List Line → Prop
  | nil {cursor : LineNumber} {earlier : List (Step × Line)} : LaidOut cursor earlier [] []
  /-- A step cites the lines that state its dependencies, in the order of
      citation; a closing line cites nothing. -/
  | cons {cursor : LineNumber} {earlier : List (Step × Line)} {t : Step} {l : Line}
      {steps : List Step} {lines : List Line}
      (hnumber : t.kind.numberAfter? cursor = some l.number)
      (hformula : l.formula = t.formula) (hrule : l.citation.rule = t.rule)
      (hclosing : t.kind = .directProof → l.citation.refs = [])
      (hrefs : t.kind ≠ .directProof → List.Forall₂
        (fun d ref => ∃ e ∈ earlier, e.1.number = d ∧ e.2.number = ref) t.dependencies l.citation.refs)
      (hrest : LaidOut l.number ((t, l) :: earlier) steps lines) :
      LaidOut cursor earlier (t :: steps) (l :: lines)

theorem LaidOut.length_eq {cursor : LineNumber} {earlier : List (Step × Line)} {steps : List Step}
    {lines : List Line} (h : LaidOut cursor earlier steps lines) : lines.length = steps.length := by
  induction h with
  | nil => rfl
  | cons _ _ _ _ _ _ ih => rw [List.length_cons, List.length_cons, ih]

/-! ## Placing steps one after another -/

/-- The new numbers of the steps that have been stated. -/
def newNumbers (earlier : List (Step × Line)) : List (LineNumber × LineNumber) :=
  earlier.map fun e => (e.1.number, e.2.number)

section
variable {cursor number d ref : LineNumber} {earlier : List (Step × Line)} {t : Step} {l : Line}
  {steps : List Step} {lines : List Line} {refs : List LineNumber}

/-- Steps with different numbers are found under their numbers. -/
theorem lookup_newNumbers (h : earlier.Pairwise fun e f => f.1.number < e.1.number) :
    (newNumbers earlier).lookup d = some ref ↔
      ∃ e ∈ earlier, e.1.number = d ∧ e.2.number = ref := by
  induction h with
  | nil => simp [newNumbers]
  | @cons e earlier he _ ih =>
    rw [newNumbers, List.map_cons, List.lookup_cons]
    by_cases hd : d = e.1.number
    · have hother : ¬ ∃ f ∈ earlier, f.1.number = d ∧ f.2.number = ref := by
        rintro ⟨f, hf, hfd, -⟩
        exact (he f hf).ne (hfd.trans hd)
      simp [hd.symm, hother]
    · have hbeq : (d == e.1.number) = false := by simpa using hd
      have hne : ¬ (e.1.number = d ∧ e.2.number = ref) := fun h => hd h.1.symm
      rw [hbeq, List.exists_mem_cons_iff, or_iff_right hne]
      exact ih

/-- A step cites the lines that state its dependencies. -/
theorem citations_eq_ok_iff (h : earlier.Pairwise fun e f => f.1.number < e.1.number)
    (hdependencies : ∀ d ∈ t.dependencies, d < t.number) :
    citations ((t.number, number) :: newNumbers earlier) t = .ok refs ↔
      (t.kind = .directProof → refs = []) ∧ (t.kind ≠ .directProof → List.Forall₂
        (fun d ref => ∃ e ∈ earlier, e.1.number = d ∧ e.2.number = ref) t.dependencies refs) := by
  rw [citations]
  by_cases hkind : t.kind = .directProof
  · simp [hkind, eq_comm]
  · rw [if_neg hkind, mapM_eq_ok]
    simp only [hkind, false_implies, true_and, ne_eq, not_false_eq_true, true_implies]
    rw [List.forall₂_iff_get, List.forall₂_iff_get]
    refine and_congr_right fun _ => forall₃_congr fun i hi _ => ?_
    -- the step itself is not among its dependencies
    have hd := hdependencies _ (List.get_mem t.dependencies ⟨i, hi⟩)
    have hbeq : (t.dependencies.get ⟨i, hi⟩ == t.number) = false := by simpa using hd.ne
    rw [List.lookup_cons, hbeq, ← lookup_newNumbers h]
    cases (newNumbers earlier).lookup (t.dependencies.get ⟨i, hi⟩) <;> simp

/-- **Steps in ascending order are laid out one after another.** -/
theorem layOut_eq_ok_iff (hearlier : earlier.Pairwise fun e f => f.1.number < e.1.number)
    (hlater : ∀ e ∈ earlier, ∀ t ∈ steps, e.1.number < t.number)
    (hsteps : steps.Pairwise (·.number < ·.number))
    (hdependencies : ∀ t ∈ steps, ∀ d ∈ t.dependencies, d < t.number) :
    layOut cursor (newNumbers earlier) steps = .ok lines ↔ LaidOut cursor earlier steps lines := by
  induction steps generalizing cursor earlier lines with
  | nil =>
    simp only [layOut, Except.ok.injEq]
    constructor
    · rintro rfl; exact .nil
    · rintro ⟨⟩; rfl
  | cons t steps ih =>
    obtain ⟨ht, hsteps⟩ := List.pairwise_cons.1 hsteps
    have hnow := hdependencies t List.mem_cons_self
    -- once `t` is stated by the line `l`, the other steps come later than what is stated
    have hrest : ∀ (l : Line) (lines : List Line),
        layOut l.number ((t.number, l.number) :: newNumbers earlier) steps = .ok lines ↔
          LaidOut l.number ((t, l) :: earlier) steps lines := by
      intro l lines
      change layOut l.number (newNumbers ((t, l) :: earlier)) steps = .ok lines ↔ _
      refine ih ?_ ?_ hsteps fun u hu => hdependencies u (List.mem_cons_of_mem _ hu)
      · exact List.pairwise_cons.2 ⟨fun e he => hlater e he t List.mem_cons_self, hearlier⟩
      · intro e he u hu
        rcases List.mem_cons.1 he with rfl | he
        · exact ht u hu
        · exact hlater e he u (List.mem_cons_of_mem _ hu)
    rw [layOut]
    constructor
    · intro h
      split at h
      · cases h
      rename_i number hnumber
      simp only [bind, Except.bind] at h
      split at h
      · cases h
      rename_i refs hrefs
      split at h
      · cases h
      rename_i lines' hlines
      obtain rfl := Except.ok.inj h
      obtain ⟨hclosing, hrefs⟩ := (citations_eq_ok_iff hearlier hnow).1 hrefs
      exact .cons hnumber rfl rfl hclosing hrefs
        ((hrest ⟨number, t.formula, ⟨t.rule, refs⟩⟩ lines').1 hlines)
    · rintro (_ | @⟨_, _, _, l, _, lines', hnumber, hformula, hrule, hclosing, hrefs, hlaid⟩)
      have hrefs : citations ((t.number, l.number) :: newNumbers earlier) t = .ok l.citation.refs :=
        (citations_eq_ok_iff hearlier hnow).2 ⟨hclosing, hrefs⟩
      simp only [hnumber, hrefs, (hrest l lines').2 hlaid, bind, Except.bind, pure, Except.pure,
        ← hformula, ← hrule]

end

end Compaction

/-! ## Numbers that follow the rules of the checker -/

/-- A step of this kind gets the number `n` behind the line `cursor`: a slot is
    left for it, or there is a sub-proof to close. -/
structure StepKind.Advances (kind : StepKind) (cursor n : LineNumber) : Prop where
  number : kind.numberAfter? cursor = some n
  room : kind ≠ .directProof → cursor.slot < LineNumber.maxSlot
  inside : kind = .directProof → 1 < cursor.levels

/-- The steps are numbered behind the line `cursor`, each with room for it. -/
def Step.Placed : (cursor : LineNumber) → List Step → Prop
  | _, [] => True
  | cursor, t :: rest => t.kind.Advances cursor t.number ∧ Placed t.number rest

/-- A line that does not close a sub-proof gets a number only if a slot is left. -/
theorem StepKind.room_of_numberAfter? {kind : StepKind} {cursor n : LineNumber}
    (h : kind.numberAfter? cursor = some n) (hkind : kind ≠ .directProof) :
    cursor.slot < LineNumber.maxSlot := by
  cases kind with
  | given | inference | equivalence => exact (LineNumber.next?_eq_some.1 h).1
  | assumption => exact (LineNumber.open?_eq_some.1 h).1
  | directProof => exact absurd rfl hkind

section
variable {Γ : Setting} {s s' : State} {l : Line} {ls : List Line} {step : Step}

theorem Checker.State.Accepts.advances (h : State.Accepts Γ s l s' step) :
    step.kind.Advances s.cursor step.number where
  number := h.numberAfter?_eq
  room := StepKind.room_of_numberAfter? h.numberAfter?_eq
  inside hkind := by
    cases h with
    | opening => cases hkind
    | inside _ _ _ hjustify => exact absurd hkind (State.kind_ne_directProof hjustify)
    | closing _ hnumber => exact LineNumber.one_lt_levels hnumber

theorem Checker.State.Run.placed (h : State.Run Γ s ls s') :
    ∃ new, s'.accepted = new.reverse ++ s.accepted ∧ Step.Placed s.cursor new := by
  induction h with
  | nil => exact ⟨[], rfl, trivial⟩
  | @cons s s₁ s₂ l ls step hstep _ ih =>
    obtain ⟨new, haccepted, hplaced⟩ := ih
    refine ⟨step :: new, ?_, hstep.advances, hstep.cursor_eq ▸ hplaced⟩
    rw [haccepted, hstep.accepted_eq, List.reverse_cons, List.append_assoc]; rfl

theorem Checker.State.Run.placed_initial (h : State.Run Γ .initial ls s) :
    Step.Placed .zero s.accepted.reverse := by
  obtain ⟨new, haccepted, hplaced⟩ := h.placed
  rw [haccepted, List.reverse_append, List.reverse_reverse]
  exact hplaced

end

open Compaction

/-- **Steps whose new numbers follow the rules of the checker are laid out under
    these numbers.** -/
theorem Step.Placed.laidOut {f : LineNumber → LineNumber} {earlier steps : List Step}
    {cursor : LineNumber} (hsteps : steps.Pairwise (·.number < ·.number))
    (hdependencies : ∀ t ∈ steps, ∀ d ∈ t.dependencies,
      d < t.number ∧ (d ∈ earlier.map (·.number) ∨ d ∈ steps.map (·.number)))
    (h : Step.Placed cursor (steps.map (Step.mapNumbers f))) :
    LaidOut cursor (earlier.map fun u => (u, (u.mapNumbers f).line)) steps
      ((steps.map (Step.mapNumbers f)).map Step.line) := by
  induction steps generalizing earlier cursor with
  | nil => exact .nil
  | cons t rest ih =>
    obtain ⟨hlater, hrest⟩ := List.pairwise_cons.1 hsteps
    have hlt := hdependencies t List.mem_cons_self
    obtain ⟨hplaced, hdependencies⟩ := placed_cons hlater hdependencies
    refine .cons h.1.number rfl rfl (fun hkind => if_pos hkind) (fun hkind => ?_)
      (@ih (t :: earlier) _ hrest hdependencies h.2)
    rw [Step.refs_line (t := t.mapNumbers f) hkind]
    refine List.forall₂_map_right_iff.2 (List.forall₂_same.2 fun d hd => ?_)
    obtain ⟨u, hu, rfl⟩ := List.mem_map.1
      ((List.mem_cons.1 (hplaced d hd)).resolve_left (hlt d hd).1.ne)
    exact ⟨_, List.mem_map_of_mem hu, rfl, rfl⟩

/-! ## Compacted proofs -/

section
variable {s : State} {n : LineNumber}

/-- **The compacted proof of a line is what lays out the lines that it rests
    on.** -/
theorem compact_eq_ok_iff (hs : s.Wf) {lines : List Line} : compact s.accepted n = .ok lines ↔
    LaidOut .zero [] (Step.supporting s.accepted n) lines := by
  rw [compact_eq_layOut hs]
  exact layOut_eq_ok_iff .nil (by simp) (hs.ascending_supporting n)
    fun t ht d hd => (hs.dependencies_supporting ht hd).1

/-- If the new numbers `f` of the steps that the line `n` rests on follow the
    rules of the checker, then they are the numbers of the compacted proof. -/
theorem compact_eq_ok (hs : s.Wf) {f : LineNumber → LineNumber}
    (hplaced : Step.Placed .zero ((Step.supporting s.accepted n).map (Step.mapNumbers f))) :
    compact s.accepted n =
      .ok (((Step.supporting s.accepted n).map (Step.mapNumbers f)).map Step.line) := by
  refine (compact_eq_ok_iff hs).2
    (@Step.Placed.laidOut f [] _ _ (hs.ascending_supporting n) (fun t ht d hd => ?_) hplaced)
  obtain ⟨hlt, hmem⟩ := hs.dependencies_supporting ht hd
  exact ⟨hlt, .inr hmem⟩

end

end Deduction
