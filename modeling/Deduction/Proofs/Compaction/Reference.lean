/-
  What the compacted proof of a line is.

  * `Run.placed_keep`: what is kept of a run, with the sub-proofs around it,
    never runs out of numbers; and as `layOut_ok_or_exhausted` says, neither do
    steps that are not too many;
  * `compact_laidOut`: the compacted proof of any accepted line lays out the
    lines that it rests on, in the order of the proof.
-/
import Deduction.Proofs.Compaction.RoundTrip

namespace Deduction

open Checker (State)

namespace Compaction

/-! ## Numbers enough -/

section
variable {cursor number : LineNumber} {t : Step} {steps : List Step}

theorem exists_numberAfter? (kind : StepKind) (h : cursor.slot < LineNumber.maxSlot) :
    ∃ n, kind.numberAfter? cursor = some n := by
  cases kind with
  | given | inference | equivalence => exact ⟨_, LineNumber.next?_eq_some.2 ⟨h, rfl⟩⟩
  | assumption => exact ⟨_, LineNumber.open?_eq_some.2 ⟨h, rfl⟩⟩
  | directProof => exact ⟨_, rfl⟩

/-- The number that follows a line exceeds it by at most one in each
    component. -/
theorem le_succ_of_numberAfter? {kind : StepKind} {b : Nat} (hcursor : ∀ x ∈ cursor.inward, x ≤ b)
    (h : kind.numberAfter? cursor = some number) : ∀ x ∈ number.inward, x ≤ b + 1 := by
  intro x hx
  rcases StepKind.mem_inward_of_numberAfter? h hx with rfl | hx | ⟨rfl, -⟩
  · exact Nat.le_add_left 1 b
  · exact Nat.le_succ_of_le (hcursor x hx)
  · exact Nat.succ_le_succ (hcursor _ List.mem_cons_self)

theorem exists_citations {placed : List (LineNumber × LineNumber)}
    (h : ∀ d ∈ t.dependencies, d ∈ placed.map (·.1)) : ∃ refs, citations placed t = .ok refs := by
  rw [citations]
  split
  · exact ⟨[], rfl⟩
  have hlookup : ∀ d ∈ t.dependencies, ∃ n, placed.lookup d = some n := by
    intro d hd
    cases hn : placed.lookup d with
    | some n => exact ⟨n, rfl⟩
    | none =>
      obtain ⟨e, he, rfl⟩ := List.mem_map.1 (h d hd)
      exact absurd (List.lookup_eq_none_iff.1 hn e he) (by simp)
  refine ⟨t.dependencies.map fun d => (placed.lookup d).getD .zero, mapM_eq_ok.2 ?_⟩
  refine List.forall₂_map_right_iff.2 (List.forall₂_same.2 fun d hd => ?_)
  obtain ⟨n, hn⟩ := hlookup d hd
  simp [hn]

/-- Steps whose dependencies come first are laid out, unless the numbers run
    out: and they do not, as long as there are not too many steps. -/
theorem layOut_ok_or_exhausted {placed : List (LineNumber × LineNumber)} {b : Nat}
    (hsteps : steps.Pairwise (·.number < ·.number))
    (hdependencies : ∀ t ∈ steps, ∀ d ∈ t.dependencies,
      d < t.number ∧ (d ∈ placed.map (·.1) ∨ d ∈ steps.map (·.number)))
    (hcursor : ∀ x ∈ cursor.inward, x ≤ b) :
    (∃ lines, layOut cursor placed steps = .ok lines) ∨
      layOut cursor placed steps = .error .numbersExhausted ∧
        LineNumber.maxSlot < b + steps.length := by
  induction steps generalizing cursor placed b with
  | nil => exact .inl ⟨[], rfl⟩
  | cons t steps ih =>
    obtain ⟨ht, hsteps⟩ := List.pairwise_cons.1 hsteps
    rw [layOut]
    cases hnumber : t.kind.numberAfter? cursor with
    | none =>
      refine .inr ⟨rfl, not_le.1 fun hle => ?_⟩
      rw [List.length_cons] at hle
      have hcursor := hcursor _ List.mem_cons_self
      have hslot : cursor.slot < LineNumber.maxSlot := by omega
      obtain ⟨n, hn⟩ := exists_numberAfter? t.kind hslot
      rw [hnumber] at hn; cases hn
    | some number =>
      obtain ⟨hplaced, hdependencies⟩ := placed_cons ht hdependencies
      obtain ⟨refs, hrefs⟩ : ∃ refs, citations ((t.number, number) :: placed) t = .ok refs :=
        exists_citations hplaced
      have hrest := @ih number ((t.number, number) :: placed) (b + 1) hsteps hdependencies
        (le_succ_of_numberAfter? hcursor hnumber)
      rcases hrest with ⟨lines, hlines⟩ | ⟨hlines, hmany⟩
      · refine .inl ⟨⟨number, t.formula, ⟨t.rule, refs⟩⟩ :: lines, ?_⟩
        simp only [hrefs, hlines, bind, Except.bind, pure, Except.pure]
      · refine .inr ⟨by simp only [hrefs, hlines, bind, Except.bind], ?_⟩
        rw [List.length_cons]; omega

end

end Compaction

/-! ## The lines that a line rests on -/

open Compaction

/-- A line rests on nothing that comes after it. -/
theorem Checker.State.Wf.le_of_reaches {s : State} (hs : s.Wf) {n m : LineNumber}
    (h : Step.Reaches s.accepted n m) : m ≤ n :=
  Step.le_of_reaches hs.founded.lt h

/-- The last of the lines that a line rests on is the line itself. -/
theorem Checker.State.Wf.getLast?_supporting {s : State} (hs : s.Wf) {t : Step}
    (ht : t ∈ s.accepted) : (Step.supporting s.accepted t.number).getLast? = some t := by
  have hmem := @Step.mem_supporting_iff s.accepted t.number hs.founded
  have htmem : t ∈ Step.supporting s.accepted t.number := hmem.2 ⟨ht, .refl⟩
  obtain ⟨before, after, hsplit⟩ := List.append_of_mem htmem
  cases after with
  | nil => rw [hsplit, List.getLast?_append]; rfl
  | cons u after =>
    have hascending := hs.ascending_supporting t.number
    rw [hsplit] at hascending
    have hlt : t.number < u.number :=
      (List.pairwise_cons.1 (List.pairwise_append.1 hascending).2.1).1 u List.mem_cons_self
    have hu : u ∈ Step.supporting s.accepted t.number := by rw [hsplit]; simp
    exact absurd hlt (hs.le_of_reaches (hmem.1 hu).2).not_gt

section
variable {kept : List LineNumber} {steps : List Step} {Γ : Setting} {s s' : State} {l : Line}
  {step : Step}

/-- A kept line follows the kept line before it. -/
theorem StepKind.Advances.shadow {kind : StepKind} {cursor n : LineNumber}
    (h : kind.Advances cursor n) (hblocks : LineNumber.BlocksKept kept) (hn : n ∈ kept) :
    kind.Advances (cursor.shadow kept) (n.renumber kept) := by
  by_cases hkind : kind = .directProof
  · subst hkind
    have hclose := LineNumber.enclosing_shadow
      (LineNumber.enclosing_of_close (h.inside rfl) (Option.some.inj h.number)) hn
    exact ⟨congrArg some (LineNumber.close_eq hclose), fun hkind => absurd rfl hkind,
      fun _ => LineNumber.one_lt_levels hclose⟩
  · have hnumber : kind.numberAfter? (cursor.shadow kept) = some (n.renumber kept) := by
      cases kind with
      | given | inference | equivalence => exact LineNumber.next?_shadow hblocks h.number hn
      | assumption => exact LineNumber.open?_shadow hblocks h.number hn
      | directProof => exact absurd rfl hkind
    exact ⟨hnumber, StepKind.room_of_numberAfter? hnumber, fun heq => absurd heq hkind⟩

/-- **What is kept of a run is numbered as the checker asks for**, if all
    sub-proofs around it are kept. -/
theorem Checker.State.Run.placed_keep {ls : List Line} (hkept : Step.Kept kept steps)
    (hs : s.Wf) (h : State.Run Γ s ls s') (hsub : s'.accepted ⊆ steps) :
    ∃ new, s'.accepted = new.reverse ++ s.accepted ∧
      Step.Placed (s.cursor.shadow kept) (Step.keep kept new) := by
  induction h with
  | nil => exact ⟨[], rfl, trivial⟩
  | @cons s s₁ s₂ l ls step hstep hrun ih =>
    obtain ⟨new, haccepted, hplaced⟩ := ih (hs.of_accepts hstep) hsub
    have hmem : step ∈ steps :=
      hsub (hrun.accepted_subset (hstep.accepted_eq ▸ List.mem_cons_self))
    refine ⟨step :: new, ?_, ?_⟩
    · rw [haccepted, hstep.accepted_eq, List.reverse_cons, List.append_assoc]; rfl
    by_cases hmem' : step.number ∈ kept
    · rw [Step.keep_cons_of_mem hmem']
      refine ⟨hstep.advances.shadow hkept.blocks hmem', ?_⟩
      rwa [hstep.cursor_eq, LineNumber.shadow_of_mem hkept.blocks hmem'] at hplaced
    · have hshadow : s₁.cursor.shadow kept = s.cursor.shadow kept :=
        congrArg State.cursor (hstep.keep_of_notMem hkept hs hmem hmem')
      rw [Step.keep_cons_of_notMem hmem', ← hshadow]
      exact hplaced

/-- What a line outside of sub-proofs rests on is numbered by the rank of each
    line among it. -/
theorem placed_supporting {ls : List Line} (h : State.Run Γ .initial ls s) {n : LineNumber}
    (hn : n.enclosing = []) :
    Step.Placed .zero ((Step.supporting s.accepted n).map
      (Step.mapNumbers (LineNumber.renumber (Step.support s.accepted n)))) := by
  obtain ⟨new, haccepted, hplaced⟩ :=
    h.placed_keep (Step.kept_support h.wf hn) .initial (List.Subset.refl _)
  obtain rfl : new = s.accepted.reverse := by
    rw [haccepted, List.reverse_append, List.reverse_reverse]; rfl
  have hzero : LineNumber.zero.shadow (Step.support s.accepted n) = .zero :=
    congrArg State.cursor State.keep_initial
  rw [← hzero]
  exact hplaced

/-- The compacted proof of a line outside of sub-proofs never runs out of
    numbers. -/
theorem exists_compact_of_enclosing_eq_nil {ls : List Line} (h : State.Run Γ .initial ls s)
    {n : LineNumber} (hn : n.enclosing = []) : ∃ lines, compact s.accepted n = .ok lines :=
  ⟨_, compact_eq_ok h.wf (placed_supporting h hn)⟩

end

/-- **The compacted proof of an accepted line lays out the lines that it rests
    on, in the order of the proof**, so the line itself comes last.  A step is
    never placed before its dependencies, and no counter is taken below zero;
    numbers run out at most for a line inside of a sub-proof that rests on more
    than `maxSlot` lines. -/
theorem compact_laidOut {Γ : Setting} {ls : List Line} {s : State}
    (h : State.initial.feedAll Γ ls = (s, .ok ())) {t : Step} (ht : t ∈ s.accepted) :
    ∃ steps : List Step,
      (∀ u, u ∈ steps ↔ u ∈ s.accepted ∧ Step.Reaches s.accepted t.number u.number) ∧
      steps.Pairwise (·.number < ·.number) ∧ steps.getLast? = some t ∧ steps.length ≤ ls.length ∧
      (∀ lines, compact s.accepted t.number = .ok lines ↔ LaidOut .zero [] steps lines) ∧
      (∀ e, compact s.accepted t.number = .error e → e = .numbersExhausted) ∧
      (t.number.enclosing = [] ∨ steps.length ≤ LineNumber.maxSlot →
        ∃ lines, compact s.accepted t.number = .ok lines ∧ lines.length = steps.length) := by
  have hrun := State.feedAll_ok_iff.1 h
  have hs := hrun.wf
  have hresult : (∃ lines, compact s.accepted t.number = .ok lines) ∨
      compact s.accepted t.number = .error .numbersExhausted ∧
        LineNumber.maxSlot < 0 + (Step.supporting s.accepted t.number).length := by
    rw [compact_eq_layOut hs]
    refine layOut_ok_or_exhausted (hs.ascending_supporting _) (fun u hu d hd => ?_) (by decide)
    obtain ⟨hlt, hmem⟩ := hs.dependencies_supporting hu hd
    exact ⟨hlt, .inr hmem⟩
  have hlength : (Step.supporting s.accepted t.number).length ≤ ls.length := by
    have hfilter : (Step.supporting s.accepted t.number).length ≤ s.accepted.reverse.length :=
      List.length_filter_le _ _
    rwa [List.length_reverse, hrun.length_accepted, State.initial, List.length_nil, Nat.zero_add]
      at hfilter
  refine ⟨Step.supporting s.accepted t.number,
    fun u => Step.mem_supporting_iff hs.founded, hs.ascending_supporting _,
    hs.getLast?_supporting ht, hlength, fun lines => compact_eq_ok_iff hs, fun e he => ?_,
    fun hroom => ?_⟩
  · rcases hresult with ⟨lines, hlines⟩ | ⟨herror, -⟩
    · rw [hlines] at he; cases he
    · rw [herror] at he
      exact (Except.error.inj he).symm
  · have hok : ∃ lines, compact s.accepted t.number = .ok lines := by
      rcases hroom with hn | hroom
      · exact exists_compact_of_enclosing_eq_nil hrun hn
      · exact hresult.resolve_right fun hmany => by omega
    obtain ⟨lines, hlines⟩ := hok
    exact ⟨lines, hlines, ((compact_eq_ok_iff hs).1 hlines).length_eq⟩

/-- From `p`, lines of which one cites the same line twice, one closes a sub-proof
    of a single line, and the last stands in a sub-proof whose assumption it does
    not use. -/
def Proof.repetition : Proof :=
  let p := .atom "p"
  let q := .atom "q"
  { mode := .ordinary
    declarations := ⟨["p", "q"], [p]⟩
    lines := [
      ⟨⟨1, []⟩, p, ⟨"Given", []⟩⟩,
      ⟨⟨1, [2]⟩, q, ⟨"Assumption", []⟩⟩,
      ⟨⟨2, []⟩, .implies q q, ⟨"Direct Proof Rule", []⟩⟩,
      ⟨⟨1, [3]⟩, q, ⟨"Assumption", []⟩⟩,
      ⟨⟨2, [3]⟩, .and p p, ⟨"Intro And", [⟨1, []⟩, ⟨1, []⟩]⟩⟩,
      ⟨⟨3, [3]⟩, .and (.and p p) (.implies q q), ⟨"Intro And", [⟨2, [3]⟩, ⟨2, []⟩]⟩⟩] }

theorem compact_laidOut_repetition : ∃ (s : State) (t : Step) (steps : List Step) (lines : List Line),
    State.initial.feedAll (Proof.repetition.setting .standard) Proof.repetition.lines = (s, .ok ()) ∧
      t ∈ s.accepted ∧ t.number = ⟨3, [3]⟩ ∧ compact s.accepted t.number = .ok lines ∧
      LaidOut .zero [] steps lines ∧
      lines.map (fun l => (l.number, l.citation.refs)) =
        [(⟨1, []⟩, []), (⟨1, [2]⟩, []), (⟨2, []⟩, []), (⟨3, []⟩, [⟨1, []⟩, ⟨1, []⟩]),
          (⟨4, []⟩, [⟨3, []⟩, ⟨2, []⟩])] := by
  let s := (State.initial.feedAll (Proof.repetition.setting .standard) Proof.repetition.lines).1
  have hrun : State.initial.feedAll (Proof.repetition.setting .standard) Proof.repetition.lines =
      (s, .ok ()) := by decide +kernel
  obtain ⟨t, ht, hnumber⟩ : ∃ t ∈ s.accepted, t.number = ⟨3, [3]⟩ := by decide +kernel
  obtain ⟨steps, -, -, -, hlength, hlaidOut, -, hroom⟩ := compact_laidOut hrun ht
  have hfew : Proof.repetition.lines.length ≤ LineNumber.maxSlot := by decide
  obtain ⟨lines, hlines, -⟩ := hroom (.inr (hlength.trans hfew))
  have hrefs : (compact s.accepted ⟨3, [3]⟩).map (·.map fun l => (l.number, l.citation.refs)) =
      .ok [(⟨1, []⟩, []), (⟨1, [2]⟩, []), (⟨2, []⟩, []), (⟨3, []⟩, [⟨1, []⟩, ⟨1, []⟩]),
        (⟨4, []⟩, [⟨3, []⟩, ⟨2, []⟩])] := by decide +kernel
  rw [← hnumber, hlines] at hrefs
  exact ⟨s, t, steps, lines, hrun, ht, hnumber, hlines, (hlaidOut lines).1 hlines,
    Except.ok.inj hrefs⟩

end Deduction
