/-
  A compacted proof can be checked and compacted again.

  * `Step.kept_support`: what the conclusion rests on can stand alone;
  * `compact_round_trip`: the compacted proof of an accepted proof is accepted,
    with the same conclusion, and it is the compacted proof of itself.
-/
import Deduction.Proofs.Compaction.LaidOut
import Deduction.Rule.Standard

namespace Deduction

open Checker (State)

/-! ## What the conclusion rests on -/

namespace Step

variable {s : State} {n : LineNumber}

/-- A line rests on nothing inside of a sub-proof unless it rests on the line
    that closes the sub-proof. -/
theorem blocksKept_support (hs : s.Wf) (hn : n.enclosing = []) :
    LineNumber.BlocksKept (support s.accepted n) := by
  intro m hm
  have hreach := ((mem_support_iff hs.founded).1 hm).1
  clear hm
  induction hreach with
  | refl =>
    intro k hk
    rw [hn] at hk
    cases List.suffix_nil.1 hk
  | @tail m d hreach hdep ih =>
    intro k hk
    obtain ⟨t, ht, rfl, hd⟩ := hdep
    by_cases hkind : t.kind = .directProof
    · have henclosing : d.enclosing = t.number.inward := by
        obtain ⟨slot, hdependencies⟩ := (hs.grounded t ht).discharged hkind
        rw [hdependencies] at hd
        rcases List.mem_cons.1 hd with rfl | hd
        · rfl
        · rw [List.mem_singleton.1 hd]
      rw [henclosing] at hk
      rcases List.suffix_cons_iff.1 hk with heq | hk
      · rw [LineNumber.inward_injective heq]
        exact (mem_support_iff hs.founded).2 ⟨hreach, t, ht, rfl⟩
      · exact ih k hk
    · exact ih k (hk.trans
        (LineNumber.enclosing_suffix_of_hasAccess ((hs.grounded t ht).visible hkind d hd)))

/-- **What a line outside of sub-proofs rests on can stand alone.** -/
theorem kept_support (hs : s.Wf) (hn : n.enclosing = []) :
    Kept (support s.accepted n) s.accepted := by
  have hdependencies : ∀ t ∈ s.accepted, t.number ∈ support s.accepted n →
      ∀ d ∈ t.dependencies, d ∈ support s.accepted n := by
    intro t ht hmem d hd
    obtain ⟨hreach, -⟩ := (mem_support_iff hs.founded).1 hmem
    exact (mem_support_iff hs.founded).2
      ⟨hreach.tail ⟨t, ht, rfl, hd⟩, ((hs.grounded t ht).earlier d hd).2⟩
  refine ⟨blocksKept_support hs hn, hdependencies, fun a ha hkind m hm hslot => ?_⟩
  obtain ⟨-, t, ht, rfl⟩ := (mem_support_iff hs.founded).1 hm
  obtain ⟨slot, hclosing⟩ :=
    (hs.grounded t ht).discharged (hs.reserved a ha t ht hkind hslot)
  have hnumber : a.number = ⟨1, t.number.inward⟩ := by
    obtain ⟨k, hk⟩ := hs.first a ha hkind
    rw [hk] at hslot ⊢
    exact congrArg (LineNumber.mk 1) hslot
  exact hdependencies t ht hm _ (by rw [hclosing, hnumber]; exact List.mem_cons_self)

end Step

/-! ## Checking and compacting again -/

section
variable {Γ : Setting} {ls : List Line} {s : State} {n : LineNumber}

/-- **The compacted proof is accepted**: it leads the checker to what is kept of
    the state. -/
theorem compact_of_run (hcatalog : Γ.catalog.Normalized) (h : State.Run Γ .initial ls s)
    (hn : n.enclosing = []) :
    ∃ lines, compact s.accepted n = .ok lines ∧
      lines = (s.keep (Step.support s.accepted n)).accepted.reverse.map Step.line ∧
      State.Run Γ .initial lines (s.keep (Step.support s.accepted n)) := by
  obtain ⟨new, haccepted, hrun⟩ := h.keep (Step.kept_support h.wf hn) hcatalog .initial
    (by rw [State.keep_initial]; exact .initial) (List.Subset.refl _)
  obtain rfl : new = s.accepted.reverse := by
    rw [haccepted, List.reverse_append, List.reverse_reverse]; rfl
  rw [State.keep_initial, Step.keep_reverse] at hrun
  refine ⟨_, ?_, rfl, hrun⟩
  have hsupporting : (Step.supporting s.accepted n).map
      (Step.mapNumbers (LineNumber.renumber (Step.support s.accepted n))) =
        (s.keep (Step.support s.accepted n)).accepted.reverse := Step.keep_reverse _ _
  have hplaced := hrun.placed_initial
  rw [← hsupporting] at hplaced ⊢
  exact compact_eq_ok h.wf hplaced

/-- What a line rests on, it rests on under the new numbers. -/
theorem reaches_keep (hs : s.Wf) {m : LineNumber} (h : Step.Reaches s.accepted n m) :
    Step.Reaches (s.keep (Step.support s.accepted n)).accepted
      (n.renumber (Step.support s.accepted n)) (m.renumber (Step.support s.accepted n)) := by
  induction h with
  | refl => exact .refl
  | tail hreach hdep ih =>
    obtain ⟨t, ht, rfl, hd⟩ := hdep
    have hmem := (Step.mem_support_iff hs.founded).2 ⟨hreach, t, ht, rfl⟩
    exact ih.tail ⟨_, Step.mem_keep ht hmem, rfl, List.mem_map_of_mem hd⟩

/-- The compacted proof has no lines to spare. -/
theorem restsOnAll_keep (hs : s.Wf) :
    Step.RestsOnAll (s.keep (Step.support s.accepted n)).accepted
      (n.renumber (Step.support s.accepted n)) := by
  intro t' ht'
  obtain ⟨t, ht, rfl⟩ := List.mem_map.1 ht'
  obtain ⟨-, hmem⟩ := List.mem_filter.1 ht
  obtain ⟨hreach, -⟩ :=
    (Step.mem_support_iff hs.founded).1 (of_decide_eq_true hmem)
  exact reaches_keep hs hreach

/-- A proof without lines to spare stays as it is. -/
theorem compact_of_restsOnAll (h : State.Run Γ .initial ls s)
    (hall : Step.RestsOnAll s.accepted n) :
    compact s.accepted n = .ok (s.accepted.reverse.map Step.line) := by
  have hsupporting : (Step.supporting s.accepted n).map (Step.mapNumbers id) =
      s.accepted.reverse := by
    rw [Step.mapNumbers_id, List.map_id, hall.supporting_eq h.wf.founded]
  have hplaced := h.placed_initial
  rw [← hsupporting] at hplaced ⊢
  exact compact_eq_ok h.wf hplaced

/-- The compacted proof of an accepted proof leads the checker to what is kept of
    the state, where the conclusion rests on all lines. -/
theorem compact_of_check {c : Catalog} {p : Proof} {r : Checked} (hcatalog : c.Normalized)
    (h : p.check c = .ok r) : ∃ kept s, s.accepted = Step.keep kept r.steps ∧
      s.last? = some (r.conclusion.renumber kept) ∧ s.assumptions = [] ∧
      compact r.steps r.conclusion.number = .ok (s.accepted.reverse.map Step.line) ∧
      State.Run (p.setting c) .initial (s.accepted.reverse.map Step.line) s ∧
      Step.RestsOnAll s.accepted (r.conclusion.renumber kept).number := by
  obtain ⟨s, hrun, hsteps, hlast, hend⟩ := Proof.check_ok_iff.1 h
  have hs := hrun.wf
  have hn := hs.enclosing_of_last? hlast hend
  have hkept : r.conclusion.number ∈ Step.support s.accepted r.conclusion.number :=
    (Step.mem_support_iff hs.founded).2
      ⟨.refl, r.conclusion, List.mem_of_mem_head? hlast, rfl⟩
  obtain ⟨lines, hcompact, rfl, hrun'⟩ := compact_of_run hcatalog hrun hn
  rw [hsteps]
  refine ⟨_, _, rfl, State.last?_keep hlast hkept, ?_, hcompact, hrun', restsOnAll_keep hs⟩
  rw [State.keep, hend]; rfl

end

/-- **A compacted proof is accepted with the same conclusion, and compacting it
    again changes nothing**, if the catalog registers its rules under normalized
    names, as the standard catalog does. -/
theorem compact_round_trip : Catalog.standard.Normalized ∧
    ∀ (c : Catalog) (p : Proof) (r : Checked), c.Normalized → p.check c = .ok r →
      ∃ lines r', compact r.steps r.conclusion.number = .ok lines ∧
        ({ p with lines } : Proof).check c = .ok r' ∧
        r'.conclusion.formula = r.conclusion.formula ∧
        r'.conclusion.kind = r.conclusion.kind ∧
        r'.conclusion.rule = r.conclusion.rule ∧
        compact r'.steps r'.conclusion.number = .ok lines := by
  refine ⟨by decide +kernel, fun c p r hc hcheck => ?_⟩
  obtain ⟨kept, s, -, hlast, hend, hcompact, hrun, hall⟩ := compact_of_check hc hcheck
  have hcheck' : ({ p with lines := s.accepted.reverse.map Step.line } : Proof).check c =
      .ok ⟨s.accepted, r.conclusion.renumber kept⟩ :=
    Proof.check_ok_iff.2 ⟨s, hrun, rfl, hlast, hend⟩
  exact ⟨_, _, hcompact, hcheck', rfl, rfl, rfl, compact_of_restsOnAll hrun hall⟩

/-- From `q`, a proof of `p → p ∧ q` with a sub-proof and a line that it does not
    need. -/
def Proof.detour : Proof :=
  let p := .atom "p"
  let q := .atom "q"
  { mode := .ordinary
    declarations := ⟨["p", "q"], [q]⟩
    lines := [
      ⟨⟨1, []⟩, q, ⟨"Given", []⟩⟩,
      ⟨⟨1, [2]⟩, p, ⟨"Assumption", []⟩⟩,
      ⟨⟨2, [2]⟩, .or p q, ⟨"Intro Or", [⟨1, [2]⟩]⟩⟩,
      ⟨⟨2, []⟩, .implies p (.or p q), ⟨"Direct Proof Rule", []⟩⟩,
      ⟨⟨1, [3]⟩, p, ⟨"Assumption", []⟩⟩,
      ⟨⟨2, [3]⟩, .or q p, ⟨"Intro Or", [⟨1, [3]⟩]⟩⟩,
      ⟨⟨3, [3]⟩, .and p q, ⟨"Intro And", [⟨1, [3]⟩, ⟨1, []⟩]⟩⟩,
      ⟨⟨3, []⟩, .implies p (.and p q), ⟨"Direct Proof Rule", []⟩⟩] }

theorem compact_round_trip_detour : ∃ r, Proof.detour.check .standard = .ok r ∧
    ∃ lines r', compact r.steps r.conclusion.number = .ok lines ∧
      lines.map (·.number) = [⟨1, []⟩, ⟨1, [2]⟩, ⟨2, [2]⟩, ⟨2, []⟩] ∧
      ({ Proof.detour with lines } : Proof).check .standard = .ok r' ∧
      r'.conclusion.formula = r.conclusion.formula ∧
      compact r'.steps r'.conclusion.number = .ok lines := by
  have hnumbers : (Proof.detour.check .standard).map (fun r =>
      (compact r.steps r.conclusion.number).map (·.map (·.number))) =
        .ok (.ok [⟨1, []⟩, ⟨1, [2]⟩, ⟨2, [2]⟩, ⟨2, []⟩]) := by decide +kernel
  cases hr : Proof.detour.check .standard with
  | error e => rw [hr] at hnumbers; cases hnumbers
  | ok r =>
    obtain ⟨lines, r', hcompact, hcheck, hformula, -, -, hagain⟩ :=
      compact_round_trip.2 .standard .detour r (by decide +kernel) hr
    rw [hr] at hnumbers
    have hlines : (compact r.steps r.conclusion.number).map (·.map (·.number)) =
        .ok [⟨1, []⟩, ⟨1, [2]⟩, ⟨2, [2]⟩, ⟨2, []⟩] := Except.ok.inj hnumbers
    rw [hcompact] at hlines
    exact ⟨r, rfl, lines, r', hcompact, Except.ok.inj hlines, hcheck, hformula, hagain⟩

end Deduction
