/-
  Compaction moves lines up, never down and never out of their nesting.

  The number of a line of the compacted proof follows the line before it, and
  the kinds of the steps decide how; what the source said is not looked at.
  Still the number has as many components as it had in the source, and none of
  them has grown, since each is the rank of a slot among the kept ones.

  * `forall₂_rerank`: ranks are not larger than slots;
  * `Step.Placed.exists_cursor`: what `Placed` says of a single step;
  * `compact_shrinks`: so the numbers of a compacted proof stay below those of
    the source, and no increment goes past the last slot.
-/
import Deduction.Proofs.Compaction.Reference

namespace Deduction

open Checker (State)

namespace LineNumber

variable (kept : List LineNumber)

/-- A rank is not larger than the slot, in each of the blocks around a line. -/
theorem forall₂_rerank (e : List Nat) : List.Forall₂ (· ≤ ·) (rerank kept e) e := by
  induction e with
  | nil => exact .nil
  | cons x e ih => exact .cons (rank_le kept e x) ih

theorem levels_renumber (n : LineNumber) : (n.renumber kept).levels = n.levels := by
  have hlength := (forall₂_rerank kept n.inward).length_eq
  rwa [← inward_renumber] at hlength

theorem path_renumber_le (n : LineNumber) : List.Forall₂ (· ≤ ·) (n.renumber kept).path n.path := by
  rw [path, path, inward_renumber, List.forall₂_reverse_iff]
  exact forall₂_rerank kept n.inward

end LineNumber

/-- Each step is placed behind the step before it, the first one behind
    `cursor`. -/
theorem Step.Placed.exists_cursor {cursor : LineNumber} {steps : List Step}
    (h : Step.Placed cursor steps) {i : Nat} {t : Step} (ht : steps[i]? = some t) :
    ∃ n, (cursor :: steps.map (·.number))[i]? = some n ∧ t.kind.Advances n t.number := by
  induction steps generalizing cursor i with
  | nil => cases ht
  | cons u steps ih =>
    cases i with
    | zero =>
      obtain rfl := Option.some.inj ht
      exact ⟨cursor, rfl, h.1⟩
    | succ i =>
      obtain ⟨n, hn, hadvances⟩ := ih h.2 ht
      exact ⟨n, hn, hadvances⟩

/-- **The numbers of a compacted proof stay below those of the source.**  The lines
    of the compacted proof state the steps that the conclusion rests on, in their
    order.  Each line has as many components in its number as the step had in
    the source, and none of them is larger.  It gets the number behind the line
    before it, where a slot is left for it, or where there is a sub-proof to close.
    The last line stands outside of sub-proofs. -/
theorem compact_shrinks {c : Catalog} {p : Proof} {r : Checked} (h : p.check c = .ok r) :
    ∃ (steps : List Step) (lines : List Line),
      compact r.steps r.conclusion.number = .ok lines ∧
      (∀ t, t ∈ steps ↔ t ∈ r.steps ∧ Step.Reaches r.steps r.conclusion.number t.number) ∧
      steps.Pairwise (·.number < ·.number) ∧ lines.length = steps.length ∧
      (∀ (i : Nat) (t : Step) (l : Line), steps[i]? = some t → lines[i]? = some l →
        (l.formula = t.formula ∧ l.citation.rule = t.rule) ∧
          l.number.levels = t.number.levels ∧
          List.Forall₂ (· ≤ ·) l.number.path t.number.path ∧
          ∃ cursor, (LineNumber.zero :: lines.map (·.number))[i]? = some cursor ∧
            t.kind.Advances cursor l.number) ∧
      ∃ l, lines.getLast? = some l ∧ l.number.levels = 1 := by
  obtain ⟨s, hrun, hsteps, hlast, hend⟩ := Proof.check_ok_iff.1 h
  have hs := hrun.wf
  have hn := hs.enclosing_of_last? hlast hend
  have hplaced := placed_supporting hrun hn
  have hconclusion := hs.getLast?_supporting (List.mem_of_mem_head? hlast)
  rw [hsteps]
  refine ⟨_, _, compact_eq_ok hs hplaced,
    fun t => Step.mem_supporting_iff hs.founded, hs.ascending_supporting _,
    by rw [List.length_map, List.length_map], fun i t l ht hl => ?_, ?_⟩
  · rw [List.getElem?_map, List.getElem?_map, ht] at hl
    obtain rfl := Option.some.inj hl
    refine ⟨⟨rfl, rfl⟩, LineNumber.levels_renumber _ t.number,
      LineNumber.path_renumber_le _ t.number, ?_⟩
    rw [List.map_map]
    exact hplaced.exists_cursor (by rw [List.getElem?_map, ht]; rfl)
  · rw [List.getLast?_map, List.getLast?_map, hconclusion]
    refine ⟨_, rfl, (LineNumber.levels_renumber _ r.conclusion.number).trans ?_⟩
    rw [LineNumber.levels, hn, List.length_nil]

/-- A proof of `p → (q → p ∧ q)` with lines to spare in each of its blocks: a
    given line and a sub-proof before the outer sub-proof, a line in it, and a line
    in the inner one. -/
def Proof.sparse : Proof :=
  let p := .atom "p"
  let q := .atom "q"
  { mode := .ordinary
    declarations := ⟨["p", "q"], [q]⟩
    lines := [
      ⟨⟨1, []⟩, q, ⟨"Given", []⟩⟩,
      ⟨⟨1, [2]⟩, p, ⟨"Assumption", []⟩⟩,
      ⟨⟨2, []⟩, .implies p p, ⟨"Direct Proof Rule", []⟩⟩,
      ⟨⟨1, [3]⟩, p, ⟨"Assumption", []⟩⟩,
      ⟨⟨2, [3]⟩, .or p q, ⟨"Intro Or", [⟨1, [3]⟩]⟩⟩,
      ⟨⟨1, [3, 3]⟩, q, ⟨"Assumption", []⟩⟩,
      ⟨⟨2, [3, 3]⟩, .or q p, ⟨"Intro Or", [⟨1, [3, 3]⟩]⟩⟩,
      ⟨⟨3, [3, 3]⟩, .and p q, ⟨"Intro And", [⟨1, [3]⟩, ⟨1, [3, 3]⟩]⟩⟩,
      ⟨⟨3, [3]⟩, .implies q (.and p q), ⟨"Direct Proof Rule", []⟩⟩,
      ⟨⟨3, []⟩, .implies p (.implies q (.and p q)), ⟨"Direct Proof Rule", []⟩⟩] }

theorem compact_shrinks_sparse : ∃ r, Proof.sparse.check .standard = .ok r ∧
    ∃ (steps : List Step) (lines : List Line),
      compact r.steps r.conclusion.number = .ok lines ∧
      lines.map (·.number.path) = [[1, 1], [1, 2, 1], [1, 2, 2], [1, 2], [1]] ∧
      lines.length = steps.length ∧
      (∀ (i : Nat) (t : Step) (l : Line), steps[i]? = some t → lines[i]? = some l →
        l.number.levels = t.number.levels ∧
          List.Forall₂ (· ≤ ·) l.number.path t.number.path) ∧
      ∃ l, lines.getLast? = some l ∧ l.number.levels = 1 := by
  have hpaths : (Proof.sparse.check .standard).map (fun r =>
      (compact r.steps r.conclusion.number).map (·.map (·.number.path))) =
        .ok (.ok [[1, 1], [1, 2, 1], [1, 2, 2], [1, 2], [1]]) := by decide +kernel
  cases hr : Proof.sparse.check .standard with
  | error e => rw [hr] at hpaths; cases hpaths
  | ok r =>
    obtain ⟨steps, lines, hcompact, -, -, hlength, hlines, hlast⟩ := compact_shrinks hr
    rw [hr] at hpaths
    have hpaths : (compact r.steps r.conclusion.number).map (·.map (·.number.path)) =
        .ok [[1, 1], [1, 2, 1], [1, 2, 2], [1, 2], [1]] := Except.ok.inj hpaths
    rw [hcompact] at hpaths
    refine ⟨r, rfl, steps, lines, hcompact, Except.ok.inj hpaths, hlength, ?_, hlast⟩
    intro i t l ht hl
    obtain ⟨-, hlevels, hle, -⟩ := hlines i t l ht hl
    exact ⟨hlevels, hle⟩

end Deduction
