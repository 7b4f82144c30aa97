/-
  What a step depends on.

  The graph that is made for a step has vertices for exactly the steps that the
  step rests on (`at_graph_iff`), and so its vertices are those of the lines that
  support it (`mem_reachable_iff`).
-/
import Deduction.Proofs.Compaction.Graph

namespace Deduction

variable {steps : List Step} {n m : LineNumber}

namespace Compaction

/-! ## The vertices of the graph -/

/-- A number that no step has leads nowhere. -/
theorem Graph.visit_of_absent (g : Graph) (hn : ∀ t ∈ steps, t.number ≠ n) :
    visit steps n g = (g, none) := by
  induction steps with
  | nil => rfl
  | cons s earlier ih =>
    rw [visit, if_neg (hn s List.mem_cons_self)]
    exact ih fun t ht => hn t (List.mem_cons_of_mem _ ht)

theorem visited_graph (h : Step.Founded steps) (hn : ∃ t ∈ steps, t.number = n) :
    Graph.Visited steps n .empty (Graph.visit steps n .empty) :=
  Graph.visited_visit h h (List.Subset.refl _) hn (.empty steps)

theorem graph_of_absent (hn : ¬ ∃ t ∈ steps, t.number = n) : graph steps n = .empty := by
  rw [graph, Graph.visit_of_absent _ fun t ht heq => hn ⟨t, ht, heq⟩]

theorem wf_graph (h : Step.Founded steps) (n : LineNumber) : (graph steps n).Wf steps := by
  by_cases hn : ∃ t ∈ steps, t.number = n
  · exact (visited_graph h hn).wf
  · rw [graph_of_absent hn]
    exact .empty steps

theorem not_at_empty (k : Nat) : ¬ (frame Graph.empty.vertices).At m k := by
  rintro ⟨e, he, -⟩
  simp [Graph.empty, frame] at he

/-- What a vertex depends on has a vertex. -/
theorem Graph.Wf.exists_at {g : Graph} (hg : g.Wf steps) (h : Step.Founded steps) {k : Nat}
    (hk : (frame g.vertices).At n k) (hdep : Step.Depends steps n m) :
    ∃ j, (frame g.vertices).At m j := by
  obtain ⟨e, he, hnumber⟩ := hk
  obtain ⟨t, ht, rfl, hd⟩ := hdep
  obtain rfl := h.eq_of_number_eq (hg.known k e he) ht hnumber
  obtain ⟨j, -, hj⟩ := exists_of_forall₂ (hg.linked k e he) hd
  exact ⟨j, hj⟩

/-- **The graph has vertices for exactly the steps that can be reached.** -/
theorem at_graph_iff (h : Step.Founded steps) : (∃ k, (frame (graph steps n).vertices).At m k) ↔
    Step.Reaches steps n m ∧ ∃ t ∈ steps, t.number = m := by
  by_cases hn : ∃ t ∈ steps, t.number = n
  · have hvisited := visited_graph h hn
    constructor
    · rintro ⟨k, hk⟩
      refine ⟨(hvisited.reached m k hk).resolve_left (not_at_empty k), ?_⟩
      obtain ⟨e, he, hnumber⟩ := hk
      exact ⟨e.1, hvisited.wf.known k e he, hnumber⟩
    · rintro ⟨hreach, -⟩
      induction hreach with
      | refl =>
        obtain ⟨k, -, hk⟩ := hvisited.found
        exact ⟨k, hk⟩
      | tail _ hdep ih =>
        obtain ⟨k, hk⟩ := ih
        exact hvisited.wf.exists_at h hk hdep
  · rw [graph_of_absent hn]
    refine iff_of_false (fun hk => not_at_empty _ hk.choose_spec) ?_
    rintro ⟨hreach, hm⟩
    rcases hreach.cases_head with rfl | ⟨d, hdep, -⟩
    · exact hn hm
    · obtain ⟨t, ht, rfl, -⟩ := hdep
      exact hn ⟨t, ht, rfl⟩

end Compaction

namespace Step

open Compaction

/-! ## The supporting steps -/

/-- The steps of the vertices. -/
def reachable (steps : List Step) (n : LineNumber) : List Step :=
  (graph steps n).vertices.toList.map (·.step)

theorem mem_reachable {t : Step} : t ∈ reachable steps n ↔
    ∃ k e, frame (graph steps n).vertices k = some e ∧ e.1 = t := by
  simp only [reachable, List.mem_map, Array.mem_toList_iff, Array.mem_iff_getElem?, frame,
    Option.map_eq_some_iff]
  constructor
  · rintro ⟨v, ⟨k, hk⟩, rfl⟩
    exact ⟨k, _, ⟨v, hk, rfl⟩, rfl⟩
  · rintro ⟨k, e, ⟨v, hk, rfl⟩, rfl⟩
    exact ⟨v, ⟨k, hk⟩, rfl⟩

/-- **The steps of the vertices are those that can be reached.** -/
theorem mem_reachable_iff (h : Founded steps) {t : Step} :
    t ∈ reachable steps n ↔ t ∈ steps ∧ Reaches steps n t.number := by
  rw [mem_reachable]
  have hknown := (wf_graph h n).known
  constructor
  · rintro ⟨k, e, he, rfl⟩
    exact ⟨hknown k e he, ((at_graph_iff h).1 ⟨k, e, he, rfl⟩).1⟩
  · rintro ⟨ht, hreach⟩
    obtain ⟨k, e, he, hnumber⟩ := (at_graph_iff h).2 ⟨hreach, t, ht, rfl⟩
    exact ⟨k, e, he, h.eq_of_number_eq (hknown k e he) ht hnumber⟩

/-- The lines that the line `n` rests on, itself included. -/
def support (steps : List Step) (n : LineNumber) : List LineNumber :=
  (reachable steps n).map (·.number)

theorem mem_support_iff (h : Founded steps) :
    m ∈ support steps n ↔ Reaches steps n m ∧ ∃ t ∈ steps, t.number = m := by
  simp only [support, List.mem_map, mem_reachable_iff h]
  constructor
  · rintro ⟨t, ⟨ht, hreach⟩, rfl⟩; exact ⟨hreach, t, ht, rfl⟩
  · rintro ⟨hreach, t, ht, rfl⟩; exact ⟨t, ⟨ht, hreach⟩, rfl⟩

/-- The steps that the line `n` rests on, in the order of the proof. -/
def supporting (steps : List Step) (n : LineNumber) : List Step :=
  steps.reverse.filter (·.number ∈ support steps n)

theorem mem_supporting_iff (h : Founded steps) {t : Step} :
    t ∈ supporting steps n ↔ t ∈ steps ∧ Reaches steps n t.number := by
  rw [supporting, List.mem_filter, List.mem_reverse, decide_eq_true_eq, mem_support_iff h]
  exact and_congr_right fun ht => and_iff_left ⟨t, ht, rfl⟩

/-- The line `n` rests on every line. -/
def RestsOnAll (steps : List Step) (n : LineNumber) : Prop := ∀ t ∈ steps, Reaches steps n t.number

theorem RestsOnAll.supporting_eq (hall : RestsOnAll steps n) (h : Founded steps) :
    supporting steps n = steps.reverse := by
  refine List.filter_eq_self.2 fun t ht => decide_eq_true ?_
  rw [List.mem_reverse] at ht
  exact (mem_support_iff h).2 ⟨hall t ht, t, ht, rfl⟩

end Step

/-- The accepted steps depend on earlier ones. -/
theorem Checker.State.Wf.founded {s : Checker.State} (hs : s.Wf) : Step.Founded s.accepted :=
  ⟨hs.ascending, fun t ht => (hs.grounded t ht).earlier⟩

end Deduction
