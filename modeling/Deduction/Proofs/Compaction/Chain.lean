/-
  The compacted form of an equivalence proof.

  In an equivalence proof a step is given or rewrites one earlier step, so
  there is one way down from the conclusion.  What the conclusion rests on is
  therefore a chain: a given line, and then lines of which each rewrites the
  line before it.

  * `Linked`: what the checker accepts in an equivalence proof;
  * `Linked.isChain`: linked steps that the last one all rests on form a chain;
  * `compact_chain`: so the compacted proof is a chain with numbers `1`, `2`, ….
-/
import Deduction.Proofs.Checker.Equivalence
import Deduction.Proofs.Compaction.RoundTrip
import Mathlib.Data.List.Chain

namespace Deduction

open Checker (State)

/-- The line `l'` rewrites the line `l` by an equivalence rule of the catalog. -/
structure Line.Rewrites (c : Catalog) (l l' : Line) : Prop where
  refs : l'.citation.refs = [l.number]
  rule : l'.citation.ruleKey ≠ RuleName.given
  rewrites : ∃ e, c.getEquivalence? l'.citation.ruleKey = some e ∧
    e.rewrites l.formula l'.formula = true

namespace Step

/-! ## Linked steps -/

/-- A step without dependencies, cited as given. -/
structure Starts (t : Step) : Prop where
  dependencies : t.dependencies = []
  line : t.line.citation = ⟨RuleName.given, []⟩

structure Rewrites (c : Catalog) (t u : Step) : Prop where
  dependencies : t.dependencies = [u.number]
  line : u.line.Rewrites c t.line

/-- Each step is given or rewrites an earlier one, where the latest step comes
    first. -/
def Linked (c : Catalog) : List Step → Prop
  | [] => True
  | t :: before => (t.Starts ∨ ∃ u ∈ before, t.Rewrites c u) ∧ Linked c before

variable {c : Catalog} {t : Step} {steps : List Step} {n m : LineNumber}

theorem Linked.earlier (hlinked : Linked c steps)
    (hsteps : steps.Pairwise fun t u => u.number < t.number) :
    ∀ t ∈ steps, ∀ d ∈ t.dependencies, d < t.number := by
  induction steps with
  | nil => simp
  | cons t steps ih =>
    obtain ⟨ht, hsteps⟩ := List.pairwise_cons.1 hsteps
    refine List.forall_mem_cons.2 ⟨fun d hd => ?_, ih hlinked.2 hsteps⟩
    rcases hlinked.1 with hstarts | ⟨u, hu, hrewrites⟩
    · simp [hstarts.dependencies] at hd
    · rw [hrewrites.dependencies] at hd
      rw [List.mem_singleton.1 hd]
      exact ht u hu

section
variable (ht : ∀ u ∈ steps, u.number < t.number)
include ht

theorem Depends.of_head {d : LineNumber} (h : Depends (t :: steps) t.number d) :
    d ∈ t.dependencies := by
  obtain ⟨u, hu, hnumber, hd⟩ := h
  rcases List.mem_cons.1 hu with rfl | hu
  · exact hd
  · exact absurd hnumber (ht u hu).ne

/-- A step rests on another one through one of its dependencies. -/
theorem Reaches.of_head {u : Step} (hu : u ∈ steps) (h : Reaches (t :: steps) t.number u.number) :
    ∃ d ∈ t.dependencies, Reaches (t :: steps) d u.number := by
  rcases Relation.ReflTransGen.cases_head h with heq | ⟨d, hdep, hrest⟩
  · exact absurd heq (ht u hu).ne'
  · exact ⟨d, hdep.of_head ht, hrest⟩

/-- An earlier line does not rest on the last step. -/
theorem Reaches.of_tail (hearlier : ∀ u ∈ steps, ∀ d ∈ u.dependencies, d < u.number)
    (hn : n < t.number) (h : Reaches (t :: steps) n m) : Reaches steps n m := by
  induction h using Relation.ReflTransGen.head_induction_on with
  | refl => exact .refl
  | head hdep _ ih =>
    obtain ⟨u, hu, rfl, hd⟩ := hdep
    rcases List.mem_cons.1 hu with rfl | hu
    · exact absurd hn (lt_irrefl _)
    · exact (ih ((hearlier u hu _ hd).trans hn)).head ⟨u, hu, rfl, hd⟩

end

/-- **Linked steps form a chain if the last one rests on all of them.** -/
theorem Linked.isChain (hlinked : Linked c (t :: steps))
    (hsteps : (t :: steps).Pairwise fun t u => u.number < t.number)
    (hall : RestsOnAll (t :: steps) t.number) :
    (t :: steps).IsChain (Rewrites c) ∧ ∃ first ∈ (t :: steps).getLast?, first.Starts := by
  induction steps generalizing t with
  | nil =>
    rcases hlinked.1 with hstarts | ⟨u, hu, -⟩
    · exact ⟨.singleton t, t, rfl, hstarts⟩
    · cases hu
  | cons u steps ih =>
    have hearlier := hlinked.earlier hsteps
    obtain ⟨ht, hsteps⟩ := List.pairwise_cons.1 hsteps
    have hgreatest : ∀ v ∈ u :: steps, v.number ≤ u.number := by
      intro v hv
      rcases List.mem_cons.1 hv with rfl | hv
      · exact le_rfl
      · exact ((List.pairwise_cons.1 hsteps).1 v hv).le
    have hrewrites : t.Rewrites c u := by
      obtain ⟨d, hd, hreach⟩ := (hall u (by simp)).of_head ht List.mem_cons_self
      rcases hlinked.1 with hstarts | ⟨w, hw, hrewrites⟩
      · simp [hstarts.dependencies] at hd
      -- `t` has no other way down than through `w`, so `w` is not below `u`
      rw [hrewrites.dependencies] at hd
      rw [List.mem_singleton.1 hd] at hreach
      have hwu : w.number = u.number :=
        (hgreatest w hw).antisymm (le_of_reaches hearlier hreach)
      rcases List.mem_cons.1 hw with rfl | hw
      · exact hrewrites
      · exact absurd hwu ((List.pairwise_cons.1 hsteps).1 w hw).ne
    have hall' : RestsOnAll (u :: steps) u.number := by
      intro v hv
      obtain ⟨d, hd, hreach⟩ := (hall v (List.mem_cons_of_mem _ hv)).of_head ht hv
      rw [hrewrites.dependencies] at hd
      rw [List.mem_singleton.1 hd] at hreach
      exact hreach.of_tail ht (fun w hw => hearlier w (List.mem_cons_of_mem _ hw))
        (ht u List.mem_cons_self)
    obtain ⟨hchain, first, hfirst, hstarts⟩ := ih hlinked.2 hsteps hall'
    exact ⟨List.isChain_cons_cons.2 ⟨hrewrites, hchain⟩, first, hfirst, hstarts⟩

end Step

/-! ## Runs of an equivalence proof -/

namespace Checker.State

variable {Γ : Setting} {s s' : State} {l : Line} {ls : List Line} {step : Step}
  (hmode : Γ.mode = .equivalence)
include hmode

theorem Accepts.next?_of_equivalence (h : Accepts Γ s l s' step) :
    s.cursor.next? = some l.number := by
  cases h with
  | opening _ _ hordinary => exact absurd hmode hordinary
  | closing _ _ hordinary => exact absurd hmode hordinary
  | inside _ hnumber => exact hnumber

theorem Accepts.number_of_equivalence (h : Accepts Γ s l s' step) :
    step.number = ⟨s.cursor.slot + 1, s.cursor.enclosing⟩ := by
  rw [h.number_eq]
  exact (LineNumber.next?_eq_some.1 (h.next?_of_equivalence hmode)).2

theorem Accepts.linked (hcatalog : Γ.catalog.Normalized) (h : Accepts Γ s l s' step) :
    step.Starts ∨ ∃ u ∈ s.accepted, step.Rewrites Γ.catalog u := by
  have hnormal := h.normalize_rule hcatalog
  cases h with
  | opening _ _ hordinary => exact absurd hmode hordinary
  | closing _ _ hordinary => exact absurd hmode hordinary
  | @inside kind cited _ _ hcited hjustify =>
    have hrefs := Step.refs_line (t := ordinaryStep l kind cited) (kind_ne_directProof hjustify)
    rcases justify_eq_ok.1 hjustify with ⟨hgiven, rfl, -⟩ | ⟨hrule, rule, hget, hequivalence, hj, -⟩
    · exact .inl ⟨rfl, congrArg₂ Citation.mk hgiven hrefs⟩
    · obtain ⟨r, rfl⟩ := Rule.isEquivalence_iff.1 (hequivalence hmode)
      obtain ⟨premise, hpremise, hrewrites⟩ := Rule.justify_eq_ok.1 hj
      obtain ⟨u, rfl, rfl⟩ := List.map_eq_singleton_iff.1 hpremise
      have hkey : (ordinaryStep l kind [u]).line.citation.ruleKey = l.citation.ruleKey := hnormal
      refine .inr ⟨u, (hcited.of_mem List.mem_cons_self).1, rfl, hrefs, ?_, r, ?_, hrewrites⟩
      · rw [hkey]; exact hrule
      · rw [hkey]; exact Catalog.getEquivalence?_eq_some.2 hget

theorem Run.linked (hcatalog : Γ.catalog.Normalized) (h : Run Γ .initial ls s) :
    Step.Linked Γ.catalog s.accepted := by
  refine h.preserves (P := fun s => Step.Linked Γ.catalog s.accepted) ?_ trivial
  intro l _ s s' step hstep hs
  rw [hstep.accepted_eq]
  exact ⟨hstep.linked hmode hcatalog, hs⟩

/-- The lines of an equivalence proof are counted from `1` on. -/
theorem Run.numbers (h : Run Γ .initial ls s) : s.cursor = ⟨s.accepted.length, []⟩ ∧
    s.accepted.reverse.map (·.number) = (List.range s.accepted.length).map (⟨· + 1, []⟩) := by
  refine h.preserves (P := fun s => s.cursor = ⟨s.accepted.length, []⟩ ∧
    s.accepted.reverse.map (·.number) = (List.range s.accepted.length).map (⟨· + 1, []⟩)) ?_ ⟨rfl, rfl⟩
  rintro l - s s' step hstep ⟨hcursor, hnumbers⟩
  have hnumber := hstep.number_of_equivalence hmode
  rw [hcursor] at hnumber
  refine ⟨by rw [hstep.cursor_eq, hnumber, hstep.accepted_eq, List.length_cons], ?_⟩
  rw [hstep.accepted_eq, List.reverse_cons, List.map_append, hnumbers, List.length_cons,
    List.range_succ, List.map_append, List.map_singleton, List.map_singleton, hnumber]

end Checker.State

/-! ## The compacted proof -/

/-- **The compacted form of an equivalence proof is a single chain**: it starts
    with its only given line, each further line rewrites the line before it, and
    the lines are counted from `1` on. -/
theorem compact_chain {c : Catalog} {p : Proof} {r : Checked} (hcatalog : c.Normalized)
    (hmode : p.mode = .equivalence) (h : p.check c = .ok r) :
    ∃ first rest, compact r.steps r.conclusion.number = .ok (first :: rest) ∧
      (first :: rest).map (·.number) = (List.range (rest.length + 1)).map (⟨· + 1, []⟩) ∧
      first.citation = ⟨RuleName.given, []⟩ ∧
      (first :: rest).IsChain (Line.Rewrites c) ∧
      (first :: rest).getLast?.map (·.formula) = some r.conclusion.formula := by
  obtain ⟨kept, s, -, hlast, -, hcompact, hrun, hall⟩ := compact_of_check hcatalog h
  obtain ⟨before, hsteps⟩ := List.head?_eq_some_iff.1 hlast
  have hlinked := hrun.linked hmode hcatalog
  have hascending := hrun.wf.ascending
  have hnumbers := (hrun.numbers hmode).2
  rw [hsteps] at hlinked hascending hall hcompact hnumbers
  obtain ⟨hchain, first, hfirst, hstarts⟩ := hlinked.isChain hascending hall
  obtain ⟨rest, hrest⟩ : ∃ rest, (r.conclusion.renumber kept :: before).reverse = first :: rest :=
    List.head?_eq_some_iff.1 (by rwa [List.head?_reverse])
  have hlength := congrArg List.length hrest
  rw [List.length_reverse] at hlength
  rw [hrest, hlength, List.length_cons] at hnumbers
  rw [hrest] at hcompact
  refine ⟨first.line, rest.map Step.line, hcompact, ?_, hstarts.line, ?_, ?_⟩
  · rw [List.length_map, ← hnumbers, ← List.map_cons, List.map_map]; rfl
  · rw [← List.map_cons, List.isChain_map, ← hrest, List.isChain_reverse]
    exact hchain.imp fun _ _ hrewrites => hrewrites.line
  · rw [← List.map_cons, ← hrest, List.getLast?_map, List.getLast?_reverse]; rfl

/-- An equivalence proof of `¬¬(p ∧ q)` from `p ∧ q`, between whose lines another one
    starts from `p ∨ q`. -/
def Proof.interleaved : Proof :=
  let p := .atom "p"
  let q := .atom "q"
  { mode := .equivalence
    declarations := ⟨["p", "q"], [.and p q, .or p q]⟩
    lines := [
      ⟨⟨1, []⟩, .or p q, ⟨"Given", []⟩⟩,
      ⟨⟨2, []⟩, .and p q, ⟨"Given", []⟩⟩,
      ⟨⟨3, []⟩, .or q p, ⟨"Commutativity", [⟨1, []⟩]⟩⟩,
      ⟨⟨4, []⟩, .and q p, ⟨"Commutativity", [⟨2, []⟩]⟩⟩,
      ⟨⟨5, []⟩, .and p q, ⟨"Commutativity", [⟨4, []⟩]⟩⟩,
      ⟨⟨6, []⟩, .not (.not (.and p q)), ⟨"Involution", [⟨5, []⟩]⟩⟩] }

theorem compact_chain_interleaved : Catalog.standard.Normalized ∧
    Proof.interleaved.mode = .equivalence ∧ ∃ r, Proof.interleaved.check .standard = .ok r ∧
      ∃ first rest, compact r.steps r.conclusion.number = .ok (first :: rest) ∧
        first.citation = ⟨RuleName.given, []⟩ ∧
        (first :: rest).IsChain (Line.Rewrites .standard) ∧
        rest.map (·.citation) = [⟨"commutativity", [⟨1, []⟩]⟩, ⟨"commutativity", [⟨2, []⟩]⟩,
          ⟨"involution", [⟨3, []⟩]⟩] := by
  have hnormalized : Catalog.standard.Normalized := by decide +kernel
  have hlines : (Proof.interleaved.check .standard).map (fun r =>
      (compact r.steps r.conclusion.number).map (·.map (·.citation))) =
        .ok (.ok [⟨"given", []⟩, ⟨"commutativity", [⟨1, []⟩]⟩, ⟨"commutativity", [⟨2, []⟩]⟩,
          ⟨"involution", [⟨3, []⟩]⟩]) := by decide +kernel
  cases hr : Proof.interleaved.check .standard with
  | error e => rw [hr] at hlines; cases hlines
  | ok r =>
    obtain ⟨first, rest, hcompact, -, hfirst, hchain, -⟩ := compact_chain hnormalized rfl hr
    simp only [hr, Except.map, hcompact, Except.ok.injEq, List.map_cons, List.cons.injEq]
      at hlines
    exact ⟨hnormalized, rfl, r, rfl, first, rest, hcompact, hfirst, hchain, hlines.2⟩

end Deduction
