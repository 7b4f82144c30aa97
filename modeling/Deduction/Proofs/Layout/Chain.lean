/-
  The chain of equivalences that is printed for a compiled proof.

  An equivalence proof is printed as one chain: a row that starts with `\equiv`
  says that its formula is equivalent to the one above.  The layout does not look at
  the references, and in an equivalence proof a line may rewrite any earlier line.

  * `Run.exists_rewrites`: a row of the chain rewrites some earlier line;
  * `Run.rowByRow_iff`: it rewrites the row above just where each line cites the
    number before its own;
  * `Proof.isChain_of_restsOnAll`: that is so where the conclusion rests on every
    line, and thus after compaction;
  * `compile_rowByRow_iff`: so the printed chain is right if the proof is compacted,
    and otherwise only if the source is already written as a chain.
-/
import Deduction.Layout.Latex
import Deduction.Proofs.Compaction.Chain
import Deduction.Proofs.Compilation
import Deduction.Proofs.Valuation

namespace Deduction

open Checker (State)

/-! ## Rows of a chain -/

/-- The row of the line says that it is equivalent to what stands above. -/
def Line.ContinuesChain (l : Line) : Prop :=
  ∃ rest, Layout.Latex.chainEntry l = "& \\( \\equiv " ++ rest

/-- The line cites just the number before its own. -/
def Line.CitesPrevious (l : Line) : Prop :=
  ∃ n : LineNumber, n.next? = some l.number ∧ l.citation.refs = [n]

/-- Each row that is said to be equivalent to the row above rewrites that row. -/
def RowByRow (c : Catalog) (ls : List Line) : Prop :=
  ∀ before l after, ls = before ++ l :: after → l.ContinuesChain →
    ∃ above, before.getLast? = some above ∧ above.Rewrites c l

namespace Line

variable {c : Catalog} {l l' m m' : Line} {ls ls' : List Line}

theorem continuesChain_iff : l.ContinuesChain ↔ l.citation.ruleKey ≠ RuleName.given := by
  constructor
  · rintro ⟨rest, hrest⟩ hgiven
    rw [Layout.Latex.chainEntry, if_pos hgiven] at hrest
    have hhead := congrArg (fun s : String => s.toList.head?) hrest
    simp [String.toList_append] at hhead
  · intro hrule
    refine ⟨l.formula.latex ++ " \\) & [ " ++ RuleName.titleCase l.citation.rule ++ " ] \\\\", ?_⟩
    rw [Layout.Latex.chainEntry, if_neg hrule]
    simp only [String.append_assoc]

/-- What the accepted form of a line rewrites, the line itself rewrites. -/
theorem Rewrites.of_restates (hl : l.Restates l') (hm : m.Restates m') (h : l'.Rewrites c m') :
    l.Rewrites c m where
  refs := by
    have hperm := hm.refs
    rw [h.refs, hl.number] at hperm
    exact List.perm_singleton.1 hperm.symm
  rule := by rw [← hm.ruleKey]; exact h.rule
  rewrites := by rw [← hm.ruleKey, ← hl.formula, ← hm.formula]; exact h.rewrites

theorem isChain_of_restates (hls : List.Forall₂ Restates ls ls') (h : ls'.IsChain (Rewrites c)) :
    ls.IsChain (Rewrites c) := by
  induction hls with
  | nil => exact .nil
  | cons hl hrest ih =>
    cases hrest with
    | nil => exact .singleton _
    | cons hm =>
      obtain ⟨hrewrites, hchain⟩ := List.isChain_cons_cons.1 h
      exact List.isChain_cons_cons.2 ⟨hrewrites.of_restates hl hm, ih hchain⟩

end Line

/-- A chain that starts with a given line is right row by row. -/
theorem rowByRow_of_isChain {c : Catalog} {ls : List Line} (hchain : ls.IsChain (Line.Rewrites c))
    (hfirst : ∀ l ∈ ls.head?, l.citation.ruleKey = RuleName.given) : RowByRow c ls := by
  rintro before l after rfl hrow
  cases hlast : before.getLast? with
  | none =>
    obtain rfl := List.getLast?_eq_none_iff.1 hlast
    exact absurd (hfirst l rfl) (Line.continuesChain_iff.1 hrow)
  | some above =>
    exact ⟨above, rfl, (List.isChain_append.1 hchain).2.2 above hlast l rfl⟩

/-! ## Runs of an equivalence proof -/

namespace Checker.State

variable {Γ : Setting} {s s' : State} {before ls : List Line} {l : Line} {step : Step}
  (hmode : Γ.mode = .equivalence) (hcatalog : Γ.catalog.Normalized)
include hmode hcatalog

/-- **One row.**  A row of the chain rewrites a step that was accepted before. -/
theorem Accepts.exists_rewrites (h : Accepts Γ s l s' step) (hrow : l.ContinuesChain) :
    ∃ u ∈ s.accepted, u.line.Rewrites Γ.catalog l := by
  have hl := h.restates_line hcatalog
  rcases h.linked hmode hcatalog with hstarts | ⟨u, hu, hrewrites⟩
  · have hgiven : step.line.citation.ruleKey = RuleName.given := by rw [hstarts.line]; decide
    exact absurd (hl.ruleKey.symm.trans hgiven) (Line.continuesChain_iff.1 hrow)
  · exact ⟨u, hu, hrewrites.line.of_restates (.refl _) hl⟩

/-- A row of the chain rewrites one of the lines before it. -/
theorem Run.exists_rewrites (h : Run Γ .initial before s) (hstep : Accepts Γ s l s' step)
    (hrow : l.ContinuesChain) : ∃ l' ∈ before, l'.Rewrites Γ.catalog l := by
  obtain ⟨u, hu, hrewrites⟩ := hstep.exists_rewrites hmode hcatalog hrow
  obtain ⟨new, haccepted, hrestates⟩ := h.restates_line hcatalog
  have hmem : u.line ∈ new.map Step.line := by
    rw [haccepted] at hu
    exact List.mem_map_of_mem (by simpa [initial] using hu)
  obtain ⟨l', hl', hrestated⟩ := exists_of_forall₂ hrestates.flip hmem
  exact ⟨l', hl', hrewrites.of_restates hrestated (.refl _)⟩

/-- It rewrites the row above just if it cites the number before its own. -/
theorem Run.rewrites_above_iff (h : Run Γ .initial before s) (hstep : Accepts Γ s l s' step)
    (hrow : l.ContinuesChain) :
    (∃ above, before.getLast? = some above ∧ above.Rewrites Γ.catalog l) ↔ l.CitesPrevious := by
  have hnext := hstep.next?_of_equivalence hmode
  constructor
  · rintro ⟨above, hlast, hrewrites⟩
    obtain ⟨earlier, rfl⟩ := List.getLast?_eq_some_iff.1 hlast
    obtain ⟨s₁, -, _ | ⟨habove, ⟨⟩⟩⟩ := Run.append_iff.1 h
    refine ⟨s.cursor, hnext, ?_⟩
    rw [hrewrites.refs, habove.cursor_eq, habove.number_eq]
  · rintro ⟨n, hn, hrefs⟩
    obtain rfl := LineNumber.next?_injective hn hnext
    obtain ⟨u, hu, hrewrites⟩ := hstep.exists_rewrites hmode hcatalog hrow
    have hnumber : s.cursor = u.number := List.singleton_inj.1 (hrefs.symm.trans hrewrites.refs)
    rcases List.eq_nil_or_concat' before with rfl | ⟨earlier, above, rfl⟩
    · cases h
      cases hu
    obtain ⟨s₁, hearlier, _ | ⟨habove, ⟨⟩⟩⟩ := Run.append_iff.1 h
    refine ⟨above, List.getLast?_concat, ?_⟩
    -- the rewritten step has the number of the last one, so it is the last one
    rw [habove.accepted_eq] at hu
    rcases List.mem_cons.1 hu with rfl | hu
    · exact hrewrites.of_restates (habove.restates_line hcatalog) (.refl _)
    · exact absurd (hnumber.symm.trans habove.cursor_eq) (hearlier.wf.lt_step habove hu).ne

/-- **Many rows.**  The chain is right row by row just where each row cites the number
    before its own. -/
theorem Run.rowByRow_iff (h : Run Γ .initial ls s) :
    RowByRow Γ.catalog ls ↔ ∀ l ∈ ls, l.ContinuesChain → l.CitesPrevious := by
  constructor
  · intro hrows l hl hrow
    obtain ⟨before, after, rfl⟩ := List.append_of_mem hl
    obtain ⟨s₁, hbefore, _ | ⟨hstep, -⟩⟩ := Run.append_iff.1 h
    exact (hbefore.rewrites_above_iff hmode hcatalog hstep hrow).1 (hrows before l after rfl hrow)
  · rintro hprevious before l after rfl hrow
    obtain ⟨s₁, hbefore, _ | ⟨hstep, -⟩⟩ := Run.append_iff.1 h
    exact (hbefore.rewrites_above_iff hmode hcatalog hstep hrow).2 (hprevious l (by simp) hrow)

end Checker.State

/-- **Where the conclusion rests on every line, the lines form a chain**: the first
    one is given, and each further one rewrites the line before it. -/
theorem Proof.isChain_of_restsOnAll {c : Catalog} {p : Proof} {r : Checked}
    (hcatalog : c.Normalized) (hmode : p.mode = .equivalence) (h : p.check c = .ok r)
    (hall : Step.RestsOnAll r.steps r.conclusion.number) :
    p.lines.IsChain (Line.Rewrites c) ∧
      ∀ l ∈ p.lines.head?, l.citation.ruleKey = RuleName.given := by
  have hrestates := Proof.check_restates_line hcatalog h
  obtain ⟨s, hrun, hsteps, hlast, -⟩ := Proof.check_ok_iff.1 h
  obtain ⟨before, hbefore⟩ := List.head?_eq_some_iff.1 hlast
  have hlinked := hrun.linked hmode hcatalog
  have hascending := hrun.wf.ascending
  rw [hsteps, hbefore] at hall hrestates
  rw [hbefore] at hlinked hascending
  obtain ⟨hchain, first, hfirst, hstarts⟩ := hlinked.isChain hascending hall
  constructor
  · refine Line.isChain_of_restates hrestates ?_
    rw [List.isChain_map, List.isChain_reverse]
    exact hchain.imp fun _ _ hrewrites => hrewrites.line
  · intro l hl
    obtain ⟨rest, hrest⟩ := List.head?_eq_some_iff.1 hl
    rw [← List.head?_reverse] at hfirst
    obtain ⟨later, hlater⟩ := List.head?_eq_some_iff.1 hfirst
    rw [hrest, hlater, List.map_cons, List.forall₂_cons] at hrestates
    rw [← hrestates.1.ruleKey, hstarts.line]
    decide

/-! ## Compiled proofs -/

/-- **The chain that is printed for a compiled equivalence proof.**  Each of its rows
    rewrites one earlier line.  That line is always the row above if the proof is
    compacted; otherwise it is so just if in the source each line cites the number
    before its own. -/
theorem compile_rowByRow_iff (s : Settings) (source : String) (r : Compilation)
    (h : compile .standard s source = .ok r) (hmode : r.proof.mode = .equivalence) :
    ∃ p, readProof s source = .ok p ∧
      (∀ before l after, r.proof.lines = before ++ l :: after → l.ContinuesChain →
        ∃ l' ∈ before, l'.Rewrites .standard l) ∧
      (RowByRow .standard r.proof.lines ↔
        s.optimize = true ∨ ∀ l ∈ p.lines, l.ContinuesChain → l.CitesPrevious) := by
  have hcatalog := Catalog.normalized_standard
  obtain ⟨p, checked, lines, hread, hcheck, hlines, rfl⟩ := compile_eq_ok.1 h
  obtain ⟨checked', hcheck', -, hall⟩ := Checked.check_output hcatalog hcheck hlines
  obtain ⟨st, hrun, -⟩ := Proof.check_ok_iff.1 hcheck'
  refine ⟨p, hread, ?_, ?_⟩
  · intro before l after hsplit hrow
    change lines = _ at hsplit
    rw [hsplit] at hrun
    obtain ⟨s₁, hbefore, _ | ⟨hstep, -⟩⟩ := State.Run.append_iff.1 hrun
    exact hbefore.exists_rewrites hmode hcatalog hstep hrow
  · cases hoptimize : s.optimize with
    | true =>
      obtain ⟨hchain, hfirst⟩ := Proof.isChain_of_restsOnAll hcatalog hmode hcheck' (hall hoptimize)
      exact iff_of_true (rowByRow_of_isChain hchain hfirst) (.inl rfl)
    | false =>
      rw [Checked.output, hoptimize] at hlines
      obtain rfl : p.lines = lines := Except.ok.inj hlines
      have hrows : RowByRow .standard p.lines ↔ _ := hrun.rowByRow_iff hmode hcatalog
      rw [hrows, or_iff_right Bool.false_ne_true]

/-- A source whose last line rewrites the first one, with another given line between
    them. -/
def straying : String :=
  "Let p be a proposition\nLet q be a proposition\nGiven p∧q\nGiven p∨q\nequivalence.\n" ++
    "1. p∧q [Given]\n2. p∨q [Given]\n3. q∧p [Commutativity: 1]\n"

/-- What it is compiled to without compaction. -/
def Proof.straying : Proof :=
  let p := .atom "p"
  let q := .atom "q"
  { mode := .equivalence
    declarations := ⟨["p", "q"], [.and p q, .or p q]⟩
    lines := [
      ⟨⟨1, []⟩, .and p q, ⟨"Given", []⟩⟩,
      ⟨⟨2, []⟩, .or p q, ⟨"Given", []⟩⟩,
      ⟨⟨3, []⟩, .and q p, ⟨"Commutativity", [⟨1, []⟩]⟩⟩] }

/-- What it is compiled to with compaction. -/
def Proof.onTrack : Proof :=
  { Proof.straying with lines := [
      ⟨⟨1, []⟩, .and (.atom "p") (.atom "q"), ⟨"given", []⟩⟩,
      ⟨⟨2, []⟩, .and (.atom "q") (.atom "p"), ⟨"commutativity", [⟨1, []⟩]⟩⟩] }

theorem compile_rowByRow_iff_straying :
    compile .standard .default straying = .ok ⟨.onTrack, 3⟩ ∧ Proof.onTrack.mode = .equivalence ∧
      RowByRow .standard Proof.onTrack.lines := by
  have h : compile .standard .default straying = .ok ⟨.onTrack, 3⟩ :=
    compile_of_toOption (by decide +kernel)
  obtain ⟨p, -, -, hrows⟩ := compile_rowByRow_iff .default straying _ h rfl
  exact ⟨h, rfl, hrows.2 (.inl rfl)⟩

/-- Without compaction the row `≡ q ∧ p` is printed below `p ∨ q`, which its line does
    not cite and which is not equivalent to it. -/
theorem compile_row_astray :
    ∃ r, compile .standard { Settings.default with optimize := false } straying = .ok r ∧
      r.proof.mode = .equivalence ∧
      ∃ before above l after, r.proof.lines = before ++ above :: l :: after ∧ l.ContinuesChain ∧
        l.citation.refs ≠ [above.number] ∧ ∃ v, above.formula.eval v ≠ l.formula.eval v := by
  have h : compile .standard { Settings.default with optimize := false } straying =
      .ok ⟨.straying, 3⟩ := compile_of_toOption (by decide +kernel)
  refine ⟨_, h, rfl, Proof.straying.lines.take 1, _, _, _, rfl, Line.continuesChain_iff.2 ?_, ?_,
    fun x => x = .atom "p", ?_⟩
  all_goals decide +kernel

end Deduction
