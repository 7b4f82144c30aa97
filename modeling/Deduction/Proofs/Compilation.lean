/-
  Compiling the text of a compiled proof.

  * `Proof.exists_compact`: the compacted proof is accepted and has no lines to
    spare;
  * `Checked.exists_output`: from a proof without lines to spare nothing is
    dropped;
  * `compile_layout_text`: so the canonical text of a compiled proof is compiled
    to the same text.
-/
import Deduction.Compilation
import Deduction.Proofs.Compaction.RoundTrip
import Deduction.Proofs.Layout.Text

namespace Deduction

open Checker (State)

/-! ## Restated steps rest on each other as before -/

namespace Step

variable {ts ts' : List Step} {n m : LineNumber}

theorem Reaches.restate (hts : List.Forall₂ Restates ts ts') (h : Reaches ts n m) :
    Reaches ts' n m := by
  refine Relation.ReflTransGen.mono ?_ n m h
  rintro a d ⟨t, ht, rfl, hd⟩
  obtain ⟨t', ht', hrestates⟩ := exists_of_forall₂ hts ht
  exact ⟨t', ht', hrestates.number, hrestates.dependencies.mem_iff.2 hd⟩

theorem RestsOnAll.restate (hts : List.Forall₂ Restates ts ts') (h : RestsOnAll ts n) :
    RestsOnAll ts' n := by
  intro t' ht'
  obtain ⟨t, ht, hrestates⟩ := exists_of_forall₂ hts.flip ht'
  rw [hrestates.number]
  exact (h t ht).restate hts

end Step

/-! ## The written lines -/

/-- **The compacted proof of an accepted proof is accepted and has no lines to
    spare.** -/
theorem Proof.exists_compact {c : Catalog} {p : Proof} {r : Checked} (hcatalog : c.Normalized)
    (hcheck : p.check c = .ok r) : ∃ lines r', compact r.steps r.conclusion.number = .ok lines ∧
      ({ p with lines } : Proof).check c = .ok r' ∧
      (∀ l ∈ lines, l.formula ∈ p.lines.map (·.formula)) ∧
      Step.RestsOnAll r'.steps r'.conclusion.number := by
  have hformulas := map_eq_of_forall₂ (fun _ _ h => h.formula)
    (Proof.check_restates_line hcatalog hcheck)
  obtain ⟨kept, s, hsteps, hlast, hend, hcompact, hrun, hall⟩ := compact_of_check hcatalog hcheck
  refine ⟨_, ⟨_, r.conclusion.renumber kept⟩, hcompact,
    Proof.check_ok_iff.2 ⟨s, hrun, rfl, hlast, hend⟩, fun l hl => ?_, hall⟩
  -- a kept step has the formula of the line that it was accepted for
  obtain ⟨t', ht', rfl⟩ := List.mem_map.1 hl
  rw [List.mem_reverse, hsteps] at ht'
  obtain ⟨t, ht, rfl⟩ := List.mem_map.1 ht'
  have hmem : t.line ∈ r.steps.reverse.map Step.line :=
    List.mem_map_of_mem (List.mem_reverse.2 (List.mem_of_mem_filter ht))
  rw [← hformulas]
  exact List.mem_map.2 ⟨t.line, hmem, rfl⟩

namespace Checked

variable {c : Catalog} {p : Proof} {r : Checked} {s : Settings} {lines : List Line}

/-- What is written for an accepted proof is accepted. -/
theorem check_output (hcatalog : c.Normalized) (hcheck : p.check c = .ok r)
    (h : r.output p s = .ok lines) :
    ∃ r', ({ p with lines } : Proof).check c = .ok r' ∧
      (∀ l ∈ lines, l.formula ∈ p.lines.map (·.formula)) ∧
      (s.optimize = true → Step.RestsOnAll r'.steps r'.conclusion.number) := by
  rw [output] at h
  split at h
  · obtain ⟨lines', r', hcompact, hcheck', hformulas, hall⟩ := Proof.exists_compact hcatalog hcheck
    rw [hcompact] at h
    obtain rfl := Except.ok.inj h
    exact ⟨r', hcheck', hformulas, fun _ => hall⟩
  · rename_i hoptimize
    obtain rfl := Except.ok.inj h
    exact ⟨r, hcheck, fun l hl => List.mem_map_of_mem hl, fun h => absurd h hoptimize⟩

/-- **Nothing is dropped from a proof without lines to spare.** -/
theorem exists_output (hcatalog : c.Normalized) (hcheck : p.check c = .ok r)
    (hall : s.optimize = true → Step.RestsOnAll r.steps r.conclusion.number) :
    ∃ lines, r.output p s = .ok lines ∧ List.Forall₂ Line.Restates p.lines lines := by
  rw [output]
  split
  · rename_i hoptimize
    obtain ⟨st, hrun, hsteps, -, -⟩ := Proof.check_ok_iff.1 hcheck
    refine ⟨_, ?_, Proof.check_restates_line hcatalog hcheck⟩
    rw [hsteps] at hall ⊢
    exact compact_of_restsOnAll hrun (hall hoptimize)
  · exact ⟨p.lines, rfl, List.forall₂_same.2 fun l _ => .refl l⟩

end Checked

/-! ## Compilation -/

theorem Catalog.normalized_standard : Catalog.standard.Normalized := by decide +kernel

section
variable {c : Catalog} {s : Settings} {source : String} {p : Proof} {r : Compilation}

theorem readProof_eq_ok : readProof s source = .ok p ↔ ∃ p₀, Proof.parse source = .ok p₀ ∧
    (if s.equivalenceOnly then { p₀ with mode := .equivalence } else p₀) = p := by
  rw [readProof]
  cases Proof.parse source with
  | error e => simp [bind, Except.bind]
  | ok p₀ => simp [bind, Except.bind, pure, Except.pure]

theorem compile_eq_ok : compile c s source = .ok r ↔
    ∃ p checked lines, readProof s source = .ok p ∧ p.check c = .ok checked ∧
      checked.output p s = .ok lines ∧ r = ⟨{ p with lines }, p.lines.length⟩ := by
  rw [compile]
  cases readProof s source with
  | error e => simp [Except.mapError, bind, Except.bind]
  | ok p =>
    cases hcheck : p.check c with
    | error e => simp [Except.mapError, bind, Except.bind, hcheck]
    | ok checked =>
      cases hlines : checked.output p s with
      | error e => simp [Except.mapError, bind, Except.bind, hcheck, hlines]
      | ok lines =>
        simp [Except.mapError, bind, Except.bind, pure, Except.pure, hcheck, hlines, eq_comm]

theorem compile_of_toOption (h : (compile c s source).toOption = some r) :
    compile c s source = .ok r := by
  cases hr : compile c s source with
  | error e => rw [hr] at h; cases h
  | ok r' => rw [hr] at h; exact congrArg _ (Option.some.inj h)

/-- What is read can be written and read again, and it is in the mode that the
    settings ask for. -/
theorem of_readProof (h : readProof s source = .ok p) :
    p.Printable ∧ (s.equivalenceOnly = true → p.mode = .equivalence) := by
  obtain ⟨p₀, hparse, rfl⟩ := readProof_eq_ok.1 h
  obtain ⟨hdeclarations, hlines⟩ := Proof.printable_of_parse hparse
  split
  · exact ⟨⟨hdeclarations, hlines⟩, fun _ => rfl⟩
  · rename_i hmode
    exact ⟨⟨hdeclarations, hlines⟩, fun h => absurd h hmode⟩

theorem readProof_of_parse (h : Proof.parse source = .ok p)
    (hmode : s.equivalenceOnly = true → p.mode = .equivalence) : readProof s source = .ok p := by
  refine readProof_eq_ok.2 ⟨p, h, ?_⟩
  split
  · rename_i honly
    rw [← hmode honly]
  · rfl

end

/-- **The canonical text of a compiled proof is a fixed point of compilation**: it
    is compiled again, to the same text, and no line is dropped. -/
theorem compile_layout_text (s : Settings) (source : String) (r : Compilation)
    (h : compile .standard s source = .ok r) :
    ∃ r', compile .standard s (Layout.text r.proof) = .ok r' ∧
      Layout.text r'.proof = Layout.text r.proof ∧
      r'.proof.lines.length = r'.sourceLines ∧ r'.pruned = 0 := by
  obtain ⟨p, checked, lines, hread, hcheck, hlines, rfl⟩ := compile_eq_ok.1 h
  obtain ⟨hprintable, hmode⟩ := of_readProof hread
  obtain ⟨checked₁, hcheck₁, hformulas, hall⟩ :=
    Checked.check_output Catalog.normalized_standard hcheck hlines
  have hreadable : ∀ l ∈ lines, l.formula.Readable := by
    intro l hl
    obtain ⟨l₀, hl₀, hformula⟩ := List.mem_map.1 (hformulas l hl)
    rw [← hformula]
    exact (hprintable.lines l₀ hl₀).formula
  -- what is read from the text restates the proof, so it is accepted as well
  obtain ⟨q, hparse, hq⟩ := Proof.parse_layout_text Catalog.normalized_standard
    Catalog.titled_standard hcheck₁ hprintable.declarations hreadable
  have hread₂ : readProof s _ = .ok q := readProof_of_parse hparse fun h => hq.mode.trans (hmode h)
  obtain ⟨checked₂, hcheck₂, hsteps, hconclusion⟩ := Proof.check_restate hq hcheck₁
  -- nothing is dropped, since the conclusion rests on every line
  have hall₂ : s.optimize = true → Step.RestsOnAll checked₂.steps checked₂.conclusion.number :=
    fun hoptimize => hconclusion.number ▸ (hall hoptimize).restate hsteps
  obtain ⟨lines₂, hlines₂, hrestates⟩ :=
    Checked.exists_output Catalog.normalized_standard hcheck₂ hall₂
  have hlength : lines₂.length = q.lines.length := hrestates.length_eq.symm
  refine ⟨_, compile_eq_ok.2 ⟨q, checked₂, lines₂, hread₂, hcheck₂, hlines₂, rfl⟩, ?_, hlength, ?_⟩
  · rw [← Layout.text_of_restates hq]
    exact Layout.text_of_restates ⟨rfl, rfl, hrestates⟩
  · rw [Compilation.pruned, hlength, Nat.sub_self]

/-- A source with a line to spare, rules in odd spellings and references out of
    order. -/
def careless : String :=
  "Let p be a proposition\nGiven p\nProof.\n1. p [given]\n2. p | p [intro or: 1]\n" ++
    "3. p [GIVEN]\n4. p & p [iNTRO  aNd: 3, 1]"

/-- What it is compiled to. -/
def Proof.ofCareless : Proof :=
  ⟨.ordinary, ⟨["p"], [.atom "p"]⟩,
    [⟨⟨1, []⟩, .atom "p", ⟨"given", []⟩⟩, ⟨⟨2, []⟩, .atom "p", ⟨"given", []⟩⟩,
      ⟨⟨3, []⟩, .and (.atom "p") (.atom "p"), ⟨"intro and", [⟨2, []⟩, ⟨1, []⟩]⟩⟩]⟩

theorem compile_layout_text_careless :
    compile .standard .default careless = .ok ⟨.ofCareless, 4⟩ ∧
      ∃ r', compile .standard .default (Layout.text .ofCareless) = .ok r' ∧
        Layout.text r'.proof = Layout.text .ofCareless ∧
        r'.proof.lines.length = r'.sourceLines ∧ r'.pruned = 0 := by
  have h : compile .standard .default careless = .ok ⟨.ofCareless, 4⟩ :=
    compile_of_toOption (by decide +kernel)
  exact ⟨h, compile_layout_text .default careless ⟨.ofCareless, 4⟩ h⟩

end Deduction
