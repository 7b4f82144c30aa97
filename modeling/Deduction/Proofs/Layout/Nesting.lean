/-
  The nesting of the JSON form of an accepted proof.

  The outline of a proof follows the rules that its lines cite, and the checker
  follows their numbers.  They meet in the block whose listing an accepted proof
  is:

  * `Run.marked`: in the block, just the assumptions and the closing lines of
    sub-proofs cite the rules that the outline goes by;
  * `foldl_add_listing`: so the outline of the listing consists of the entries of
    the block (`Block.entries`);
  * `leaves_entries` and `delimited_entries`: the JSON form of these entries holds
    every line at its depth, and every sub-proof stands between its assumption and
    its closing line.
-/
import Deduction.Layout.Json
import Deduction.Proofs.Checker.Blocks

namespace Deduction

/-! ## Reading nested entries -/

namespace Layout

/-- The entries in the object of a sub-proof. -/
def subproofEntries? : Json → Option (List Json)
  | .object [(key, .array es)] => if key = "subproof" then some es else none
  | _ => none

theorem subproofEntries?_eq_some {j : Json} {es : List Json} :
    subproofEntries? j = some es ↔ j = .object [("subproof", .array es)] := by
  constructor
  · intro h
    unfold subproofEntries? at h
    split at h
    · split at h
      · rename_i hkey
        rw [hkey, Option.some.inj h]
      · cases h
    · cases h
  · rintro rfl
    rfl

theorem sizeOf_lt_of_subproofEntries? {j : Json} {es : List Json}
    (h : subproofEntries? j = some es) : sizeOf es < sizeOf j := by
  rw [subproofEntries?_eq_some.1 h]
  simp only [Json.object.sizeOf_spec, List.cons.sizeOf_spec, Prod.mk.sizeOf_spec,
    Json.array.sizeOf_spec]
  omega

/-- The leaves of nested entries from left to right, each with the number of
    sub-proofs in which it stands, where `depth` of them are around all. -/
def leaves (depth : Nat) : List Json → List (Nat × Json)
  | [] => []
  | j :: js =>
    match _h : subproofEntries? j with
    | some es => leaves (depth + 1) es ++ leaves depth js
    | none => (depth, j) :: leaves depth js
termination_by js => sizeOf js
decreasing_by
  · have := sizeOf_lt_of_subproofEntries? _h
    simp only [List.cons.sizeOf_spec]; omega
  all_goals simp only [List.cons.sizeOf_spec]; omega

/-- The entries of every sub-proof, however deep it stands. -/
def subproofs : List Json → List (List Json)
  | [] => []
  | j :: js =>
    match _h : subproofEntries? j with
    | some es => es :: (subproofs es ++ subproofs js)
    | none => subproofs js
termination_by js => sizeOf js
decreasing_by
  · have := sizeOf_lt_of_subproofEntries? _h
    simp only [List.cons.sizeOf_spec]; omega
  all_goals simp only [List.cons.sizeOf_spec]; omega

/-- The line `first` opens the sub-proof that the line `closing` closes. -/
structure Delimits (first closing : Line) : Prop where
  opens : first.citation.ruleKey = RuleName.assumption
  closes : closing.citation.ruleKey = RuleName.directProof
  number : first.number = ⟨1, closing.number.inward⟩

/-- Every sub-proof among the entries starts with its assumption and stands right
    before its closing line, which are both in `ls`. -/
def Delimited (ls : List Line) (js : List Json) : Prop :=
  ∀ (i : Nat) (inner : List Json), js[i]?.bind subproofEntries? = some inner →
    ∃ first ∈ ls, ∃ closing ∈ ls, Delimits first closing ∧
      inner.head? = some (lineJson first) ∧ js[i + 1]? = some (lineJson closing)

section
variable {depth : Nat} {l first closing : Line} {ls : List Line} {es : List Outline.Entry}
  {js : List Json}

theorem leaves_line :
    leaves depth (lineJson l :: js) = (depth, lineJson l) :: leaves depth js := by
  rw [leaves]; rfl

theorem leaves_subproof : leaves depth (entryJson (.subproof es) :: js) =
    leaves (depth + 1) (entriesJson es) ++ leaves depth js := by
  rw [leaves]; rfl

theorem subproofs_line : subproofs (lineJson l :: js) = subproofs js := by
  rw [subproofs]; rfl

theorem subproofs_subproof : subproofs (entryJson (.subproof es) :: js) =
    entriesJson es :: (subproofs (entriesJson es) ++ subproofs js) := by
  rw [subproofs]; rfl

theorem Delimited.nil : Delimited ls [] := nofun

theorem Delimited.line (h : Delimited ls js) : Delimited ls (lineJson l :: js) := by
  intro i inner hinner
  cases i with
  | zero => cases hinner
  | succ i => exact h i inner hinner

theorem Delimited.subproof (hfirst : first ∈ ls) (hclosing : closing ∈ ls)
    (hdelimits : Delimits first closing) (h : Delimited ls js) :
    Delimited ls (entryJson (.subproof (.line first :: es)) :: lineJson closing :: js) := by
  intro i inner hinner
  cases i with
  | zero =>
    obtain rfl : entriesJson (.line first :: es) = inner := Option.some.inj hinner
    exact ⟨first, hfirst, closing, hclosing, hdelimits, rfl, rfl⟩
  | succ i => exact h.line i inner hinner

end

end Layout

/-! ## The outline of a block -/

namespace Line

variable {l : Line}

theorem boundary_of_assumption (h : l.citation.ruleKey = RuleName.assumption) :
    l.boundary = .opens := by
  rw [boundary, if_pos h]

theorem boundary_of_directProof (h : l.citation.ruleKey = RuleName.directProof) :
    l.boundary = .closes := by
  rw [boundary, if_neg (by rw [h]; decide), if_pos h]

theorem boundary_of_ne
    (h : l.citation.ruleKey ≠ RuleName.assumption ∧ l.citation.ruleKey ≠ RuleName.directProof) :
    l.boundary = .inside := by
  rw [boundary, if_neg h.1, if_neg h.2]

end Line

namespace Outline.State

variable {s : State} {l : Line}

theorem add_of_opens (h : l.boundary = .opens) : s.add l = ⟨[.line l], s.current :: s.outer⟩ := by
  rw [add, h]

theorem add_of_inside (h : l.boundary = .inside) : s.add l = ⟨s.current ++ [.line l], s.outer⟩ := by
  rw [add, h]

theorem add_of_closes {current parent : List Entry} {outer : List (List Entry)}
    (h : l.boundary = .closes) : (⟨current, parent :: outer⟩ : State).add l =
      ⟨parent ++ [.subproof current, .line l], outer⟩ := by
  rw [add, h]

end Outline.State

namespace Block

/-- The cited rules tell the assumptions and the closing lines of sub-proofs from
    the other lines. -/
def Marked : Block → Prop
  | nil => True
  | line a rest =>
    (a.citation.ruleKey ≠ RuleName.assumption ∧ a.citation.ruleKey ≠ RuleName.directProof) ∧
      rest.Marked
  | subproof assumption body closing rest =>
    assumption.citation.ruleKey = RuleName.assumption ∧ body.Marked ∧
      closing.citation.ruleKey = RuleName.directProof ∧ rest.Marked

/-- The entries of a block, with the numbers of its listing. -/
def entries : (e : List Nat) → (slot : Nat) → Block → List Outline.Entry
  | _, _, nil => []
  | e, slot, line a rest => .line (a.at ⟨slot, e⟩) :: rest.entries e (slot + 1)
  | e, slot, subproof assumption body closing rest =>
    .subproof (.line (assumption.at ⟨1, slot :: e⟩) :: body.entries (slot :: e) 2) ::
      .line (closing.at ⟨slot, e⟩) :: rest.entries e (slot + 1)

variable {b : Block} {e : List Nat} {slot : Nat}

/-- The listing of a block adds the entries of the block to those of the current
    block, and leaves the blocks around it as they are. -/
theorem foldl_add_listing (hb : b.Marked) (s : Outline.State) :
    (b.listing e slot).foldl Outline.State.add s = ⟨s.current ++ b.entries e slot, s.outer⟩ := by
  induction b generalizing e slot s with
  | nil => rw [listing, entries, List.append_nil]; rfl
  | line a rest ih =>
    obtain ⟨hkey, hrest⟩ := hb
    have hinside : (a.at ⟨slot, e⟩).boundary = .inside := Line.boundary_of_ne hkey
    rw [listing, List.foldl_cons, Outline.State.add_of_inside hinside, ih hrest, entries,
      List.append_assoc]
    rfl
  | subproof assumption body closing rest ih₁ ih₂ =>
    obtain ⟨hopens, hbody, hcloses, hrest⟩ := hb
    have hopens : (assumption.at ⟨1, slot :: e⟩).boundary = .opens :=
      Line.boundary_of_assumption hopens
    have hcloses : (closing.at ⟨slot, e⟩).boundary = .closes :=
      Line.boundary_of_directProof hcloses
    rw [listing, List.foldl_cons, List.foldl_append, List.foldl_cons,
      Outline.State.add_of_opens hopens, ih₁ hbody, Outline.State.add_of_closes hcloses, ih₂ hrest,
      entries, List.append_assoc]
    rfl

/-- The JSON form of the entries holds each line of the block once, in order, in as
    many sub-proofs as its number has enclosing slots. -/
theorem leaves_entries : Layout.leaves e.length (Layout.entriesJson (b.entries e slot)) =
    (b.listing e slot).map fun l => (l.number.levels - 1, Layout.lineJson l) := by
  induction b generalizing e slot with
  | nil => rw [entries, Layout.entriesJson, Layout.leaves]; rfl
  | line a rest ih =>
    rw [entries, Layout.entriesJson, Layout.entryJson, Layout.leaves_line, ih, listing,
      List.map_cons]
    rfl
  | subproof assumption body closing rest ih₁ ih₂ =>
    have hbody := @ih₁ (slot :: e) 2
    rw [List.length_cons] at hbody
    rw [entries, Layout.entriesJson, Layout.leaves_subproof, Layout.entriesJson, Layout.entryJson,
      Layout.leaves_line, hbody, Layout.entriesJson, Layout.entryJson, Layout.leaves_line, ih₂,
      listing, List.map_cons, List.map_append, List.map_cons]
    rfl

/-- In the JSON form of the entries, every sub-proof starts with its assumption and
    stands right before its closing line. -/
theorem delimited_entries {ls : List Line} (hb : b.Marked) (hls : b.listing e slot ⊆ ls) :
    ∀ js ∈ Layout.entriesJson (b.entries e slot) ::
      Layout.subproofs (Layout.entriesJson (b.entries e slot)), Layout.Delimited ls js := by
  induction b generalizing e slot with
  | nil =>
    rw [entries, Layout.entriesJson, Layout.subproofs]
    exact List.forall_mem_singleton.2 Layout.Delimited.nil
  | line a rest ih =>
    obtain ⟨hhere, hinner⟩ := List.forall_mem_cons.1 (ih hb.2 (List.cons_subset.1 hls).2)
    rw [entries, Layout.entriesJson, Layout.entryJson, Layout.subproofs_line]
    exact List.forall_mem_cons.2 ⟨hhere.line, hinner⟩
  | subproof assumption body closing rest ih₁ ih₂ =>
    obtain ⟨hopens, hbody, hcloses, hrest⟩ := hb
    obtain ⟨hfirst, hls⟩ := List.cons_subset.1 hls
    obtain ⟨hbodyls, hls⟩ := List.append_subset.1 hls
    obtain ⟨hclosing, hrestls⟩ := List.cons_subset.1 hls
    obtain ⟨hbodyhere, hbodyinner⟩ := List.forall_mem_cons.1 (ih₁ hbody hbodyls)
    obtain ⟨hhere, hinner⟩ := List.forall_mem_cons.1 (ih₂ hrest hrestls)
    rw [entries, Layout.entriesJson, Layout.entriesJson, Layout.entryJson.eq_1,
      Layout.subproofs_subproof, Layout.subproofs_line, Layout.entriesJson, Layout.entryJson.eq_1,
      Layout.subproofs_line]
    refine List.forall_mem_cons.2 ⟨hhere.subproof hfirst hclosing ⟨hopens, hcloses, rfl⟩, ?_⟩
    exact List.forall_mem_cons.2 ⟨hbodyhere.line, List.forall_mem_append.2 ⟨hbodyinner, hinner⟩⟩

end Block

/-! ## Accepted proofs -/

namespace Checker.State

variable {Γ : Setting} {s s' : State}

/-- A justified line cites the given lines or a rule of the catalog. -/
theorem ruleKey_ne_of_justify {l : Line} {cited : List Step} {kind : StepKind} {name : String}
    (h : justify Γ l cited = .ok kind) (hgiven : name ≠ RuleName.given)
    (hget : Γ.catalog.get? name = none) : l.citation.ruleKey ≠ name := by
  rintro rfl
  rcases justify_eq_ok.1 h with ⟨hkey, -⟩ | ⟨-, rule, hrule, -⟩
  · exact hgiven hkey
  · rw [hget] at hrule; cases hrule

/-- Where the catalog leaves them free, the rules that open and close sub-proofs are
    cited where the checker opens and closes one, and nowhere else. -/
theorem Run.marked {b : Block} {e : List Nat} {slot : Nat}
    (hassumption : Γ.catalog.get? RuleName.assumption = none)
    (hdirectProof : Γ.catalog.get? RuleName.directProof = none)
    (hcursor : s.cursor.slot + 1 = slot ∧ s.cursor.enclosing = e)
    (h : Run Γ s (b.listing e slot) s') : b.Marked := by
  induction b generalizing s s' e slot with
  | nil => trivial
  | line a rest ih =>
    obtain ⟨s₁, step, hstep, hcursor₁, hrun⟩ := h.of_listing_line
    obtain ⟨-, -, kind, cited, -, hjustify, -⟩ := hstep.of_inside (Place.of_enclosing_eq hcursor.2)
    have hopens := ruleKey_ne_of_justify hjustify (by decide) hassumption
    have hcloses := ruleKey_ne_of_justify hjustify (by decide) hdirectProof
    exact ⟨⟨hopens, hcloses⟩, ih hcursor₁ hrun⟩
  | subproof assumption body closing rest ih₁ ih₂ =>
    obtain ⟨s₁, s₂, s₃, first, step, hfirst, ⟨hcursor₁, hbody⟩, hstep, hcursor₃, hrest⟩ :=
      h.of_listing_subproof
    obtain ⟨-, hopens, -⟩ :=
      hfirst.of_opening (Place.of_enclosing_cons (congrArg (slot :: ·) hcursor.2.symm))
    have hinside := (hbody.after_listing hcursor₁).1
    obtain ⟨-, hcloses, -⟩ := hstep.of_closing (Place.of_close hinside)
    exact ⟨hopens, ih₁ hcursor₁ hbody, hcloses, ih₂ hcursor₃ hrest⟩

end Checker.State

open Checker (State)

/-- An accepted proof is the listing of a block whose nesting the cited rules show. -/
theorem Proof.exists_marked_block {p : Proof} {c : Catalog} {r : Checked}
    (hassumption : c.get? RuleName.assumption = none)
    (hdirectProof : c.get? RuleName.directProof = none) (h : p.check c = .ok r) :
    ∃ b : Block, b.Marked ∧ p.lines = b.listing [] 1 := by
  obtain ⟨s, hrun, -, -, hend⟩ := Proof.check_ok_iff.1 h
  obtain ⟨b, rest, hls, ⟨rfl, -⟩ | ⟨l, rest', -, ⟨⟩⟩⟩ := hrun.exists_block State.Wf.initial hend
  have hls : p.lines = b.listing [] 1 := hls.trans (List.append_nil _)
  rw [hls] at hrun
  exact ⟨b, hrun.marked hassumption hdirectProof ⟨rfl, rfl⟩, hls⟩

/-- The lines of an accepted proof have different numbers. -/
theorem Proof.nodup_numbers {p : Proof} {c : Catalog} {r : Checked} (h : p.check c = .ok r) :
    (p.lines.map (·.number)).Nodup := by
  obtain ⟨s, hrun, -⟩ := Proof.check_ok_iff.1 h
  have hnumbers := hrun.numbers_accepted
  have hnodup : (s.accepted.map (·.number)).Nodup :=
    List.pairwise_map.2 (hrun.wf.ascending.imp fun hlt => hlt.ne')
  rw [hnumbers] at hnodup
  exact List.nodup_reverse.1 (List.nodup_append.1 hnodup).1

/-- The entry of a line tells its number. -/
theorem Layout.number_of_lineJson {l l' : Line} (h : lineJson l = lineJson l') :
    l.number = l'.number := by
  simp only [lineJson, Json.object.injEq, List.cons.injEq, Prod.mk.injEq, Json.string.injEq] at h
  exact LineNumber.text_injective h.1.2

/-- **The JSON form of an accepted proof mirrors its numbers**: read depth first, it
    holds each line once, in order, and a line whose number has `k` components stands
    in `k - 1` sub-proofs.  Every sub-proof, however deep, starts with its assumption,
    and the next entry of the list in which it stands is its closing line.  An entry
    identifies its line. -/
theorem Layout.entriesJson_mirrors_numbers {p : Proof} {r : Checked}
    (h : p.check .standard = .ok r) :
    leaves 0 (entriesJson (outline p.lines)) =
        p.lines.map (fun l => (l.number.levels - 1, lineJson l)) ∧
      (∀ js ∈ entriesJson (outline p.lines) :: subproofs (entriesJson (outline p.lines)),
        Delimited p.lines js) ∧
      ∀ l ∈ p.lines, ∀ l' ∈ p.lines, lineJson l = lineJson l' → l = l' := by
  have hassumption : Catalog.standard.get? RuleName.assumption = none := by decide +kernel
  have hdirectProof : Catalog.standard.get? RuleName.directProof = none := by decide +kernel
  obtain ⟨b, hb, hls⟩ := p.exists_marked_block hassumption hdirectProof h
  have houtline : outline p.lines = b.entries [] 1 := by
    rw [outline, hls, b.foldl_add_listing hb]; rfl
  rw [houtline]
  refine ⟨?_, b.delimited_entries hb (hls ▸ List.Subset.refl _), fun l hl l' hl' heq => ?_⟩
  · rw [hls]
    exact Block.leaves_entries (b := b) (e := [])
  · exact List.inj_on_of_nodup_map (Proof.nodup_numbers h) hl hl' (number_of_lineJson heq)

/-- The seven lines of two nested sub-proofs, with the entries of the outer one. -/
theorem Layout.entriesJson_mirrors_numbers_exportation :
    (∃ r, Proof.exportation.check .standard = .ok r) ∧
      (leaves 0 (entriesJson (outline Proof.exportation.lines))).map (·.1) =
        [1, 2, 2, 2, 2, 1, 0] ∧
      ∃ inner, (entriesJson (outline Proof.exportation.lines))[0]?.bind subproofEntries? =
          some inner ∧
        ∃ first ∈ Proof.exportation.lines, ∃ closing ∈ Proof.exportation.lines,
          Delimits first closing ∧ inner.head? = some (lineJson first) ∧
            (entriesJson (outline Proof.exportation.lines))[1]? = some (lineJson closing) := by
  have hsome : ((entriesJson (outline Proof.exportation.lines))[0]?.bind
      subproofEntries?).isSome = true := by decide +kernel
  obtain ⟨r, hr⟩ := Proof.check_exportation
  obtain ⟨hleaves, hdelimited, -⟩ := entriesJson_mirrors_numbers hr
  obtain ⟨inner, hinner⟩ := Option.isSome_iff_exists.1 hsome
  refine ⟨⟨r, hr⟩, ?_, inner, hinner, hdelimited _ List.mem_cons_self 0 inner hinner⟩
  rw [hleaves]
  rfl

end Deduction
