/-
  The checker accepts exactly the block-structured proofs.

  A block is a sequence of items; an item is a line or a sub-proof together
  with the line that closes it.  Nothing in a block is numbered: its listing
  numbers the items by their slots (`Block.listing`).  Likewise a block does
  not know what the checker has accepted: `Block.Valid` goes through the items
  with the lines that are visible where they stand.

  * `run_listing_iff`: the checker runs through the listing of a block iff the
    block is valid;
  * `Run.exists_block`: whatever the checker runs through, without leaving a
    sub-proof open, is the listing of a block;
  * `check_ok_iff_block`: hence a list of lines is an accepted proof iff it is
    the listing of a valid block.
-/
import Deduction.Proofs.Checker.Invariant
import Deduction.Proofs.RuleSoundness

namespace Deduction

/-- A line without its number. -/
structure Statement where
  formula : Formula
  citation : Citation

/-- The statement as the line `n`. -/
def Statement.at (a : Statement) (n : LineNumber) : Line := ⟨n, a.formula, a.citation⟩

theorem Line.eq_at {l : Line} {n : LineNumber} (h : l.number = n) :
    l = Statement.at ⟨l.formula, l.citation⟩ n := by
  subst h; rfl

/-- The items of a block, in their order. -/
inductive Block where
  /-- No item is left. -/
  | nil
  /-- An ordinary line. -/
  | line (a : Statement) (rest : Block)
  /-- A sub-proof, which starts with its assumption, and its closing line. -/
  | subproof (assumption : Statement) (body : Block) (closing : Statement) (rest : Block)

/-- The numbers and the formulas of the lines that may be cited. -/
abbrev Visible := List (LineNumber × Formula)

namespace Statement

/-- All atoms are declared. -/
def Declared (d : Declarations) (a : Statement) : Prop :=
  ∀ name, .atom name ∈ a.formula.vars → name ∈ d.atoms

/-- The statement cites the rule and no lines. -/
def Keyword (rule : String) (a : Statement) : Prop :=
  a.citation.ruleKey = rule ∧ a.citation.refs = []

/-- The statement is a given, or a rule of the catalog justifies it from the
    visible lines that it cites. -/
def Justified (c : Catalog) (d : Declarations) (visible : Visible) (a : Statement) : Prop :=
  (a.Keyword RuleName.given ∧ a.formula ∈ d.givens) ∨
  (a.citation.ruleKey ≠ RuleName.given ∧ ∃ rule premises, c.get? a.citation.ruleKey = some rule ∧
    List.Forall₂ (fun ref φ => visible.lookup ref = some φ) a.citation.refs premises ∧
      rule.Justifies premises a.formula)

end Statement

namespace Block

/-- The lines of a block whose items stand from `slot` on, where `e` are the
    slots that the enclosing blocks fill.  A sub-proof in slot `s` holds the
    numbers that continue `s`, with the assumption in its slot `1`, and `s`
    itself is the number of the closing line. -/
def listing : (e : List Nat) → (slot : Nat) → Block → List Line
  | _, _, nil => []
  | e, slot, line a rest => a.at ⟨slot, e⟩ :: rest.listing e (slot + 1)
  | e, slot, subproof assumption body closing rest =>
    assumption.at ⟨1, slot :: e⟩ ::
      (body.listing (slot :: e) 2 ++ closing.at ⟨slot, e⟩ :: rest.listing e (slot + 1))

/-- The formula of the last line of a block, where `φ` is that of the line
    before it. -/
def last (φ : Formula) : Block → Formula
  | nil => φ
  | line a rest => rest.last a.formula
  | subproof _ _ closing rest => rest.last closing.formula

/-- The rules of block-structured proofs.  A line sees the earlier lines of its
    own block and of the blocks around it, but not into closed sub-proofs. -/
def Valid (c : Catalog) (d : Declarations) :
    (visible : Visible) → (e : List Nat) → (slot : Nat) → Block → Prop
  | _, _, _, nil => True
  | visible, e, slot, line a rest =>
    a.Declared d ∧ a.Justified c d visible ∧
      rest.Valid c d ((⟨slot, e⟩, a.formula) :: visible) e (slot + 1)
  | visible, e, slot, subproof assumption body closing rest =>
    assumption.Declared d ∧ assumption.Keyword RuleName.assumption ∧
      body.Valid c d ((⟨1, slot :: e⟩, assumption.formula) :: visible) (slot :: e) 2 ∧
      closing.Declared d ∧ closing.Keyword RuleName.directProof ∧
      closing.formula = .implies assumption.formula (body.last assumption.formula) ∧
      rest.Valid c d ((⟨slot, e⟩, closing.formula) :: visible) e (slot + 1)

theorem listing_eq_nil {b : Block} {e : List Nat} {slot : Nat} :
    b.listing e slot = [] ↔ b = nil := by
  cases b <;> simp [listing]

/-- The numbers of a block continue the slot that it fills. -/
theorem enclosing_of_mem_listing {b : Block} {e : List Nat} {slot : Nat} {l : Line}
    (h : l ∈ b.listing e slot) : e <:+ l.number.enclosing := by
  induction b generalizing e slot with
  | nil => cases h
  | line a rest ih =>
    rcases List.mem_cons.1 h with rfl | h
    · exact List.suffix_rfl
    · exact ih h
  | subproof assumption body closing rest ih₁ ih₂ =>
    rcases List.mem_cons.1 h with rfl | h
    · exact List.suffix_cons slot e
    rcases List.mem_append.1 h with h | h
    · exact (List.suffix_cons slot e).trans (ih₁ h)
    rcases List.mem_cons.1 h with rfl | h
    · exact List.suffix_rfl
    · exact ih₂ h

end Block

theorem Formula.findUndeclared_eq_none {d : Declarations} {φ : Formula} :
    φ.findUndeclared d.isDeclared = none ↔ ∀ name, .atom name ∈ φ.vars → name ∈ d.atoms := by
  induction φ with
  | verum | falsum | metavar => simp [findUndeclared, vars]
  | atom a => simp [findUndeclared, vars, Declarations.isDeclared]
  | not φ ih => exact ih
  | binary c φ ψ ih₁ ih₂ =>
    simp only [findUndeclared, vars, Option.or_eq_none_iff, ih₁, ih₂, List.mem_append, or_imp,
      forall_and]

namespace Checker.State

variable {c : Catalog} {d : Declarations} {s s' : State}

/-! ## Where the checker stands -/

/-- The line `n` could cite exactly the lines in `visible`. -/
def Sees (s : State) (n : LineNumber) (visible : Visible) : Prop :=
  ∀ ref, visible.lookup ref =
    if n.hasAccess ref then (Step.find? s.accepted ref).map (·.formula) else none

/-- The checker stands before `slot` of a block, where it sees `visible`. -/
structure At (s : State) (visible : Visible) (e : List Nat) (slot : Nat) : Prop where
  cursor : s.cursor.slot + 1 = slot ∧ s.cursor.enclosing = e
  sees : s.Sees ⟨slot, e⟩ visible

theorem At.initial : State.initial.At [] [] 1 where
  cursor := ⟨rfl, rfl⟩
  sees ref := by simp [State.initial, Step.find?]

theorem Run.find?_eq {Γ : Setting} {ls : List Line} {n : LineNumber} (h : Run Γ s ls s')
    (hn : ∀ l ∈ ls, l.number ≠ n) : Step.find? s'.accepted n = Step.find? s.accepted n :=
  h.preserves (P := fun s₁ => Step.find? s₁.accepted n = Step.find? s.accepted n)
    (fun l hl _ _ _ hstep ih => by
      rw [hstep.accepted_eq, Step.find?_cons, if_neg (hstep.number_eq ▸ hn l hl), ih]) rfl

/-- The premises that a line finds in the visible lines are the formulas of the
    steps that it cites. -/
theorem forall₂_lookup_iff {visible : Visible} {n : LineNumber} {refs : List LineNumber}
    {premises : List Formula} (hsees : s.Sees n visible) :
    List.Forall₂ (fun ref φ => visible.lookup ref = some φ) refs premises ↔
      ∃ cited, s.Cites n refs cited ∧ premises = cited.map (·.formula) := by
  induction refs generalizing premises with
  | nil => simp [Cites]
  | cons ref refs ih =>
    simp only [Cites, List.forall₂_cons_left_iff]
    constructor
    · rintro ⟨φ, premises, hφ, hrest, rfl⟩
      obtain ⟨cited, hcited, rfl⟩ := ih.1 hrest
      rw [hsees ref] at hφ
      split at hφ
      · rename_i haccess
        obtain ⟨t, ht, rfl⟩ := Option.map_eq_some_iff.1 hφ
        exact ⟨t :: cited, ⟨t, cited, ⟨ht, haccess⟩, hcited, rfl⟩, rfl⟩
      · cases hφ
    · rintro ⟨_, ⟨t, cited, ⟨ht, haccess⟩, hcited, rfl⟩, rfl⟩
      exact ⟨t.formula, _, by simp [hsees ref, haccess, ht], ih.2 ⟨cited, hcited, rfl⟩, rfl⟩

/-- A new step is one more visible line.  Steps that have been accepted in the
    meantime do not count if the line `n` could not cite them. -/
theorem Sees.cons {visible : Visible} {n m : LineNumber} (h : s.Sees n visible) {t : Step}
    {steps : List Step} (haccepted : s'.accepted = t :: steps)
    (hsteps : ∀ ref, n.hasAccess ref = true → Step.find? steps ref = Step.find? s.accepted ref)
    (hm : ∀ u ∈ s'.accepted, m.hasAccess u.number = true ↔
      u.number = t.number ∨ n.hasAccess u.number = true) :
    s'.Sees m ((t.number, t.formula) :: visible) := by
  intro ref
  have hfound : ∀ u, Step.find? s'.accepted ref = some u →
      (m.hasAccess ref = true ↔ ref = t.number ∨ n.hasAccess ref = true) := by
    intro u hu
    obtain ⟨hmem, rfl⟩ := Step.find?_mem hu
    exact hm u hmem
  rw [haccepted, Step.find?_cons] at hfound
  rw [haccepted, Step.find?_cons, List.lookup_cons]
  by_cases href : ref = t.number
  · subst href
    simp only [if_true] at hfound
    simp [(hfound t rfl).2 (.inl trivial)]
  · simp only [Ne.symm href, if_false, href, false_or] at hfound ⊢
    have hbeq : (ref == t.number) = false := by simpa using href
    rw [hbeq, h ref]
    by_cases haccess : n.hasAccess ref = true
    · rw [← hsteps ref haccess]
      cases hfind : Step.find? steps ref with
      | none => simp
      | some u => simp [haccess, (hfound u hfind).2 haccess]
    · cases hfind : Step.find? steps ref with
      | none => simp [haccess]
      | some u =>
        have hm' : ¬ m.hasAccess ref = true := fun h => haccess ((hfound u hfind).1 h)
        simp [haccess, hm']

/-! ## The three places -/

section
variable {Γ : Setting} {visible : Visible} {e : List Nat} {slot : Nat} {a : Statement} {step : Step}

/-- A line of the current block is accepted iff it is declared and justified. -/
theorem accepts_line_iff (hat : s.At visible e slot) (hroom : s.cursor.slot < LineNumber.maxSlot) :
    (∃ s' step, Accepts ⟨c, d, .ordinary⟩ s (a.at ⟨slot, e⟩) s' step) ↔
      a.Declared d ∧ a.Justified c d visible := by
  obtain ⟨⟨hslot, henclosing⟩, hsees⟩ := hat
  constructor
  · rintro ⟨s', step, h⟩
    obtain ⟨hatoms, -, kind, cited, hcited, hjustify, -⟩ :=
      h.of_inside (Place.of_enclosing_eq henclosing)
    refine ⟨Formula.findUndeclared_eq_none.1 hatoms, ?_⟩
    rcases justify_eq_ok.1 hjustify with ⟨hrule, rfl, hgiven, -⟩ | ⟨hrule, rule, hget, -, hj, -⟩
    · exact .inl ⟨⟨hrule, cites_nil_right.1 hcited⟩, of_decide_eq_true hgiven⟩
    · exact .inr ⟨hrule, rule, _, hget, (forall₂_lookup_iff hsees).2 ⟨cited, hcited, rfl⟩,
        Rule.justify_eq_ok.1 hj⟩
  · have hnext : s.cursor.next? = some ⟨slot, e⟩ :=
      LineNumber.next?_eq_some.2 ⟨hroom, by rw [hslot, henclosing]⟩
    rintro ⟨hdeclared, ⟨⟨hrule, hrefs⟩, hgiven⟩ | ⟨hrule, rule, premises, hget, hrefs, hj⟩⟩
    · exact ⟨_, _, .inside (Formula.findUndeclared_eq_none.2 hdeclared) hnext
        (cites_nil_right.2 hrefs) (justify_eq_ok.2 (.inl ⟨hrule, rfl, decide_eq_true hgiven, rfl⟩))⟩
    · obtain ⟨cited, hcited, rfl⟩ := (forall₂_lookup_iff hsees).1 hrefs
      exact ⟨_, _, .inside (Formula.findUndeclared_eq_none.2 hdeclared) hnext hcited
        (justify_eq_ok.2 (.inr ⟨hrule, rule, hget, nofun, Rule.justify_eq_ok.2 hj, rfl⟩))⟩

/-- An assumption is accepted before any slot. -/
theorem accepts_opening_iff (hat : s.At visible e slot)
    (hroom : s.cursor.slot < LineNumber.maxSlot) :
    (∃ s' step, Accepts ⟨c, d, .ordinary⟩ s (a.at ⟨1, slot :: e⟩) s' step) ↔
      a.Declared d ∧ a.Keyword RuleName.assumption := by
  obtain ⟨⟨hslot, henclosing⟩, -⟩ := hat
  constructor
  · rintro ⟨s', step, h⟩
    obtain ⟨hatoms, hrule, hrefs, -⟩ :=
      h.of_opening (Place.of_enclosing_cons (congrArg (slot :: ·) henclosing.symm))
    exact ⟨Formula.findUndeclared_eq_none.1 hatoms, hrule, hrefs⟩
  · have hopen : s.cursor.open? = some ⟨1, slot :: e⟩ :=
      LineNumber.open?_eq_some.2 ⟨hroom, by rw [hslot, henclosing]⟩
    rintro ⟨hdeclared, hrule, hrefs⟩
    exact ⟨_, _, .opening (Formula.findUndeclared_eq_none.2 hdeclared) hopen nofun hrule hrefs⟩

/-- A closing line is accepted iff it discharges the innermost assumption. -/
theorem accepts_closing_iff {assumption conclusion : Step} {outer : List Step}
    (henclosing : s.cursor.enclosing = slot :: e) (hassumption : s.assumptions = assumption :: outer)
    (hlast : s.last? = some conclusion) :
    (∃ s' step, Accepts ⟨c, d, .ordinary⟩ s (a.at ⟨slot, e⟩) s' step) ↔
      a.Declared d ∧ a.Keyword RuleName.directProof ∧
        a.formula = .implies assumption.formula conclusion.formula := by
  constructor
  · rintro ⟨s', step, h⟩
    obtain ⟨hatoms, hrule, hrefs, assumption', conclusion', hassumption', hlast', hformula, -⟩ :=
      h.of_closing (Place.of_close henclosing)
    rw [hassumption] at hassumption'
    rw [hlast] at hlast'
    obtain ⟨rfl, -⟩ := List.cons.inj hassumption'
    obtain rfl := Option.some.inj hlast'
    exact ⟨Formula.findUndeclared_eq_none.1 hatoms, ⟨hrule, hrefs⟩, hformula⟩
  · rintro ⟨hdeclared, ⟨hrule, hrefs⟩, hformula⟩
    exact ⟨_, _, .closing (Formula.findUndeclared_eq_none.2 hdeclared) henclosing nofun hrule hrefs
      hassumption hlast hformula⟩

/-- After the line in `slot` the checker stands before the next one.  What it
    has accepted in a sub-proof in the meantime is not visible. -/
theorem At.next {s₁ : State} (hat : s.At visible e slot)
    (h : Accepts Γ s₁ (a.at ⟨slot, e⟩) s' step)
    (hsame : ∀ ref, (⟨slot, e⟩ : LineNumber).hasAccess ref = true →
      Step.find? s₁.accepted ref = Step.find? s.accepted ref) :
    s'.At ((⟨slot, e⟩, a.formula) :: visible) e (slot + 1) where
  cursor := by
    rw [h.cursor_eq, h.number_eq]; exact ⟨rfl, rfl⟩
  sees := by
    have hnumber : step.number = ⟨slot, e⟩ := h.number_eq
    have hsees := hat.sees.cons h.accepted_eq hsame fun u _ => by
      rw [hnumber]; exact LineNumber.hasAccess_succ
    rwa [hnumber, h.formula_eq] at hsees

/-- After its assumption the checker stands before slot `2` of a sub-proof. -/
theorem At.enter (hat : s.At visible e slot) (hs : s.Wf)
    (h : Accepts Γ s (a.at ⟨1, slot :: e⟩) s' step) :
    s'.At ((⟨1, slot :: e⟩, a.formula) :: visible) (slot :: e) 2 where
  cursor := by
    rw [h.cursor_eq, h.number_eq]; exact ⟨rfl, rfl⟩
  sees := by
    have hnumber : step.number = ⟨1, slot :: e⟩ := h.number_eq
    have hsees := hat.sees.cons h.accepted_eq (fun _ _ => rfl) fun u hu => by
      have hslot : u.number.slot ≠ 0 := fun h0 =>
        (hs.of_accepts h).positive u hu (h0 ▸ List.mem_cons_self)
      rw [hnumber]; exact LineNumber.hasAccess_two hslot
    rwa [hnumber, h.formula_eq] at hsees

end

/-! ## Listings of blocks -/

/-- No slot around the cursor exceeds the number of accepted lines. -/
def Bounded (s : State) : Prop := ∀ slot ∈ s.cursor.inward, slot ≤ s.accepted.length

theorem Bounded.initial : State.initial.Bounded := fun slot hslot => by
  rw [List.mem_singleton.1 hslot]; exact Nat.zero_le _

theorem Bounded.of_accepts {Γ : Setting} {l : Line} {step : Step} (hs : s.Bounded)
    (h : Accepts Γ s l s' step) : s'.Bounded := by
  intro slot hslot
  rw [h.accepted_eq, List.length_cons]
  have hcursor : s.cursor.slot ≤ s.accepted.length := hs _ List.mem_cons_self
  have houter : ∀ slot ∈ s.cursor.enclosing, slot ≤ s.accepted.length + 1 := fun slot h =>
    (hs slot (List.mem_cons_of_mem _ h)).trans (Nat.le_succ _)
  cases h with
  | opening _ hnumber =>
    obtain ⟨-, hn⟩ := LineNumber.open?_eq_some.1 hnumber
    rw [hn] at hslot
    rcases List.mem_cons.1 hslot with rfl | hslot
    · exact Nat.le_add_left _ _
    rcases List.mem_cons.1 hslot with rfl | hslot
    · exact Nat.succ_le_succ hcursor
    · exact houter slot hslot
  | inside _ hnumber =>
    obtain ⟨-, hn⟩ := LineNumber.next?_eq_some.1 hnumber
    rw [hn] at hslot
    rcases List.mem_cons.1 hslot with rfl | hslot
    · exact Nat.succ_le_succ hcursor
    · exact houter slot hslot
  | closing _ hnumber => exact houter slot (hnumber ▸ hslot)

theorem Bounded.of_run {Γ : Setting} {ls : List Line} (hs : s.Bounded) (h : Run Γ s ls s') :
    s'.Bounded :=
  h.preserves (fun _ _ _ _ _ hstep hs => hs.of_accepts hstep) hs

/-- A run through a line and the rest of the block. -/
theorem Run.of_listing_line {Γ : Setting} {a : Statement} {rest : Block} {e : List Nat} {slot : Nat}
    (h : Run Γ s ((Block.line a rest).listing e slot) s') :
    ∃ s₁ step, Accepts Γ s (a.at ⟨slot, e⟩) s₁ step ∧
      (s₁.cursor.slot + 1 = slot + 1 ∧ s₁.cursor.enclosing = e) ∧
        Run Γ s₁ (rest.listing e (slot + 1)) s' := by
  obtain _ | @⟨_, s₁, _, _, _, step, hstep, hrun⟩ := h
  have hn : s₁.cursor = ⟨slot, e⟩ := hstep.cursor_eq.trans hstep.number_eq
  exact ⟨s₁, step, hstep, by rw [hn]; exact ⟨rfl, rfl⟩, hrun⟩

/-- A run through a sub-proof and the rest of the block. -/
theorem Run.of_listing_subproof {Γ : Setting} {assumption closing : Statement} {body rest : Block}
    {e : List Nat} {slot : Nat}
    (h : Run Γ s ((Block.subproof assumption body closing rest).listing e slot) s') :
    ∃ s₁ s₂ s₃ first last, Accepts Γ s (assumption.at ⟨1, slot :: e⟩) s₁ first ∧
      ((s₁.cursor.slot + 1 = 2 ∧ s₁.cursor.enclosing = slot :: e) ∧
        Run Γ s₁ (body.listing (slot :: e) 2) s₂) ∧
      Accepts Γ s₂ (closing.at ⟨slot, e⟩) s₃ last ∧
      (s₃.cursor.slot + 1 = slot + 1 ∧ s₃.cursor.enclosing = e) ∧
        Run Γ s₃ (rest.listing e (slot + 1)) s' := by
  obtain _ | @⟨_, s₁, _, _, _, first, hfirst, hrun⟩ := h
  obtain ⟨s₂, hbody, _ | @⟨_, s₃, _, _, _, last, hlast, hrest⟩⟩ := append_iff.1 hrun
  have hn₁ : s₁.cursor = ⟨1, slot :: e⟩ := hfirst.cursor_eq.trans hfirst.number_eq
  have hn₃ : s₃.cursor = ⟨slot, e⟩ := hlast.cursor_eq.trans hlast.number_eq
  exact ⟨s₁, s₂, s₃, first, last, hfirst, ⟨by rw [hn₁]; exact ⟨rfl, rfl⟩, hbody⟩, hlast,
    by rw [hn₃]; exact ⟨rfl, rfl⟩, hrest⟩

/-- A block leaves the checker in the same sub-proofs, with its last line as the
    last step. -/
theorem Run.after_listing {Γ : Setting} {b : Block} {e : List Nat} {slot : Nat}
    (hcursor : s.cursor.slot + 1 = slot ∧ s.cursor.enclosing = e)
    (h : Run Γ s (b.listing e slot) s') :
    s'.cursor.enclosing = e ∧ s'.assumptions = s.assumptions ∧
      ∀ t, s.last? = some t → ∃ t', s'.last? = some t' ∧ t'.formula = b.last t.formula := by
  induction b generalizing s s' e slot with
  | nil =>
    cases h
    exact ⟨hcursor.2, rfl, fun t ht => ⟨t, ht, rfl⟩⟩
  | line a rest ih =>
    obtain ⟨s₁, step, hstep, hcursor₁, hrun⟩ := h.of_listing_line
    obtain ⟨henclosing, hassumptions, hlast⟩ := ih hcursor₁ hrun
    refine ⟨henclosing, ?_, fun _ _ => ?_⟩
    · rw [hassumptions, (hstep.of_inside (Place.of_enclosing_eq hcursor.2)).2.1]
    · obtain ⟨t', ht', hformula⟩ := hlast _ hstep.last?_eq
      exact ⟨t', ht', by rw [hformula, hstep.formula_eq]; rfl⟩
  | subproof assumption body closing rest ih₁ ih₂ =>
    obtain ⟨s₁, s₂, s₃, first, step, hfirst, ⟨hcursor₁, hbody⟩, hstep, hcursor₃, hrest⟩ :=
      h.of_listing_subproof
    obtain ⟨hinside, hopen, -⟩ := ih₁ hcursor₁ hbody
    obtain ⟨henclosing, hassumptions, hlast⟩ := ih₂ hcursor₃ hrest
    refine ⟨henclosing, ?_, fun _ _ => ?_⟩
    · have hpush := (hfirst.of_opening
        (Place.of_enclosing_cons (congrArg (slot :: ·) hcursor.2.symm))).2.2.2.2
      obtain ⟨-, -, -, _, _, hpop, -⟩ := hstep.of_closing (Place.of_close hinside)
      rw [hopen, hpush] at hpop
      rw [hassumptions, (List.cons.inj hpop).2]
    · obtain ⟨t', ht', hformula⟩ := hlast _ hstep.last?_eq
      exact ⟨t', ht', by rw [hformula, hstep.formula_eq]; rfl⟩

/-- A sub-proof does not change what is visible from its slot. -/
theorem Run.find?_of_hasAccess {Γ : Setting} {ls : List Line} {e : List Nat} {slot : Nat}
    (h : Run Γ s ls s') (hls : ∀ l ∈ ls, slot :: e <:+ l.number.enclosing) {ref : LineNumber}
    (href : (⟨slot, e⟩ : LineNumber).hasAccess ref = true) :
    Step.find? s'.accepted ref = Step.find? s.accepted ref := by
  refine h.find?_eq fun l hl heq => ?_
  -- the lines of the sub-proof lie deeper than whatever is visible from its slot
  have hinner := (hls l hl).length_le
  have houter : ref.enclosing.length ≤ e.length :=
    (LineNumber.enclosing_suffix_of_hasAccess href).length_le
  rw [heq, List.length_cons] at hinner
  omega

/-- After the listing of a sub-proof, its closing line is accepted iff it states
    that the assumption implies the last line. -/
theorem accepts_closing_listing_iff {assumption closing : Statement} {body : Block}
    {visible : Visible} {e : List Nat} {slot : Nat} {s₁ s₂ : State} {first : Step}
    (hat : s.At visible e slot)
    (hfirst : Accepts ⟨c, d, .ordinary⟩ s (assumption.at ⟨1, slot :: e⟩) s₁ first)
    (hbody : Run ⟨c, d, .ordinary⟩ s₁ (body.listing (slot :: e) 2) s₂) :
    (∃ s₃ step, Accepts ⟨c, d, .ordinary⟩ s₂ (closing.at ⟨slot, e⟩) s₃ step) ↔
      closing.Declared d ∧ closing.Keyword RuleName.directProof ∧
        closing.formula = .implies assumption.formula (body.last assumption.formula) := by
  have hn : s₁.cursor = ⟨1, slot :: e⟩ := hfirst.cursor_eq.trans hfirst.number_eq
  have hpush := (hfirst.of_opening
    (Place.of_enclosing_cons (congrArg (slot :: ·) hat.cursor.2.symm))).2.2.2.2
  obtain ⟨henclosing, hopen, hlast⟩ := hbody.after_listing (by rw [hn]; exact ⟨rfl, rfl⟩)
  obtain ⟨conclusion, hconclusion, hformula⟩ := hlast first hfirst.last?_eq
  have hassumption : first.formula = assumption.formula := hfirst.formula_eq
  rw [accepts_closing_iff henclosing (hopen.trans hpush) hconclusion, hformula, hassumption]

/-- **The checker runs through the listing of a block iff the block is valid.** -/
theorem run_listing_iff {b : Block} {visible : Visible} {e : List Nat} {slot : Nat} (hs : s.Wf)
    (hbounded : s.Bounded) (hat : s.At visible e slot)
    (hlen : s.accepted.length + (b.listing e slot).length ≤ LineNumber.maxSlot) :
    (∃ s', Run ⟨c, d, .ordinary⟩ s (b.listing e slot) s') ↔ b.Valid c d visible e slot := by
  induction b generalizing s visible e slot with
  | nil => exact ⟨fun _ => trivial, fun _ => ⟨s, .nil⟩⟩
  | line a rest ih =>
    simp only [Block.listing, List.length_cons] at hlen
    have hroom : s.cursor.slot < LineNumber.maxSlot := by
      have := hbounded _ List.mem_cons_self; omega
    have hrest : ∀ {s₁ step}, Accepts ⟨c, d, .ordinary⟩ s (a.at ⟨slot, e⟩) s₁ step →
        ((∃ s', Run ⟨c, d, .ordinary⟩ s₁ (rest.listing e (slot + 1)) s') ↔
          rest.Valid c d ((⟨slot, e⟩, a.formula) :: visible) e (slot + 1)) := fun hstep =>
      ih (hs.of_accepts hstep) (hbounded.of_accepts hstep) (hat.next hstep fun _ _ => rfl)
        (by rw [hstep.accepted_eq, List.length_cons]; omega)
    constructor
    · rintro ⟨s', _ | ⟨hstep, hrun⟩⟩
      obtain ⟨hdeclared, hjustified⟩ := (accepts_line_iff hat hroom).1 ⟨_, _, hstep⟩
      exact ⟨hdeclared, hjustified, (hrest hstep).1 ⟨s', hrun⟩⟩
    · rintro ⟨hdeclared, hjustified, hvalid⟩
      obtain ⟨s₁, step, hstep⟩ := (accepts_line_iff hat hroom).2 ⟨hdeclared, hjustified⟩
      obtain ⟨s', hrun⟩ := (hrest hstep).2 hvalid
      exact ⟨s', .cons hstep hrun⟩
  | subproof assumption body closing rest ih₁ ih₂ =>
    simp only [Block.listing, List.length_cons, List.length_append] at hlen
    have hroom : s.cursor.slot < LineNumber.maxSlot := by
      have := hbounded _ List.mem_cons_self; omega
    have hbody : ∀ {s₁ first},
        Accepts ⟨c, d, .ordinary⟩ s (assumption.at ⟨1, slot :: e⟩) s₁ first →
        ((∃ s₂, Run ⟨c, d, .ordinary⟩ s₁ (body.listing (slot :: e) 2) s₂) ↔
          body.Valid c d ((⟨1, slot :: e⟩, assumption.formula) :: visible) (slot :: e) 2) :=
      fun hfirst => ih₁ (hs.of_accepts hfirst) (hbounded.of_accepts hfirst) (hat.enter hs hfirst)
        (by rw [hfirst.accepted_eq, List.length_cons]; omega)
    have hrest : ∀ {s₂ s₃ step}, Run ⟨c, d, .ordinary⟩ s
          (assumption.at ⟨1, slot :: e⟩ :: body.listing (slot :: e) 2) s₂ →
        Accepts ⟨c, d, .ordinary⟩ s₂ (closing.at ⟨slot, e⟩) s₃ step →
        ((∃ s', Run ⟨c, d, .ordinary⟩ s₃ (rest.listing e (slot + 1)) s') ↔
          rest.Valid c d ((⟨slot, e⟩, closing.formula) :: visible) e (slot + 1)) := by
      intro s₂ s₃ step hrun hstep
      refine ih₂ ((hs.of_run hrun).of_accepts hstep) ((hbounded.of_run hrun).of_accepts hstep)
        (hat.next hstep fun ref href => hrun.find?_of_hasAccess (fun l hl => ?_) href) ?_
      · rcases List.mem_cons.1 hl with rfl | hl
        · exact List.suffix_rfl
        · exact Block.enclosing_of_mem_listing hl
      · rw [hstep.accepted_eq, List.length_cons, hrun.length_accepted, List.length_cons]; omega
    constructor
    · rintro ⟨s', _ | ⟨hfirst, hrun⟩⟩
      obtain ⟨s₂, hrun, _ | ⟨hstep, hrun'⟩⟩ := Run.append_iff.1 hrun
      obtain ⟨hdeclared, hkeyword⟩ := (accepts_opening_iff hat hroom).1 ⟨_, _, hfirst⟩
      obtain ⟨hdeclared', hkeyword', hformula⟩ :=
        (accepts_closing_listing_iff hat hfirst hrun).1 ⟨_, _, hstep⟩
      exact ⟨hdeclared, hkeyword, (hbody hfirst).1 ⟨s₂, hrun⟩, hdeclared', hkeyword', hformula,
        (hrest (.cons hfirst hrun) hstep).1 ⟨s', hrun'⟩⟩
    · rintro ⟨hdeclared, hkeyword, hvalid, hdeclared', hkeyword', hformula, hvalid'⟩
      obtain ⟨s₁, first, hfirst⟩ := (accepts_opening_iff hat hroom).2 ⟨hdeclared, hkeyword⟩
      obtain ⟨s₂, hrun⟩ := (hbody hfirst).2 hvalid
      obtain ⟨s₃, step, hstep⟩ :=
        (accepts_closing_listing_iff hat hfirst hrun).2 ⟨hdeclared', hkeyword', hformula⟩
      obtain ⟨s', hrun'⟩ := (hrest (.cons hfirst hrun) hstep).2 hvalid'
      exact ⟨s', .cons hfirst (Run.append_iff.2 ⟨s₂, hrun, .cons hstep hrun'⟩)⟩

/-! ## Blocks from runs -/

/-- What the checker runs through starts with the listing of a block, up to the
    line that closes the block or to the end of the proof. -/
theorem Run.exists_block {Γ : Setting} {ls : List Line} (hs : s.Wf) (h : Run Γ s ls s')
    (hend : s'.assumptions = []) :
    ∃ (b : Block) (rest : List Line),
      ls = b.listing s.cursor.enclosing (s.cursor.slot + 1) ++ rest ∧
        ((rest = [] ∧ s.cursor.enclosing = []) ∨
          ∃ l rest', rest = l :: rest' ∧ s.cursor.enclosing = l.number.inward) := by
  -- after a sub-proof the run goes on behind the closing line, hence the induction on the length
  induction hlen : ls.length using Nat.strong_induction_on generalizing s ls with
  | _ len ih =>
    subst hlen
    cases h with
    | nil => exact ⟨.nil, [], rfl, .inl ⟨rfl, hs.enclosing_eq_nil hend⟩⟩
    | @cons _ s₁ _ l ls step hstep hrun =>
      have hs₁ := hs.of_accepts hstep
      obtain ⟨b, rest, hls, hrest⟩ := ih ls.length (Nat.lt_succ_self _) hs₁ hrun rfl
      have hcursor : s₁.cursor = l.number := hstep.cursor_eq.trans hstep.number_eq
      rw [hcursor] at hls hrest
      cases hstep with
      | inside _ hnumber =>
        obtain ⟨-, hn⟩ := LineNumber.next?_eq_some.1 hnumber
        rw [hn] at hls hrest
        refine ⟨.line ⟨l.formula, l.citation⟩ b, rest, ?_, hrest⟩
        rw [Block.listing, List.cons_append, ← hls, ← Line.eq_at hn]
      | closing _ hnumber => exact ⟨.nil, l :: ls, rfl, .inr ⟨l, ls, rfl, hnumber⟩⟩
      | opening _ hnumber =>
        obtain ⟨-, hn⟩ := LineNumber.open?_eq_some.1 hnumber
        rw [hn] at hls hrest
        obtain ⟨-, ⟨⟩⟩ | ⟨close, rest, rfl, hclose⟩ := hrest
        obtain ⟨s₂, hbody, _ | @⟨_, s₃, _, _, _, last, hlast, hrun'⟩⟩ := append_iff.1 (hls ▸ hrun)
        have hshorter : rest.length < (l :: ls).length := by
          rw [hls]; simp only [List.length_cons, List.length_append]; omega
        obtain ⟨b', rest', hls', hrest'⟩ :=
          ih rest.length hshorter ((hs₁.of_run hbody).of_accepts hlast) hrun' rfl
        have hcn : close.number = ⟨s.cursor.slot + 1, s.cursor.enclosing⟩ :=
          LineNumber.inward_injective hclose.symm
        have hcursor' : s₃.cursor = close.number := hlast.cursor_eq.trans hlast.number_eq
        rw [hcursor', hcn] at hls' hrest'
        refine ⟨.subproof ⟨l.formula, l.citation⟩ b ⟨close.formula, close.citation⟩ b', rest', ?_,
          hrest'⟩
        rw [Block.listing, List.cons_append, List.append_assoc, List.cons_append, ← hls',
          ← Line.eq_at hn, ← Line.eq_at hcn, ← hls]

end Checker.State

open Checker (State)

/-- **The checker accepts exactly the block-structured proofs**: in ordinary
    mode, a list of lines is an accepted proof iff it is the listing of a valid
    block with at least one item. -/
theorem check_ok_iff_block (c : Catalog) (d : Declarations) (ls : List Line)
    (hlen : ls.length < LineNumber.maxSlot) :
    (∃ r, (⟨.ordinary, d, ls⟩ : Proof).check c = .ok r) ↔
      ∃ b : Block, b ≠ .nil ∧ b.Valid c d [] [] 1 ∧ ls = b.listing [] 1 := by
  have hroom : State.initial.accepted.length + ls.length ≤ LineNumber.maxSlot := by
    simp only [State.initial, List.length_nil]; omega
  simp only [Proof.check_ok_iff]
  constructor
  · rintro ⟨r, s, hrun, -, hlast, hend⟩
    obtain ⟨b, rest, hls, ⟨rfl, -⟩ | ⟨l, rest', -, ⟨⟩⟩⟩ := hrun.exists_block State.Wf.initial hend
    obtain rfl : ls = b.listing [] 1 := hls.trans (List.append_nil _)
    refine ⟨b, ?_, (State.run_listing_iff .initial .initial .initial hroom).1 ⟨s, hrun⟩, rfl⟩
    rintro rfl
    cases hrun
    cases hlast
  · rintro ⟨b, hb, hvalid, rfl⟩
    obtain ⟨s, hrun⟩ := (State.run_listing_iff .initial .initial .initial hroom).2 hvalid
    obtain ⟨t, hlast⟩ := hrun.exists_last? (mt Block.listing_eq_nil.1 hb)
    exact ⟨⟨s.accepted, t⟩, s, hrun, rfl, hlast, (hrun.after_listing ⟨rfl, rfl⟩).2.1⟩

/-- From `(p ∧ q) → r`, two nested sub-proofs of `p → (q → r)`. -/
def Proof.exportation : Proof :=
  let p := .atom "p"
  let q := .atom "q"
  let r := .atom "r"
  { mode := .ordinary
    declarations := ⟨["p", "q", "r"], [.implies (.and p q) r]⟩
    lines := [
      ⟨⟨1, [1]⟩, p, ⟨"Assumption", []⟩⟩,
      ⟨⟨1, [2, 1]⟩, q, ⟨"Assumption", []⟩⟩,
      ⟨⟨2, [2, 1]⟩, .and p q, ⟨"Intro And", [⟨1, [1]⟩, ⟨1, [2, 1]⟩]⟩⟩,
      ⟨⟨3, [2, 1]⟩, .implies (.and p q) r, ⟨"Given", []⟩⟩,
      ⟨⟨4, [2, 1]⟩, r, ⟨"Modus Ponens", [⟨2, [2, 1]⟩, ⟨3, [2, 1]⟩]⟩⟩,
      ⟨⟨2, [1]⟩, .implies q r, ⟨"Direct Proof Rule", []⟩⟩,
      ⟨⟨1, []⟩, .implies p (.implies q r), ⟨"Direct Proof Rule", []⟩⟩] }

theorem Proof.check_exportation : ∃ r, Proof.exportation.check .standard = .ok r := by
  have hisOk : (Proof.exportation.check .standard).isOk = true := by decide +kernel
  cases h : Proof.exportation.check .standard with
  | error e => rw [h] at hisOk; cases hisOk
  | ok r => exact ⟨r, rfl⟩

theorem exportation_block : Proof.exportation.lines.length < LineNumber.maxSlot ∧
    (∃ r, Proof.exportation.check .standard = .ok r) ∧
      ∃ b : Block, b ≠ .nil ∧ b.Valid .standard Proof.exportation.declarations [] [] 1 ∧
        Proof.exportation.lines = b.listing [] 1 := by
  exact ⟨by decide, Proof.check_exportation,
    (check_ok_iff_block .standard _ _ (by decide)).1 Proof.check_exportation⟩

end Deduction
