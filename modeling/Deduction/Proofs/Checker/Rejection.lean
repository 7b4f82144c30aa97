/-
  What a rejected line leaves behind.

  `feed` looks at a line in turns: its atoms, its number, its references, and
  what its place asks for.  Between these it changes the state twice: with the
  right number the cursor moves to the line, and a closing line takes the
  innermost assumption before its formula is looked at.  So what a rejected line
  leaves behind depends on where it was stopped.

  * `Fault.isEarly`: the faults that are found before the cursor moves;
  * `Takes`: the lines that come as far as to take an assumption;
  * `Refuses`: the exits of `feed` with an error, sorted by what they leave
    behind, and `refuses_of_feed`: there are no others;
  * `feed_error_effect`: the state after a rejected line.
-/
import Deduction.Proofs.Checker.Blocks
import Deduction.Proofs.Checker.Feeding

namespace Deduction

/-- Whether the fault is found before the cursor moves: in the atoms of the line
    or in its number. -/
def Fault.isEarly : Fault → Bool
  | .format (.undefinedAtom _) | .format (.wrongNumber _) | .format .numbersExhausted => true
  | _ => false

namespace Place

variable {cursor n : LineNumber}

theorem of_eq_closing : of cursor n = closing ↔ n.levels < cursor.levels := by
  unfold of
  split
  · simp [*]
  · split <;> simp [*]

/-- The line that closes the sub-proof of the cursor is one level shallower. -/
theorem closes_iff : of cursor n = closing ∧ closing.expected? cursor = some n ↔
    n.levels + 1 = cursor.levels ∧ n = cursor.close := by
  rw [of_eq_closing, expected?, Option.some.injEq, eq_comm (a := cursor.close)]
  constructor
  · rintro ⟨hlt, hn⟩
    refine ⟨?_, hn⟩
    have henclosing := enclosing_eq_of_closing (of_eq_closing.2 hlt) hn.symm
    rw [LineNumber.levels, LineNumber.levels, henclosing, LineNumber.inward, List.length_cons]
  · rintro ⟨hlevels, hn⟩
    exact ⟨by omega, hn⟩

end Place

namespace Checker.State

variable {Γ : Setting} {s s' : State} {l : Line} {cited : List Step} {e : CheckError}

/-! ## Taking an assumption -/

/-- The line comes as far as to take the innermost assumption: it is the line
    that closes the sub-proof of the cursor, by its number and by its rule, it
    mentions no other atoms and cites no other lines than it may, and there is an
    assumption to take. -/
structure Takes (Γ : Setting) (s : State) (l : Line) : Prop where
  atoms : ∀ name, .atom name ∈ l.formula.vars → name ∈ Γ.declarations.atoms
  shallower : l.number.levels + 1 = s.cursor.levels
  number : l.number = s.cursor.close
  refs : ∀ ref ∈ l.citation.refs,
    (∃ t, Step.find? s.accepted ref = some t) ∧ l.number.hasAccess ref = true
  rule : l.citation.ruleKey = RuleName.directProof
  mode : Γ.mode = .ordinary
  opened : s.assumptions ≠ []

theorem exists_cites_iff {n : LineNumber} {refs : List LineNumber} :
    (∃ cited, s.Cites n refs cited) ↔ ∀ ref ∈ refs,
      (∃ t, Step.find? s.accepted ref = some t) ∧ n.hasAccess ref = true := by
  induction refs with
  | nil => exact ⟨fun _ => List.forall_mem_nil _, fun _ => ⟨[], .nil⟩⟩
  | cons ref refs ih =>
    rw [List.forall_mem_cons, ← ih]
    constructor
    · rintro ⟨_, _ | ⟨⟨hfind, haccess⟩, hcited⟩⟩
      exact ⟨⟨⟨_, hfind⟩, haccess⟩, _, hcited⟩
    · rintro ⟨⟨⟨t, hfind⟩, haccess⟩, cited, hcited⟩
      exact ⟨t :: cited, .cons ⟨hfind, haccess⟩ hcited⟩

namespace Takes

theorem undeclared (h : s.Takes Γ l) :
    l.formula.findUndeclared Γ.declarations.isDeclared = none :=
  Formula.findUndeclared_eq_none.2 h.atoms

theorem closing (h : s.Takes Γ l) :
    Place.of s.cursor l.number = .closing ∧ s.checkNumber l = .ok l.number := by
  obtain ⟨hplace, hexpected⟩ := Place.closes_iff.2 ⟨h.shallower, h.number⟩
  exact ⟨hplace, checkNumber_eq_ok.2 ⟨by rw [hplace]; exact hexpected, rfl⟩⟩

end Takes

/-- A line takes an assumption if it passes all that `feed` looks at before. -/
theorem takes_of_passed (hatoms : l.formula.findUndeclared Γ.declarations.isDeclared = none)
    (hplace : Place.of s.cursor l.number = .closing) (hnumber : s.checkNumber l = .ok l.number)
    (hcited : s.Cites l.number l.citation.refs cited) (hmode : Γ.mode ≠ .equivalence)
    (hrule : l.citation.ruleKey = RuleName.directProof) (hopened : s.assumptions ≠ []) :
    s.Takes Γ l := by
  have hexpected := (checkNumber_eq_ok.1 hnumber).1
  rw [hplace] at hexpected
  obtain ⟨hshallower, hclose⟩ := Place.closes_iff.1 ⟨hplace, hexpected⟩
  refine ⟨Formula.findUndeclared_eq_none.1 hatoms, hshallower, hclose,
    exists_cites_iff.1 ⟨cited, hcited⟩, hrule, ?_, hopened⟩
  cases hm : Γ.mode with
  | ordinary => rfl
  | equivalence => exact absurd hm hmode

/-! ## The exits of `feed` -/

/-- How a line is rejected: what is left behind, and with what error. -/
inductive Refuses (Γ : Setting) (s : State) (l : Line) : State → CheckError → Prop
  /-- For its atoms or its number, which leaves no trace. -/
  | untouched {e : CheckError} (hearly : e.fault.isEarly = true) (hkept : ¬ s.Takes Γ l) :
      Refuses Γ s l s e
  /-- For its references or what its place asks for. -/
  | moved {e : CheckError} (hearly : e.fault.isEarly = false) (hkept : ¬ s.Takes Γ l) :
      Refuses Γ s l { s with cursor := l.number } e
  /-- As a closing line that cites lines or states another formula. -/
  | taken {e : CheckError} {a : Step} {outer : List Step} (hearly : e.fault.isEarly = false)
      (htakes : s.Takes Γ l) (ha : s.assumptions = a :: outer) :
      Refuses Γ s l ⟨l.number, s.accepted, outer⟩ e

theorem isEarly_of_checkNumber {f : FormatFault} (h : s.checkNumber l = .error f) :
    (l.formatError f).fault.isEarly = true := by
  unfold checkNumber at h
  split at h
  · cases h; rfl
  · split at h
    · cases h
    · cases h; rfl

theorem isEarly_of_cite {n ref : LineNumber} {f : FormatFault} (h : s.cite n ref = .error f) :
    (l.formatError f).fault.isEarly = false := by
  unfold cite at h
  split at h
  · cases h; rfl
  · split at h
    · cases h
    · cases h; rfl

theorem isEarly_of_justify (h : justify Γ l cited = .error e) : e.fault.isEarly = false := by
  unfold justify at h
  split at h
  · split at h
    · cases h; rfl
    · split at h
      · cases h
      · cases h; rfl
  · split at h
    · cases h; rfl
    · split at h
      · cases h; rfl
      · split at h
        · cases h; rfl
        · cases h

theorem isEarly_of_openSubproof (h : (s.openSubproof Γ l cited).2 = .error e) :
    e.fault.isEarly = false := by
  unfold openSubproof at h
  split at h
  · cases h; rfl
  split at h
  · cases h; rfl
  split at h
  · cases h; rfl
  · cases h

theorem isEarly_of_extend (h : (s.extend Γ l cited).2 = .error e) : e.fault.isEarly = false := by
  unfold extend at h
  split at h
  · cases h; exact isEarly_of_justify ‹_›
  · cases h

/-- A closing line without the right mode, rule or assumption takes nothing. -/
theorem closeSubproof_kept (h : s.closeSubproof Γ l cited = (s', .error e))
    (hkept : Γ.mode = .equivalence ∨ l.citation.ruleKey ≠ RuleName.directProof ∨
      s.assumptions = []) : s' = s ∧ e.fault.isEarly = false := by
  unfold closeSubproof at h
  split at h
  · cases h; exact ⟨rfl, rfl⟩
  rename_i hmode
  split at h
  · cases h; exact ⟨rfl, rfl⟩
  rename_i hrule
  split at h
  · cases h; exact ⟨rfl, rfl⟩
  rename_i a outer ha
  rcases hkept with hmode' | hrule' | hempty
  · exact absurd hmode' hmode
  · exact absurd hrule' hrule
  · rw [ha] at hempty; cases hempty

/-- A closing line takes the innermost assumption before anything else is looked
    at. -/
theorem closeSubproof_taken {a : Step} {outer : List Step}
    (h : s.closeSubproof Γ l cited = (s', .error e)) (hmode : Γ.mode ≠ .equivalence)
    (hrule : l.citation.ruleKey = RuleName.directProof) (ha : s.assumptions = a :: outer) :
    s' = { s with assumptions := outer } ∧ e.fault.isEarly = false := by
  rw [closeSubproof, if_neg hmode, if_neg (not_not.2 hrule), ha] at h
  simp only at h
  split at h
  · cases h; exact ⟨rfl, rfl⟩
  split at h
  · cases h; exact ⟨rfl, rfl⟩
  split at h
  · cases h
  · cases h; exact ⟨rfl, rfl⟩

/-- **A line is rejected in one of the three ways.** -/
theorem refuses_of_feed (h : s.feed Γ l = (s', .error e)) : Refuses Γ s l s' e := by
  unfold feed at h
  split at h
  · rename_i name hname
    cases h
    exact .untouched rfl fun htakes => by rw [htakes.undeclared] at hname; cases hname
  rename_i hatoms
  split at h
  · rename_i f hf
    cases h
    exact .untouched (isEarly_of_checkNumber hf) fun htakes => by
      rw [htakes.closing.2] at hf; cases hf
  rename_i n hn
  obtain ⟨-, rfl⟩ := checkNumber_eq_ok.1 hn
  simp only at h
  split at h
  · rename_i f hf
    cases h
    obtain ⟨ref, -, href⟩ := of_mapM_eq_error hf
    refine .moved (isEarly_of_cite href) fun htakes => ?_
    obtain ⟨cited, hcited⟩ := exists_cites_iff.2 htakes.refs
    have hok : l.citation.refs.mapM (({ s with cursor := l.number } : State).cite l.number) =
        .ok cited := mapM_cite_eq_ok.2 hcited
    rw [hok] at hf; cases hf
  rename_i cited hcited
  have hcited : s.Cites l.number l.citation.refs cited := mapM_cite_eq_ok.1 hcited
  cases hplace : Place.of s.cursor l.number with
  | opening =>
    rw [hplace] at h
    obtain rfl := openSubproof_error h
    exact .moved (isEarly_of_openSubproof (congrArg Prod.snd h)) fun htakes => by
      rw [htakes.closing.1] at hplace; cases hplace
  | inside =>
    rw [hplace] at h
    obtain rfl := extend_error h
    exact .moved (isEarly_of_extend (congrArg Prod.snd h)) fun htakes => by
      rw [htakes.closing.1] at hplace; cases hplace
  | closing =>
    rw [hplace] at h
    by_cases hkept : Γ.mode = .equivalence ∨ l.citation.ruleKey ≠ RuleName.directProof ∨
        s.assumptions = []
    · obtain ⟨rfl, hlate⟩ := closeSubproof_kept h hkept
      refine .moved hlate fun htakes => ?_
      rcases hkept with hmode | hrule | hempty
      · rw [htakes.mode] at hmode; cases hmode
      · exact hrule htakes.rule
      · exact htakes.opened hempty
    · obtain ⟨hmode, hrule, hopened⟩ : Γ.mode ≠ .equivalence ∧
          l.citation.ruleKey = RuleName.directProof ∧ s.assumptions ≠ [] := by
        simpa only [not_or, not_not] using hkept
      obtain ⟨a, outer, ha⟩ := List.exists_cons_of_ne_nil hopened
      obtain ⟨rfl, hlate⟩ := closeSubproof_taken h hmode hrule ha
      exact .taken hlate (takes_of_passed hatoms hplace hn hcited hmode hrule hopened) ha

/-- **The state after a rejected line**, in whatever state the checker was.  The
    accepted steps stay as they are, and so does the last one.  The cursor moves to
    the line unless the fault is in its atoms or in its number.  Of the assumptions
    only the innermost one can go, and it goes iff the line comes as far as to take
    it. -/
theorem feed_error_effect {Γ : Setting} {s s' : State} {l : Line} {e : CheckError}
    (h : s.feed Γ l = (s', .error e)) :
    s'.accepted = s.accepted ∧ s'.last? = s.last? ∧
      s'.cursor = (if e.fault.isEarly then s.cursor else l.number) ∧
      (s.Takes Γ l → ∃ a, s.assumptions = a :: s'.assumptions) ∧
      (¬ s.Takes Γ l → s'.assumptions = s.assumptions) := by
  cases refuses_of_feed h with
  | untouched hearly hkept =>
    exact ⟨rfl, rfl, by rw [hearly]; rfl, fun htakes => absurd htakes hkept, fun _ => rfl⟩
  | moved hearly hkept =>
    exact ⟨rfl, rfl, by rw [hearly]; rfl, fun htakes => absurd htakes hkept, fun _ => rfl⟩
  | @taken _ a outer hearly htakes ha =>
    exact ⟨rfl, rfl, by rw [hearly]; rfl, fun _ => ⟨a, ha⟩, fun hkept => absurd htakes hkept⟩

/-- After the first three lines of `astray` the cursor is in a sub-proof that was
    never opened.  The line that would close it states the wrong formula, and the
    assumption that it takes is that of the sub-proof around. -/
theorem feed_error_effect_astray :
    let Γ : Setting := ⟨.standard, ⟨["p", "q"], [.atom "p"]⟩, .ordinary⟩
    let l : Line := ⟨⟨2, [2]⟩, .implies (.atom "q") (.atom "p"), ⟨"Direct Proof Rule", []⟩⟩
    let s := (State.initial.feedEach Γ (astray.take 3)).1
    ∃ s', s.feed Γ l = (s', .error (l.ruleError .directProof)) ∧ s.Takes Γ l ∧
      s'.accepted = s.accepted ∧ s'.last? = s.last? ∧ s.cursor = ⟨1, [2, 2]⟩ ∧
      s'.cursor = ⟨2, [2]⟩ ∧ s.assumptions.map (·.number) = [⟨1, [2]⟩] ∧ s'.assumptions = [] := by
  intro Γ l s
  have hcursor : s.cursor = ⟨1, [2, 2]⟩ := by decide +kernel
  have hstack : s.assumptions.map (·.number) = [⟨1, [2]⟩] := by decide +kernel
  have hanswer : (s.feed Γ l).2 = .error (l.ruleError .directProof) := by decide +kernel
  have hfeed : s.feed Γ l = ((s.feed Γ l).1, .error (l.ruleError .directProof)) :=
    Prod.ext rfl hanswer
  have htakes : s.Takes Γ l :=
    { atoms := by simp [l, Γ, Formula.implies, Formula.vars]
      shallower := by rw [hcursor]; rfl
      number := by rw [hcursor]; rfl
      refs := List.forall_mem_nil _
      rule := by decide +kernel
      mode := rfl
      opened := fun hempty => by rw [hempty] at hstack; cases hstack }
  obtain ⟨haccepted, hlast, hmoved, htaken, -⟩ := feed_error_effect hfeed
  obtain ⟨a, ha⟩ := htaken htakes
  have hlength := congrArg List.length hstack
  rw [List.length_map, ha] at hlength
  have hempty : (s.feed Γ l).1.assumptions = [] :=
    List.length_eq_zero_iff.1 (Nat.succ.inj hlength)
  exact ⟨_, hfeed, htakes, haccepted, hlast, hcursor, hmoved, hstack, hempty⟩

end Checker.State

end Deduction
