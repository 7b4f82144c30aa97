/-
  Checking proofs line by line.

  The checker holds the number of the line it has come to (the cursor), the
  steps it has accepted and the assumptions that are open.  The number of the
  next line tells what it has to be: on the level of the cursor an ordinary
  line, on a deeper level the assumption of a new sub-proof, on a shallower one
  the line that closes the current sub-proof.

  A rejected line may leave a trace: the cursor stays on a line whose number
  was right, and an assumption that a closing line has taken is gone.  So
  `State.feed` returns the new state in either case.

  * `State.feed`: one line;
  * `State.finish`: the end of a proof, whose conclusion is the last step;
  * `Proof.check`: all lines and the end.
-/
import Deduction.Checker.Error
import Deduction.Proof
import Deduction.Rule.Catalog
import Deduction.Step

namespace Deduction

/-- What a proof is checked against. -/
structure Setting where
  catalog : Catalog
  declarations : Declarations
  mode : Mode

/-- What a line has to be at its place. -/
inductive Place where
  /-- The assumption that opens a sub-proof. -/
  | opening
  /-- A line in the current block. -/
  | inside
  /-- The line that closes the current sub-proof. -/
  | closing
  deriving DecidableEq

namespace Place

/-- The place of the line `n` after the line `cursor`, judged by their
    levels. -/
def of (cursor n : LineNumber) : Place :=
  if n.levels < cursor.levels then closing
  else if cursor.levels < n.levels then opening
  else inside

/-- The only number that a line at this place may have. -/
def expected? (cursor : LineNumber) : Place → Option LineNumber
  | opening => cursor.open?
  | inside => cursor.next?
  | closing => some cursor.close

end Place

namespace Checker

/-- The state of the checker. -/
structure State where
  /-- The number of the line that the checker has come to. -/
  cursor : LineNumber
  /-- The accepted steps, latest first. -/
  accepted : List Step
  /-- The open assumptions, innermost first. -/
  assumptions : List Step
  deriving DecidableEq

/-- The state before the first line. -/
def State.initial : State := ⟨.zero, [], []⟩

namespace State

/-- The last accepted step. -/
def last? (s : State) : Option Step := s.accepted.head?

/-- Records an accepted step. -/
def accept (s : State) (step : Step) : State := { s with accepted := step :: s.accepted }

/-- The number that the line has to have at its place, provided that it has
    it. -/
def checkNumber (s : State) (l : Line) : Except FormatFault LineNumber :=
  match (Place.of s.cursor l.number).expected? s.cursor with
  | none => .error .numbersExhausted
  | some expected => if l.number = expected then .ok expected else .error (.wrongNumber expected)

/-- The step that the line `n` cites as `ref`. -/
def cite (s : State) (n ref : LineNumber) : Except FormatFault Step :=
  match Step.find? s.accepted ref with
  | none => .error (.missingReference ref)
  | some step => if n.hasAccess ref then .ok step else .error (.inaccessibleReference ref)

/-- An assumption cites nothing and is open from here on. -/
def openSubproof (Γ : Setting) (s : State) (l : Line) (cited : List Step) :
    State × Except CheckError Step :=
  if Γ.mode = .equivalence then (s, .error (l.formatError .subproofInEquivalence))
  else if l.citation.ruleKey ≠ RuleName.assumption then (s, .error (l.formatError .missingAssumption))
  else
    match RuleFault.expectCount 0 cited.length with
    | .error f => (s, .error (l.ruleError f))
    | .ok () =>
      let step := ⟨l.number, l.formula, .assumption, RuleName.assumption, []⟩
      ({ s.accept step with assumptions := step :: s.assumptions }, .ok step)

/-- A closing line takes the innermost assumption; it cites nothing and states
    that the assumption implies the last step. -/
def closeSubproof (Γ : Setting) (s : State) (l : Line) (cited : List Step) :
    State × Except CheckError Step :=
  if Γ.mode = .equivalence then (s, .error (l.formatError .subproofInEquivalence))
  else if l.citation.ruleKey ≠ RuleName.directProof then
    (s, .error (l.formatError .missingDirectProof))
  else
    match s.assumptions with
    | [] => (s, .error (l.formatError .missingAssumption))
    | assumption :: outer =>
      let s := { s with assumptions := outer }
      match s.last? with
      | none => (s, .error (l.formatError .missingAssumption))
      | some conclusion =>
        match RuleFault.expectCount 0 cited.length with
        | .error f => (s, .error (l.ruleError f))
        | .ok () =>
          if l.formula = .implies assumption.formula conclusion.formula then
            let step := ⟨l.number, l.formula, .directProof, RuleName.directProof,
              [assumption.number, conclusion.number]⟩
            (s.accept step, .ok step)
          else (s, .error (l.ruleError .directProof))

/-- Why an ordinary line holds: it is given, or a rule of the catalog leads to
    it from the cited steps. -/
def justify (Γ : Setting) (l : Line) (cited : List Step) : Except CheckError StepKind :=
  if l.citation.ruleKey = RuleName.given then
    match RuleFault.expectCount 0 cited.length with
    | .error f => .error (l.ruleError f)
    | .ok () => if Γ.declarations.isGiven l.formula then .ok .given else .error (l.ruleError .notGiven)
  else
    match Γ.catalog.get? l.citation.ruleKey with
    | none => .error (l.formatError (.unknownRule l.citation.rule))
    | some rule =>
      if Γ.mode = .equivalence && !rule.isEquivalence then
        .error (l.formatError (.notAnEquivalenceRule l.citation.rule))
      else
        match rule.justify (cited.map (·.formula)) l.formula with
        | .error f => .error (l.ruleError f)
        | .ok () => .ok (if rule.isEquivalence then .equivalence else .inference)

/-- An ordinary line extends the current block. -/
def extend (Γ : Setting) (s : State) (l : Line) (cited : List Step) :
    State × Except CheckError Step :=
  match justify Γ l cited with
  | .error e => (s, .error e)
  | .ok kind =>
    let step := ⟨l.number, l.formula, kind, l.citation.ruleKey, cited.map (·.number)⟩
    (s.accept step, .ok step)

/-- Checks one line: its atoms, its number, its references, and what its place
    asks for. -/
def feed (Γ : Setting) (s : State) (l : Line) : State × Except CheckError Step :=
  match l.formula.findUndeclared Γ.declarations.isDeclared with
  | some name => (s, .error (l.formatError (.undefinedAtom name)))
  | none =>
    match s.checkNumber l with
    | .error f => (s, .error (l.formatError f))
    | .ok number =>
      let place := Place.of s.cursor l.number
      let s := { s with cursor := number }
      match l.citation.refs.mapM (s.cite l.number) with
      | .error f => (s, .error (l.formatError f))
      | .ok cited =>
        match place with
        | .opening => s.openSubproof Γ l cited
        | .inside => s.extend Γ l cited
        | .closing => s.closeSubproof Γ l cited

/-- The conclusion of a proof that ends here. -/
def finish (s : State) : Except CheckError Step :=
  match s.last? with
  | none => .error ⟨.zero, .verum, .format .emptyProof⟩
  | some step =>
    if s.assumptions.isEmpty then .ok step
    else .error ⟨step.number, step.formula, .format .unclosedSubproof⟩

/-- Feeds lines up to the first rejected one. -/
def feedAll (Γ : Setting) (s : State) : List Line → State × Except CheckError Unit
  | [] => (s, .ok ())
  | l :: ls =>
    match s.feed Γ l with
    | (s, .error e) => (s, .error e)
    | (s, .ok _) => s.feedAll Γ ls

end State

end Checker

/-- The setting in which a proof is checked. -/
def Proof.setting (p : Proof) (catalog : Catalog) : Setting := ⟨catalog, p.declarations, p.mode⟩

/-- Checks a proof from the first line on.  The state tells how far the check
    came; a result is the conclusion. -/
def Proof.run (p : Proof) (catalog : Catalog) : Checker.State × Except CheckError Step :=
  match Checker.State.initial.feedAll (p.setting catalog) p.lines with
  | (s, .error e) => (s, .error e)
  | (s, .ok ()) => (s, s.finish)

/-- A checked proof: its steps, latest first, and its conclusion. -/
structure Checked where
  steps : List Step
  conclusion : Step
  deriving DecidableEq

/-- Checks a proof. -/
def Proof.check (p : Proof) (catalog : Catalog) : Except CheckError Checked :=
  match p.run catalog with
  | (s, .ok conclusion) => .ok ⟨s.accepted, conclusion⟩
  | (_, .error e) => .error e

end Deduction
