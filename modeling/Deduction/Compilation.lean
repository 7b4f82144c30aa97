/-
  Compilation of a proof.

  A source text is read, checked and, unless the settings say otherwise,
  compacted.

  * `compile`: the resulting proof, or the report of the first error;
  * `journal`: the events of a compilation, in the order in which they occur;
  * `outputPath`: where the result is written.
-/
import Deduction.Checker.Basic
import Deduction.Compaction
import Deduction.Files.Path
import Deduction.Log.Event
import Deduction.Report.Basic
import Deduction.Source.Document

namespace Deduction

/-- A compiled proof. -/
structure Compilation where
  /-- The lines that are written. -/
  proof : Proof
  /-- How many lines the source had. -/
  sourceLines : Nat
  deriving DecidableEq

/-- How many lines were dropped. -/
def Compilation.pruned (c : Compilation) : Nat := c.sourceLines - c.proof.lines.length

/-- The proof of a source text, in the mode that the settings ask for. -/
def readProof (s : Settings) (source : String) : Except Source.ParseError Proof := do
  let p ← Proof.parse source
  return if s.equivalenceOnly then { p with mode := .equivalence } else p

/-- The lines of a checked proof that are written. -/
def Checked.output (c : Checked) (p : Proof) (s : Settings) : Except CompactionError (List Line) :=
  if s.optimize then compact c.steps c.conclusion.number else .ok p.lines

/-- Reads, checks and compacts a proof. -/
def compile (catalog : Catalog) (s : Settings) (source : String) : Except Report Compilation := do
  let p ← (readProof s source).mapError Report.ofParseError
  let c ← (p.check catalog).mapError Report.ofCheckError
  let lines ← (c.output p s).mapError Report.ofCompactionError
  return ⟨{ p with lines }, p.lines.length⟩

/-! ## Events -/

/-- The event of an accepted step. -/
def Step.event (s : Step) : Event where
  severity := .trace
  component := .checker
  message := "accepted line " ++ s.number.text ++ " [" ++ s.rule ++ "]"

/-- The events of the compaction of a checked proof. -/
def Checked.journal (c : Checked) (p : Proof) (s : Settings) : List Event :=
  if s.optimize then
    let vertices := (Compaction.graph c.steps c.conclusion.number).vertices.size
    let scheduling : Event :=
      ⟨.debug, .optimizer, "scheduling proof steps", [("vertices", vertices)]⟩
    match c.output p s with
    | .ok lines =>
      let pruned := p.lines.length - lines.length
      [scheduling, ⟨.debug, .compiler, "optimized proof", [("pruned", pruned)]⟩]
    | .error _ => [scheduling]
  else []

/-- The events of a compilation. -/
def journal (catalog : Catalog) (s : Settings) (source : String) : List Event :=
  match readProof s source with
  | .error _ => []
  | .ok p =>
    let (state, result) := p.run catalog
    state.accepted.reverse.map Step.event ++
    match result with
    | .error _ => []
    | .ok conclusion =>
      let φ := conclusion.formula.text
      [⟨.debug, .checker, "proof checked, concluding " ++ φ, [("lines", p.lines.length)]⟩,
        ⟨.debug, .compiler, "conclusion: " ++ conclusion.number.text ++ " " ++ φ, []⟩] ++
      Checked.journal ⟨state.accepted, conclusion⟩ p s

/-! ## Output files -/

/-- The name of the output file for an input: the name of the input with the
    extension of the format.  An input without a name counts as `proof`. -/
def outputName (input : String) (format : OutputFormat) : String :=
  let stem := ((Path.fileName? input).map Path.stem).getD "proof"
  Path.withExtension stem format.extension

/-- The output file for an input: in the directory of the settings, or else
    beside the input. -/
def outputPath (s : Settings) (input : String) (format : OutputFormat) : String :=
  match s.directory with
  | some d => Path.join d (outputName input format)
  | none => Path.withFileName input (outputName input format)

end Deduction
