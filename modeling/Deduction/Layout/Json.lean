/-
  The JSON form of a proof, for a front end that sets formulas in math mode.

  A line is an object with its number, formula and citation, the last two in
  LaTeX; a sub-proof is an object that holds its entries.
-/
import Deduction.Json.Basic
import Deduction.Layout.Latex

namespace Deduction.Layout

/-- The object of a line. -/
def lineJson (l : Line) : Json :=
  .object [("number", .string l.number.text), ("prop", .string l.formula.latex),
    ("rule", .string (Latex.citation l.citation))]

mutual

/-- The object of an entry. -/
def entryJson : Outline.Entry → Json
  | .line l => lineJson l
  | .subproof es => .object [("subproof", .array (entriesJson es))]

/-- The objects of a list of entries. -/
def entriesJson : List Outline.Entry → List Json
  | [] => []
  | e :: es => entryJson e :: entriesJson es

end

/-- The JSON form of a proof. -/
def json (p : Proof) : String := (Json.array (entriesJson (outline p.lines))).pretty

end Deduction.Layout
