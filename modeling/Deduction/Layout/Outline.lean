/-
  The nesting of sub-proofs.

  An outline lists the lines of a proof with every sub-proof gathered in one
  entry, which stands right before the line that closes it.  The nesting is
  read off the cited rules alone, so that an outline exists for any list of
  lines.
-/
import Deduction.Line

namespace Deduction

/-- How a line affects the nesting of sub-proofs. -/
inductive Boundary where
  | opens
  | closes
  | inside
  deriving DecidableEq

/-- An assumption opens a sub-proof, and the direct proof rule closes one. -/
def Line.boundary (l : Line) : Boundary :=
  if l.citation.ruleKey = RuleName.assumption then .opens
  else if l.citation.ruleKey = RuleName.directProof then .closes
  else .inside

namespace Outline

/-- An entry of an outline. -/
inductive Entry where
  | line (l : Line)
  | subproof (entries : List Entry)

/-- The outline of what has been read: the entries of the current block and,
    innermost first, those of the blocks around it. -/
structure State where
  current : List Entry
  outer : List (List Entry)

/-- Adds a line.  A line that opens a sub-proof starts a block; one that closes
    a sub-proof first ends the current block, if there is one around it. -/
def State.add (s : State) (l : Line) : State :=
  match l.boundary, s.outer with
  | .opens, outer => ⟨[.line l], s.current :: outer⟩
  | .closes, parent :: outer => ⟨parent ++ [.subproof s.current, .line l], outer⟩
  | _, outer => ⟨s.current ++ [.line l], outer⟩

end Outline

/-- The outline of a list of lines; only the innermost block that is still open
    at the end is listed. -/
def outline (ls : List Line) : List Outline.Entry :=
  (ls.foldl Outline.State.add ⟨[], []⟩).current

end Deduction
