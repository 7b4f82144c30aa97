/-
  Why a text is not a proof.
-/
import Deduction.Text.Scanner

namespace Deduction.Source

/-- What was expected at the place where reading stopped. -/
inductive Complaint where
  /-- A formula has too many negations and parentheses around an atom. -/
  | tooDeep
  /-- A text that should be one formula is not. -/
  | formula
  /-- Neither a declaration nor a header. -/
  | declarationOrHeader
  /-- A declaration of an atom went wrong. -/
  | letDeclaration
  /-- A declaration of a given formula went wrong. -/
  | givenDeclaration
  /-- A line does not start with its number. -/
  | lineNumber
  /-- A line has no formula. -/
  | lineFormula
  /-- Two arrows follow each other without parentheses. -/
  | chainedArrows
  /-- A line has no citation of a rule. -/
  | citation
  /-- A line goes on after the citation. -/
  | trailingText
  deriving DecidableEq

/-- The wording of a complaint. -/
def Complaint.message : Complaint → String
  | tooDeep => "proposition is nested too deeply"
  | formula => "invalid proposition"
  | declarationOrHeader => "expected a declaration or a 'proof.' / 'equivalence.' header"
  | letDeclaration => "expected 'Let <name> be a proposition'"
  | givenDeclaration => "expected 'Given <proposition>'"
  | lineNumber => "expected a line number such as '1.' or '2.1.'"
  | lineFormula => "expected a proposition"
  | chainedArrows => "'→' and '↔' do not chain; add parentheses"
  | citation => "expected a rule reference such as '[Intro And: 1, 2]'"
  | trailingText => "unexpected input after the rule reference"

/-- Why a text could not be read. -/
inductive ParseError where
  /-- The text goes wrong at a line and a column, both counted from one. -/
  | malformed (line column : Nat) (complaint : Complaint)
  /-- The text ends before the header that starts the lines of the proof. -/
  | missingHeader
  deriving DecidableEq

/-- The wording of a parse error. -/
def ParseError.message : ParseError → String
  | malformed line column complaint =>
    "syntax error at line " ++ toString line ++ ", column " ++ toString column ++ ": " ++
      complaint.message
  | missingHeader => "unexpected end of input: missing 'proof.' or 'equivalence.' header"

/-- The column, counted in characters from one, at which `rest` begins in
    `text`. -/
def column (text rest : List Char) : Nat := text.length - rest.length + 1

/-- What is wrong with a text, and the rest of it from where it goes wrong. -/
structure Flaw where
  rest : List Char
  complaint : Complaint
  deriving DecidableEq

/-- The flaw of a text at which a scanner stopped.  The nesting limit has a
    complaint of its own. -/
def Flaw.ofStop (complaint : Complaint) (s : Text.Stop) : Flaw where
  rest := s.rest
  complaint :=
    match s.kind with
    | .mismatch => complaint
    | .tooDeep => .tooDeep

/-- The parse error for a flaw of the text of a line. -/
def ParseError.at (line : Nat) (text : List Char) (f : Flaw) : ParseError :=
  .malformed line (column text f.rest) f.complaint

/-- The parse error for a scanner that stopped. -/
def ParseError.ofStop (line : Nat) (text : List Char) (complaint : Complaint) (s : Text.Stop) :
    ParseError :=
  .at line text (.ofStop complaint s)

end Deduction.Source
