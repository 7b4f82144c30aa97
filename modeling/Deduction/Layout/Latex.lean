/-
  The LaTeX form of a proof.

  An ordinary proof is a `proof` environment with a table of three columns.
  Every sub-proof is a table of its own inside a cell that spans the columns; it
  begins with the assumption and ends right before the closing line.  An
  equivalence proof is a single chain of equivalences.

  The layout is a list of pieces, which `write` sets line by line, indented by
  the number of environments that are open.
-/
import Deduction.Layout.Outline
import Deduction.Proof

namespace Deduction.Layout.Latex

/-! ## Pieces -/

/-- A piece of a layout. -/
inductive Piece where
  /-- Text that fits in the current line. -/
  | text (s : String)
  /-- The beginning of an environment, with its column specification. -/
  | enter (environment : String) (columns : Option String)
  /-- The end of an environment. -/
  | leave (environment : String)
  /-- The end of a line. -/
  | newLine
  deriving DecidableEq

/-- `\begin{environment}{columns}` -/
def beginText (environment : String) : Option String → String
  | none => "\\begin\x7b" ++ environment ++ "\x7d"
  | some columns => "\\begin\x7b" ++ environment ++ "\x7d\x7b" ++ columns ++ "\x7d"

/-- `\end{environment}` -/
def endText (environment : String) : String := "\\end\x7b" ++ environment ++ "\x7d"

/-- What stands before a piece of text: a space inside a line, and four spaces
    per level at its beginning. -/
def lead (indent : Nat) (midLine : Bool) : String :=
  if midLine then " " else String.ofList (List.replicate (4 * indent) ' ')

/-- The strings that the pieces write, at the given indentation and either
    inside a line or at its beginning. -/
def strings (indent : Nat) (midLine : Bool) : List Piece → List String
  | [] => []
  | .text s :: ps => lead indent midLine :: s :: strings indent true ps
  | .enter e columns :: ps =>
    lead indent midLine :: beginText e columns :: strings (indent + 1) true ps
  | .leave e :: ps => lead (indent - 1) midLine :: endText e :: strings (indent - 1) true ps
  | .newLine :: ps => "\n" :: strings indent false ps

/-- Sets a list of pieces from the left margin on. -/
def write (ps : List Piece) : String := String.join (strings 0 false ps)

/-! ## Rules -/

/-- The printed name of a rule, with its connective in math mode if it names
    one. -/
def ruleName (name : String) : String :=
  let key := RuleName.normalize name
  if key = "intro and" then "Intro \\(\\land\\)"
  else if key = "intro or" then "Intro \\(\\lor\\)"
  else if key = "elim and" then "Elim \\(\\land\\)"
  else if key = "elim or" then "Elim \\(\\lor\\)"
  else if key = "definition of xor" then "Definition of \\(\\oplus\\)"
  else if key = "definition of biconditional" then "Definition of \\(\\leftrightarrow\\)"
  else RuleName.titleCase key

/-- The printed form of a citation. -/
def citation (c : Citation) : String := { c with rule := ruleName c.rule }.text

/-! ## Ordinary proofs -/

/-- What a line that opens or closes a sub-proof puts before itself. -/
def boundaryPieces : Boundary → List Piece
  | .opens =>
    [.text "\\multicolumn\x7b3\x7d\x7bl\x7d\x7b\\quad", .enter "tabular" (some "rll"), .newLine]
  | .closes => [.leave "tabular", .text "\x7d \\\\", .newLine]
  | .inside => []

/-- The row of a line: its number, its formula and its citation. -/
def row (l : Line) : String :=
  l.number.text ++ ". & \\( " ++ l.formula.latex ++ " \\) & [ " ++ citation l.citation ++ " ] \\\\"

/-- The pieces of a line. -/
def linePieces (l : Line) : List Piece := boundaryPieces l.boundary ++ [.text (row l), .newLine]

/-- The pieces of an ordinary proof. -/
def proofPieces (ls : List Line) : List Piece :=
  [.enter "proof" none, .text "\\hfill\\par", .newLine, .enter "tabular" (some "rll"), .newLine] ++
    ls.flatMap linePieces ++
    [.leave "tabular", .text "\\par", .newLine, .leave "proof", .newLine]

/-! ## Equivalence proofs -/

/-- The entry of a line in a chain: a given starts it, the others are
    equivalent to what stands above. -/
def chainEntry (l : Line) : String :=
  if l.citation.ruleKey = RuleName.given then "\\( " ++ l.formula.latex ++ " \\)"
  else "& \\( \\equiv " ++ l.formula.latex ++ " \\) & [ " ++ RuleName.titleCase l.citation.rule ++
    " ] \\\\"

/-- The pieces of an equivalence proof. -/
def chainPieces (ls : List Line) : List Piece :=
  [.enter "tabular" (some "r@\x7b\\hskip0.5\\tabcolsep\x7dll"), .newLine] ++
    ls.flatMap (fun l => [.text (chainEntry l), .newLine]) ++
    [.leave "tabular", .text "\\par", .newLine]

/-! ## Documents -/

/-- The LaTeX form of a proof. -/
def body (p : Proof) : String :=
  match p.mode with
  | .ordinary => write (proofPieces p.lines)
  | .equivalence => write (chainPieces p.lines)

/-- An article around a text. -/
def document (body : String) : String :=
  "\\documentclass\x7barticle\x7d\n\\usepackage\x7bamsmath, amsthm\x7d\n\\begin\x7bdocument\x7d\n" ++
    body ++ "\\end\x7bdocument\x7d\n"

end Deduction.Layout.Latex
