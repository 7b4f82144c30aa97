/-
  Reading proofs.

  A proof is read line by line.  Up to the header, a line declares an atom or a
  given formula; after it, a line is a line of the proof.  A comment starts with
  `#` or `//` and goes to the end of the line; a line without anything else is
  skipped.

      Let p be a proposition      # declarations
      Given p
      proof.                      # or `equivalence.`
      1. p [Given]
      2.1. q [Assumption]
      2.2. p∧q [Intro And: 1, 2.1]
      2. q→p∧q [Direct Proof Rule]
-/
import Deduction.Proof
import Deduction.Source.Error
import Deduction.Source.Formula

namespace Deduction.Source

open Text Text.Scanner

/-! ## Citations -/

/-- The characters of the words of a rule name. -/
def isRuleNameChar (c : Char) : Bool :=
  isAlphanumeric c || c = '\'' || c = '-' || c = '_'

/-- A connective that ends a rule name, such as the one of `Intro ∧`.
    Conjunction and disjunction are spelled out, the others stay as they are. -/
def ruleConnective : Scanner String :=
  orElse (connective .and *> pure "and") <|
  orElse (connective .or *> pure "or") <|
  orElse (connective .xor) <|
  orElse negation <|
  orElse (connective .implies) <|
  connective .iff

/-- The name of a rule: words and possibly a connective, joined by single
    spaces. -/
def ruleName : Scanner String := do
  let words ← many1 (token (takeWhile1 isRuleNameChar))
  let connective ← optional ruleConnective
  return " ".intercalate (words.map String.ofList ++ connective.toList)

/-- A citation, such as `[Given]` or `[Intro And: 1, 2.1]`. -/
def citation : Scanner Citation := do
  token (word "[")
  let rule ← ruleName
  let refs ← optional do
    token (word ":")
    separated (token (word ",")) (token reference)
  token (word "]")
  return ⟨rule, refs.getD []⟩

/-! ## Declarations and headers -/

/-- `Let <name> be a proposition` -/
def letDeclaration : Scanner String := do
  word "Let"
  blanks1
  let name ← identifier
  blanks1
  word "be"
  blanks1
  word "a"
  blanks1
  word "proposition"
  return name

/-- `Given <formula>` -/
def givenDeclaration : Scanner Formula := do
  word "Given"
  blanks1
  formula

/-- The header, in any casing. -/
def header : Scanner Mode := do
  let mode ← orElse (wordAnyCase "proof" *> pure .ordinary)
    (wordAnyCase "equivalence" *> pure .equivalence)
  word "."
  return mode

/-! ## Documents -/

/-- What has been read of a proof.  There is a mode once the header has been
    read; the lines are in reverse order. -/
structure Draft where
  declarations : Declarations
  mode : Option Mode
  lines : List Line

/-- Nothing has been read. -/
def Draft.empty : Draft := ⟨.empty, none, []⟩

/-- The text of a line without its comment. -/
def stripComment : List Char → List Char
  | [] => []
  | '#' :: _ => []
  | '/' :: '/' :: _ => []
  | c :: cs => c :: stripComment cs

/-- Reads a declaration or the header. -/
def Draft.readDeclaration (d : Draft) (text : List Char) : Except Flaw Draft :=
  let start := trimStart text
  match toEnd header start with
  | .ok (mode, _) => .ok { d with mode := some mode }
  | .error _ =>
    if "Let".toList.isPrefixOf start then
      match toEnd letDeclaration start with
      | .ok (name, _) => .ok { d with declarations := d.declarations.merge (.ofLists [name] []) }
      | .error s => .error (.ofStop .letDeclaration s)
    else if "Given".toList.isPrefixOf start then
      match toEnd givenDeclaration start with
      | .ok (φ, _) => .ok { d with declarations := d.declarations.merge (.ofLists [] [φ]) }
      | .error s => .error (.ofStop .givenDeclaration s)
    else .error ⟨start, .declarationOrHeader⟩

/-- Reads a line of the proof. -/
def readLine (text : List Char) : Except Flaw Line :=
  match token label text with
  | .error s => .error (.ofStop .lineNumber s)
  | .ok (number, rest) =>
    match formula rest with
    | .error s => .error (.ofStop .lineFormula s)
    | .ok (φ, rest) =>
      match citation rest with
      | .error s =>
        match arrow rest with
        | .ok _ => .error (.ofStop .chainedArrows s)
        | .error _ => .error (.ofStop .citation s)
      | .ok (citation, rest) =>
        match trimStart rest with
        | [] => .ok ⟨number, φ, citation⟩
        | rest => .error ⟨rest, .trailingText⟩

/-- Reads the text of a line, without its comment. -/
def Draft.read (d : Draft) (text : List Char) : Except Flaw Draft :=
  if isBlankText text then .ok d
  else
    match d.mode with
    | none => d.readDeclaration text
    | some _ =>
      match readLine text with
      | .ok l => .ok { d with lines := l :: d.lines }
      | .error f => .error f

/-- Reads the given lines, of which the first has the number `line`. -/
def Draft.readAll (d : Draft) (line : Nat) : List (List Char) → Except ParseError Draft
  | [] => .ok d
  | text :: texts =>
    match d.read (stripComment text) with
    | .error f => .error (.at line (stripComment text) f)
    | .ok d => d.readAll (line + 1) texts

/-- The lines of a text, where `line` holds, reversed, what has been read of
    the current one.  A line ends with a line feed, before which one carriage
    return is dropped; the last line may lack it. -/
def linesFrom (line : List Char) : List Char → List (List Char)
  | [] => if line.isEmpty then [] else [line.reverse]
  | '\n' :: cs =>
    match line with
    | '\r' :: line => line.reverse :: linesFrom [] cs
    | line => line.reverse :: linesFrom [] cs
  | c :: cs => linesFrom (c :: line) cs

/-- The lines of a text. -/
def textLines (cs : List Char) : List (List Char) := linesFrom [] cs

end Deduction.Source

namespace Deduction

open Source in
/-- Reads a proof. -/
def Proof.parse (source : String) : Except ParseError Proof :=
  match Draft.empty.readAll 1 (textLines source.toList) with
  | .error e => .error e
  | .ok d =>
    match d.mode with
    | none => .error .missingHeader
    | some mode => .ok ⟨mode, d.declarations, d.lines.reverse⟩

open Source in
/-- Reads a formula. -/
def Formula.parse (source : String) : Except ParseError Formula :=
  let text := source.toList
  match Text.Scanner.toEnd formula text with
  | .ok (φ, _) => .ok φ
  | .error s => .error (.ofStop 1 text .formula s)

end Deduction
