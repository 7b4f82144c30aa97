/-
  Tokens of a proof text: connectives, identifiers and line numbers.

  Every connective has a symbol, spellings on a plain keyboard and commands of
  math mode.  A spelling ends where it ends, whatever follows it.
-/
import Deduction.Formula.Basic
import Deduction.LineNumber
import Deduction.Text.Alphanumeric
import Deduction.Text.Scanner

namespace Deduction.Source

open Text Text.Scanner

/-- The spellings of negation. -/
def negationSpellings : List String := ["¬", "~", "!", "\\neg", "\\lnot"]

/-- The spellings of a binary connective. -/
def connectiveSpellings : Connective → List String
  | .and => ["∧", "&", "\\land", "\\wedge"]
  | .or => ["∨", "|", "\\lor", "\\vee"]
  | .xor => ["⊕", "^", "\\oplus"]
  | .implies => ["→", "->", "=>", "\\to", "\\implies"]
  | .iff => ["↔", "<->", "<=>", "\\leftrightarrow", "\\iff"]

/-- A negation sign. -/
def negation : Scanner String := token (oneOf negationSpellings)

/-- A sign of the given connective. -/
def connective (c : Connective) : Scanner String := token (oneOf (connectiveSpellings c))

/-- One of the two connectives that do not chain. -/
def arrow : Scanner Connective :=
  orElse (connective .implies *> pure .implies) (connective .iff *> pure .iff)

/-- The characters of identifiers. -/
def isIdentifierChar (c : Char) : Bool := isAlphanumeric c || c = '_' || c = '\''

/-- An identifier: a maximal run of identifier characters that does not start
    with an ASCII digit. -/
def identifier : Scanner String := fun cs =>
  match cs.takeWhile isIdentifierChar with
  | [] => stop .mismatch cs
  | c :: name =>
    if c.isDigit then stop .mismatch cs
    else .ok (String.ofList (c :: name), cs.dropWhile isIdentifierChar)

/-- The number that a list of decimal digits writes. -/
def digitsValue (digits : List Char) : Nat :=
  digits.foldl (fun n d => n * 10 + (d.toNat - '0'.toNat)) 0

/-- A component of a line number: digits that write at most the last slot. -/
def component : Scanner Nat := fun cs =>
  let digits := cs.takeWhile Char.isDigit
  if digits.isEmpty || LineNumber.maxSlot < digitsValue digits then stop .mismatch cs
  else .ok (digitsValue digits, cs.dropWhile Char.isDigit)

/-- A cited line, such as `1` or `2.3.1`. -/
def reference : Scanner LineNumber := fun cs =>
  match separated (word ".") component cs with
  | .error s => .error s
  | .ok (components, rest) =>
    match LineNumber.ofPath? components with
    | some n => .ok (n, rest)
    | none => stop .mismatch cs

/-- The label of a line, such as `1.` or `2.3.1.` -/
def label : Scanner LineNumber := do
  let n ← reference
  word "."
  return n

end Deduction.Source
