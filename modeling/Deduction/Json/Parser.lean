/-
  Reading JSON.
-/
import Deduction.Json.Basic
import Deduction.Text.Scanner

namespace Deduction.Json

open Text Text.Scanner

/-- The blanks of JSON. -/
def isJsonBlank (c : Char) : Bool := c = ' ' || c = '\n' || c = '\r' || c = '\t'

/-- `p` after any number of blanks. -/
def spaced {α : Type} (p : Scanner α) : Scanner α := do
  let _ ← takeWhile isJsonBlank
  p

/-- Exactly one character that satisfies `p`. -/
def charWhere (p : Char → Bool) : Scanner Char
  | [] => stop .mismatch []
  | c :: cs => if p c then .ok (c, cs) else stop .mismatch (c :: cs)

/-- The value of a hexadecimal digit. -/
def hexValue (c : Char) : Nat :=
  if c.isDigit then c.toNat - '0'.toNat else c.toLower.toNat - 'a'.toNat + 10

/-- Whether a character is a hexadecimal digit. -/
def isHexDigit (c : Char) : Bool := c.isDigit || ('a' ≤ c.toLower && c.toLower ≤ 'f')

/-- Four hexadecimal digits. -/
def hex4 : Scanner Nat := do
  let a ← charWhere isHexDigit
  let b ← charWhere isHexDigit
  let c ← charWhere isHexDigit
  let d ← charWhere isHexDigit
  return ((hexValue a * 16 + hexValue b) * 16 + hexValue c) * 16 + hexValue d

/-- The escape of a low surrogate. -/
def lowSurrogate : Scanner Nat := do
  word "\\u"
  let n ← hex4
  if 0xDC00 ≤ n && n ≤ 0xDFFF then return n else stop .mismatch

/-- The character of a `\u` escape.  A character beyond the basic plane is
    written as two escapes, a high surrogate and a low one; one without the other
    is no character. -/
def unicodeEscape : Scanner (Option Char) := do
  let n ← hex4
  if 0xD800 ≤ n && n ≤ 0xDBFF then
    let low ← optional lowSurrogate
    return low.map fun m => Char.ofNat (0x10000 + (n - 0xD800) * 0x400 + (m - 0xDC00))
  else if 0xDC00 ≤ n && n ≤ 0xDFFF then return none
  else return some (Char.ofNat n)

/-- The character of an escape, behind its backslash. -/
def escape : Scanner (Option Char) := do
  match ← charWhere fun _ => true with
  | '"' => return some '"'
  | '\\' => return some '\\'
  | '/' => return some '/'
  | 'b' => return some '\x08'
  | 'f' => return some '\x0C'
  | 'n' => return some '\n'
  | 'r' => return some '\r'
  | 't' => return some '\t'
  | 'u' => unicodeEscape
  | _ => stop .mismatch

/-- A character of a string. -/
def stringChar : Scanner (Option Char) :=
  orElse (some <$> charWhere fun c => c ≠ '"' && c ≠ '\\' && 0x20 ≤ c.toNat) (word "\\" *> escape)

/-- A string in quotes, and its text if it is one. -/
def stringText : Scanner (Option String) := do
  word "\""
  let cs ← many stringChar
  word "\""
  return (cs.mapM id).map String.ofList

/-- The object with the given fields. -/
def ofFields (fields : List (Option String × Json)) : Json :=
  match fields.mapM fun f => f.1.map (·, f.2) with
  | some fields => object fields
  | none => broken

/-- One or more digits. -/
def digits : Scanner (List Char) := takeWhile1 Char.isDigit

/-- The integer part of a number: no zero before other digits. -/
def integerPart : Scanner (List Char) :=
  orElse (word "0" *> pure ['0']) digits

/-- A number, as it is written. -/
def numberText : Scanner String := do
  let sign ← optional (word "-")
  let whole ← integerPart
  let fraction ← optional (word "." *> digits)
  let exponent ← optional do
    let e ← charWhere fun c => c = 'e' || c = 'E'
    let sign ← optional (charWhere fun c => c = '+' || c = '-')
    return e :: (sign.toList ++ (← digits))
  return String.ofList <|
    (if sign.isSome then ['-'] else []) ++ whole ++
      (fraction.map ('.' :: ·)).getD [] ++ exponent.getD []

/-- A list of items between brackets, with commas in between. -/
def bracketed {α : Type} (opening closing : String) (item : Scanner α) : Scanner (List α) := do
  word opening
  let xs ← optional (separated (spaced (word ",")) (spaced item))
  spaced (word closing)
  return xs.getD []

/-- A value with room for `room - 1` levels of arrays and objects in it. -/
def value : (room : Nat) → Scanner Json
  | 0 => stop .tooDeep
  | room + 1 =>
    orElse (word "null" *> pure null) <|
    orElse (word "true" *> pure (bool true)) <|
    orElse (word "false" *> pure (bool false)) <|
    orElse ((fun s => (s.map string).getD broken) <$> stringText) <|
    orElse (number <$> numberText) <|
    orElse (array <$> bracketed "[" "]" (value room)) <|
    ofFields <$> bracketed "\x7b" "\x7d" do
      let k ← stringText
      spaced (word ":")
      return (k, ← spaced (value room))

/-- Reads a JSON text. -/
def parse? (source : String) : Option Json :=
  let text := source.toList
  match spaced (value (text.length + 1)) text with
  | .ok (v, rest) => if rest.all isJsonBlank then some v else none
  | .error _ => none

end Deduction.Json
