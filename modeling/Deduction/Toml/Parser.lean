/-
  Reading TOML.
-/
import Deduction.Json.Parser
import Deduction.Toml.Document

namespace Deduction.Toml

open Text Text.Scanner
open Json (charWhere isHexDigit hexValue)

/-! ## Strings -/

/-- Characters that may stand in comments and in literal strings: a tab, and
    everything but the control characters. -/
def isPlainChar (c : Char) : Bool := c = '\t' || (0x20 ≤ c.toNat && c.toNat ≠ 0x7F)

/-- The end of a line. -/
def lineEnd : Scanner Unit := orElse (word "\n") (word "\r\n")

/-- The character with a given code point. -/
def scalarChar (n : Nat) : Scanner Char :=
  if n < 0xD800 || (0xDFFF < n && n < 0x110000) then pure (Char.ofNat n) else stop .mismatch

/-- `n` hexadecimal digits. -/
def hexDigits : (n : Nat) → Scanner Nat
  | 0 => pure 0
  | n + 1 => do
    let high ← hexDigits n
    return high * 16 + hexValue (← charWhere isHexDigit)

/-- The character of an escape, behind its backslash. -/
def escape : Scanner Char := do
  match ← charWhere fun _ => true with
  | 'b' => return '\x08'
  | 't' => return '\t'
  | 'n' => return '\n'
  | 'f' => return '\x0C'
  | 'r' => return '\r'
  | '"' => return '"'
  | '\\' => return '\\'
  | 'u' => scalarChar (← hexDigits 4)
  | 'U' => scalarChar (← hexDigits 8)
  | _ => stop .mismatch

/-- A character of a basic string. -/
def basicChar : Scanner Char :=
  orElse (charWhere fun c => isPlainChar c && c ≠ '"' && c ≠ '\\') (word "\\" *> escape)

/-- `"…"`, with escapes. -/
def basicString : Scanner String := do
  word "\""
  let cs ← many basicChar
  word "\""
  return String.ofList cs

/-- `'…'`, without escapes. -/
def literalString : Scanner String := do
  word "'"
  let cs ← takeWhile fun c => isPlainChar c && c ≠ '\''
  word "'"
  return String.ofList cs

/-- A line end inside a string, whatever its form, counts as a line feed. -/
def lineFeed : Scanner (List Char) := lineEnd *> pure ['\n']

/-- A backslash at the end of a line, which takes away the line end and the
    blanks behind it. -/
def lineContinuation : Scanner (List Char) := do
  word "\\"
  blanks
  lineEnd
  let _ ← many (orElse lineEnd blanks1)
  return []

/-- One or two quotes that do not begin three. -/
def fewQuotes (quote : Char) : Scanner (List Char) := fun cs =>
  match cs.takeWhile (· = quote) with
  | [_] | [_, _] => takeWhile (· = quote) cs
  | _ => stop .mismatch cs

/-- The closing quotes of a string over several lines, before which up to two
    more may stand. -/
def closingQuotes (quote : Char) : Scanner (List Char) := fun cs =>
  match cs.takeWhile (· = quote) with
  | [_, _, _] => .ok ([], cs.dropWhile (· = quote))
  | [_, _, _, q] => .ok ([q], cs.dropWhile (· = quote))
  | [_, _, _, q, r] => .ok ([q, r], cs.dropWhile (· = quote))
  | _ => stop .mismatch cs

/-- A string over several lines with the given quotes and parts.  A line end
    right behind the opening quotes is dropped. -/
def longString (quote : Char) (part : Scanner (List Char)) : Scanner String := do
  word (String.ofList [quote, quote, quote])
  let _ ← optional lineEnd
  let parts ← many (orElse part (fewQuotes quote))
  return String.ofList (parts.flatten ++ (← closingQuotes quote))

/-- `"""…"""`, with escapes. -/
def longBasicString : Scanner String :=
  longString '"' <| orElse (do return [← basicChar]) <| orElse lineFeed lineContinuation

/-- `'''…'''`, without escapes. -/
def longLiteralString : Scanner String :=
  longString '\'' <| orElse (do return [← charWhere fun c => isPlainChar c && c ≠ '\'']) lineFeed

/-- A string of any of the four forms. -/
def stringText : Scanner String :=
  orElse longBasicString <| orElse longLiteralString <| orElse basicString literalString

/-! ## Keys -/

/-- The characters of bare keys. -/
def isBareKeyChar (c : Char) : Bool := c.isAlphanum || c = '_' || c = '-'

/-- One key. -/
def simpleKey : Scanner String :=
  orElse (String.ofList <$> takeWhile1 isBareKeyChar) <| orElse basicString literalString

/-- The deepest nesting of tables and arrays, and the longest dotted key. -/
def maxNesting : Nat := 79

/-- A dotted key: the keys on the way, and the last one. -/
def key : Scanner (List String × String) := do
  let keys ← separated (token (word ".")) (token simpleKey)
  match keys.reverse with
  | last :: outer => if keys.length ≤ maxNesting then return (outer.reverse, last) else stop .tooDeep
  | [] => stop .mismatch

/-! ## Numbers and dates -/

/-- Digits of a kind, single underscores between them. -/
def digitGroups (isDigit : Char → Bool) : Scanner (List Char) := do
  let groups ← separated (word "_") (takeWhile1 isDigit)
  return groups.flatten

/-- The value of hexadecimal digits to the given base. -/
def valueOf (base : Nat) (digits : List Char) : Nat :=
  digits.foldl (fun n d => n * base + hexValue d) 0

/-- An unsigned integer to a base other than ten. -/
def basedInteger (marker : String) (base : Nat) (isDigit : Char → Bool) : Scanner Value := do
  word marker
  let digits ← digitGroups isDigit
  if valueOf base digits < Nat.pow 2 63 then return .number (marker ++ String.ofList digits)
  else stop .mismatch

/-- Decimal digits without a leading zero. -/
def decimalDigits : Scanner (List Char) := do
  let digits ← digitGroups Char.isDigit
  match digits with
  | '0' :: _ :: _ => stop .mismatch
  | _ => return digits

/-- A sign. -/
def sign : Scanner (List Char) := do
  let s ← optional (charWhere fun c => c = '+' || c = '-')
  return s.toList

/-- A decimal integer of 64 bits. -/
def decimalInteger : Scanner Value := do
  let s ← sign
  let digits ← decimalDigits
  let bound := if s = ['-'] then Nat.pow 2 63 else Nat.pow 2 63 - 1
  if valueOf 10 digits ≤ bound then return .number (String.ofList (s ++ digits))
  else stop .mismatch

/-- The exponent of a float. -/
def floatExponent : Scanner (List Char) := do
  let _ ← charWhere fun c => c = 'e' || c = 'E'
  let s ← sign
  return 'e' :: s ++ (← digitGroups Char.isDigit)

/-- Whether a decimal number, its digits and the power of ten by which they are
    multiplied, rounds to a finite double. -/
def isFinite (digits : Nat) (exponent : Int) : Bool :=
  let bound := Nat.pow 2 1024 - Nat.pow 2 970
  if digits = 0 then true
  else if exponent < 0 then
    (exponent < -100000) || digits < bound * Nat.pow 10 exponent.natAbs
  else exponent ≤ 400 && digits * Nat.pow 10 exponent.toNat < bound

/-- The number that an exponent writes. -/
def exponentValue : List Char → Int
  | 'e' :: '-' :: ds => -(valueOf 10 ds : Int)
  | 'e' :: '+' :: ds => valueOf 10 ds
  | 'e' :: ds => valueOf 10 ds
  | _ => 0

/-- A float that is not an integer by its form.  A positive one has to be
    finite. -/
def float : Scanner Value := do
  let s ← sign
  let whole ← decimalDigits
  let fraction ← optional (word "." *> digitGroups Char.isDigit)
  let exponent ← optional floatExponent
  if fraction.isNone && exponent.isNone then stop .mismatch
  else
    let f := fraction.getD []
    let e := exponent.getD []
    if s = ['-'] || isFinite (valueOf 10 (whole ++ f)) (exponentValue e - f.length) then
      return .number (String.ofList (s ++ whole ++ '.' :: f ++ e))
    else stop .mismatch

/-- An infinite float, or one that is not a number. -/
def specialFloat : Scanner Value := do
  let s ← sign
  let name ← oneOf ["inf", "nan"]
  return .number (String.ofList s ++ name)

/-- A decimal number of exactly `n` digits between two bounds. -/
def fixedDigits (n low high : Nat) : Scanner Nat := do
  let digits ← (List.replicate n (charWhere Char.isDigit)).mapM id
  if low ≤ valueOf 10 digits && valueOf 10 digits ≤ high then return valueOf 10 digits
  else stop .mismatch

/-- The number of days of a month. -/
def daysInMonth (year month : Nat) : Nat :=
  if month = 2 then
    if year % 4 = 0 && (year % 100 ≠ 0 || year % 400 = 0) then 29 else 28
  else if month ∈ [4, 6, 9, 11] then 30
  else 31

/-- A date. -/
def date : Scanner Unit := do
  let year ← fixedDigits 4 0 9999
  word "-"
  let month ← fixedDigits 2 1 12
  word "-"
  let _ ← fixedDigits 2 1 (daysInMonth year month)

/-- A time of day; a leap second is allowed. -/
def time : Scanner Unit := do
  let _ ← fixedDigits 2 0 23
  word ":"
  let _ ← fixedDigits 2 0 59
  word ":"
  let _ ← fixedDigits 2 0 60
  let _ ← optional (word "." *> takeWhile1 Char.isDigit)

/-- An offset from universal time. -/
def offset : Scanner Unit :=
  orElse (oneOf ["Z", "z"] *> pure ()) do
    let _ ← oneOf ["+", "-"]
    let _ ← fixedDigits 2 0 23
    word ":"
    let _ ← fixedDigits 2 0 59

/-- A date, a time, or both. -/
def dateTime : Scanner Value := fun cs =>
  let moment : Scanner Unit :=
    orElse (do
      date
      let _ ← optional do
        let _ ← oneOf ["T", "t", " "]
        time
        optional offset) time
  match moment cs with
  | .ok ((), rest) => .ok (.moment (String.ofList (cs.take (cs.length - rest.length))), rest)
  | .error s => .error s

/-- A number or a date. -/
def scalar : Scanner Value :=
  orElse dateTime <| orElse float <| orElse specialFloat <|
  orElse (basedInteger "0x" 16 isHexDigit) <|
  orElse (basedInteger "0o" 8 fun c => '0' ≤ c && c ≤ '7') <|
  orElse (basedInteger "0b" 2 fun c => c = '0' || c = '1') decimalInteger

/-! ## Values -/

/-- A comment, up to the end of the line. -/
def comment : Scanner Unit := do
  word "#"
  let _ ← takeWhile isPlainChar

/-- Blanks, line ends and comments. -/
def space : Scanner Unit := do
  let _ ← many (orElse blanks1 <| orElse lineEnd comment)

/-- A value inside an array, with the space around it. -/
def spaced {α : Type} (p : Scanner α) : Scanner α := do
  space
  let a ← p
  space
  return a

/-- A value that holds no others. -/
def plainValue : Scanner Value :=
  orElse (.string <$> stringText) <|
  orElse (word "true" *> pure (.boolean true)) <|
  orElse (word "false" *> pure (.boolean false)) scalar

/-- An array of the given items. -/
def array (item : Scanner Value) : Scanner Value := do
  word "["
  let items ← optional (separated (word ",") (spaced item))
  if items.isSome then
    let _ ← optional (word ",")
  space
  word "]"
  return .array (items.getD [])

/-- A table between braces, with the given values. -/
def inlineTable (item : Scanner Value) : Scanner Value := do
  word "\x7b"
  let pairs ← optional <| separated (token (word ",")) do
    let (outer, last) ← key
    token (word "=")
    return (outer, last, ← token item)
  token (word "\x7d")
  match inlineTable? (pairs.getD []) with
  | some v => return v
  | none => stop .mismatch

/-- A value with room for `room` levels of arrays and tables. -/
def value : (room : Nat) → Scanner Value
  | 0 => orElse plainValue (oneOf ["[", "\x7b"] *> stop .tooDeep)
  | room + 1 => orElse plainValue <| orElse (array (value room)) (inlineTable (value room))

/-! ## Documents -/

/-- A header or a pair. -/
def statement : Scanner Statement :=
  orElse (do
    word "[["
    let (outer, last) ← key
    token (word "]]")
    return .arrayTable outer last) <|
  orElse (do
    word "["
    let (outer, last) ← key
    token (word "]")
    return .table outer last) do
    let (outer, last) ← key
    token (word "=")
    return .pair outer last (← token (value maxNesting))

/-- A line: possibly a statement, possibly a comment. -/
def line : Scanner (Option Statement) := do
  let s ← optional (token statement)
  blanks
  let _ ← optional comment
  return s

/-- Lines, with line ends in between. -/
def lines : Scanner (List (Option Statement)) := separated lineEnd line

/-- The text without a byte order mark. -/
def dropMark : List Char → List Char
  | '\uFEFF' :: cs => cs
  | cs => cs

/-- Reads a document: the entries of its top table. -/
def parse? (source : String) : Option Entries :=
  match lines (dropMark source.toList) with
  | .ok (statements, []) => build? (statements.filterMap id)
  | _ => none

end Deduction.Toml
