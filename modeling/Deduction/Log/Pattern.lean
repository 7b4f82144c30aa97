/-
  Regular expressions.

  Only their form matters: a directive of the log may hold one, but it is never
  matched against anything.

      pattern   := (unit quantifier* | flags | "|")*
      unit      := group | class | escape | character
      group     := "(" heading? pattern ")"

  A quantifier needs a unit before it.  Counted repetition, looking around and
  references to groups are not available, and neither are the boundaries of
  words.
-/
import Deduction.Json.Parser

namespace Deduction.Pattern

open Text Text.Scanner
open Json (charWhere)

/-- What an escape stands for. -/
inductive Escape where
  | character (c : Char)
  /-- A class of characters. -/
  | classOf
  /-- The beginning or the end of the text. -/
  | anchor
  deriving DecidableEq

/-- `n` hexadecimal digits that write a character. -/
def hexCharacter (n : Nat) : Scanner Escape := do
  let digits ← (List.replicate n (charWhere Json.isHexDigit)).mapM id
  let code := digits.foldl (fun m d => m * 16 + Json.hexValue d) 0
  if code < 0xD800 || (0xDFFF < code && code < 0x110000) then return .character (Char.ofNat code)
  else stop .mismatch

/-- An escape, behind its backslash. -/
def escape : Scanner Escape := do
  let c ← charWhere fun _ => true
  match c with
  | 'd' | 'D' | 's' | 'S' | 'w' | 'W' => return .classOf
  | 'A' | 'z' => return .anchor
  | 'a' => return .character '\x07'
  | 'f' => return .character '\x0C'
  | 't' => return .character '\t'
  | 'n' => return .character '\n'
  | 'r' => return .character '\r'
  | 'v' => return .character '\x0B'
  | 'x' => hexCharacter 2
  | 'u' => hexCharacter 4
  | 'U' => hexCharacter 8
  | 'p' | 'P' => do
    let _ ← charWhere fun c => c.toLower ∈ ['c', 'l', 'm', 'n', 'p', 's', 'z']
    return .classOf
  | _ =>
    if c.toNat < 0x80 && !c.isAlphanum && c ≠ '<' && c ≠ '>' then return .character c
    else stop .mismatch

/-! ## Classes between brackets -/

/-- The names of classes such as `[:alpha:]`. -/
def className : Scanner Unit := do
  word "[:"
  let _ ← optional (word "^")
  let _ ← oneOf ["alnum:", "alpha:", "ascii:", "blank:", "cntrl:", "digit:", "graph:", "lower:",
    "print:", "punct:", "space:", "upper:", "word:", "xdigit:"]
  word "]"

/-- A member of a class: a character, or none for a class within it.  Some
    characters have to be escaped. -/
def member (reserved : List Char) : Scanner (Option Char) :=
  orElse
    (do
      word "\\"
      match ← escape with
      | .character c => return some c
      | .classOf => return none
      | .anchor => stop .mismatch)
    (some <$> charWhere fun c => c ∉ '\\' :: reserved)

/-- The second end of a range, behind its hyphen.  A hyphen before another one or
    at the end of the class makes no range. -/
def rangeEnd : Scanner (Option Char) := do
  word "-"
  fun
    | '-' :: cs => stop .mismatch cs
    | cs => member [']'] cs

/-- Members from one character to another, or a single member. -/
def memberOrRange : Scanner Unit := do
  let low ← member ['[', ']']
  match ← optional rangeEnd with
  | none => return ()
  | some high =>
    match low, high with
    | some a, some b => if a ≤ b then return () else stop .mismatch
    | _, _ => stop .mismatch

/-- A class between brackets, with room for `room` classes in one another.  A
    closing bracket right at the beginning is a member. -/
def bracketClass : (room : Nat) → Scanner Unit
  | 0 => stop .mismatch
  | room + 1 => do
    word "["
    let _ ← optional (word "^")
    let hyphens ← takeWhile (· = '-')
    if hyphens.isEmpty then
      let _ ← optional (word "]")
    let _ ← many <|
      orElse className <|
      orElse (bracketClass room) <|
      orElse (oneOf ["&&", "--", "~~"] *> pure ()) memberOrRange
    word "]"

/-! ## Patterns -/

/-- Letters of flags, each at most once; after a hyphen, the flags that are
    switched off. -/
def flagLetters : Scanner (List Char) := do
  let letters ← takeWhile fun c => c ∈ ['i', 'm', 's', 'U', 'u', 'x', 'R', '-']
  if letters.eraseDups.length = letters.length && letters.getLast? ≠ some '-' then return letters
  else stop .mismatch

/-- Flags for what follows. -/
def flags : Scanner Unit := do
  word "(?"
  let letters ← flagLetters
  word ")"
  if letters.isEmpty then stop .mismatch

/-- The name of a group. -/
def groupName : Scanner Unit := do
  let _ ← oneOf ["?P<", "?<"]
  let _ ← charWhere fun c => c.isAlpha || c = '_'
  let _ ← takeWhile fun c => c.isAlphanum || c ∈ ['_', '.', '[', ']']
  word ">"

/-- What stands between the parenthesis of a group and its pattern. -/
def groupHeading : Scanner Unit :=
  orElse groupName (word "?" *> flagLetters *> word ":")

/-- A quantifier; a question mark behind it makes it lazy. -/
def quantifier : Scanner Unit := do
  let _ ← oneOf ["*", "+", "?"]
  let _ ← optional (word "?")

/-- A pattern with room for `room` groups and classes in one another. -/
def pattern : (room : Nat) → Scanner Unit
  | 0 => pure ()
  | room + 1 => do
    let group : Scanner Unit := do
      word "("
      let _ ← optional groupHeading
      pattern room
      word ")"
    let unit : Scanner Unit :=
      orElse group <|
      orElse (bracketClass room) <|
      orElse (word "\\" *> escape *> pure ()) <|
      charWhere (fun c => c ∉ "\\()[*+?|\x7b".toList) *> pure ()
    let _ ← many <| orElse flags <| orElse (word "|") (unit *> many quantifier *> pure ())

/-- Whether a text is a regular expression. -/
def isPattern (s : String) : Bool :=
  let text := s.toList
  match pattern (text.length + 1) text with
  | .ok (_, rest) => rest.isEmpty
  | .error _ => false

/-! ## Numbers -/

/-- A decimal number, with a sign or an exponent if need be, or one of the words
    for what is no finite number. -/
def numeral : Scanner Unit := do
  let _ ← optional (oneOf ["+", "-"])
  orElse (wordAnyCase "infinity") <| orElse (wordAnyCase "inf") <| orElse (wordAnyCase "nan") do
    let whole ← takeWhile Char.isDigit
    let fraction ← optional (word "." *> takeWhile Char.isDigit)
    if whole.isEmpty && (fraction.getD []).isEmpty then stop .mismatch
    let _ ← optional do
      let _ ← oneOf ["e", "E"]
      let _ ← optional (oneOf ["+", "-"])
      takeWhile1 Char.isDigit

/-- Whether a text is a number. -/
def isNumeral (s : String) : Bool :=
  match numeral s.toList with
  | .ok (_, rest) => rest.isEmpty
  | .error _ => false

end Deduction.Pattern
