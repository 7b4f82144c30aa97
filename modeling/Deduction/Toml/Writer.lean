/-
  Writing strings in TOML.

  A string is written in the simplest form that shows it as it is: between
  double quotes, between single quotes, or over several lines.  Only a string
  that none of these can show is written with escapes.
-/

namespace Deduction.Toml

/-- The length of the longest run of `c`, where `run` is the length of the
    current one. -/
def longestRunFrom (c : Char) (run : Nat) : List Char → Nat
  | [] => run
  | d :: ds => if d = c then longestRunFrom c (run + 1) ds else max run (longestRunFrom c 0 ds)

/-- The length of the longest run of `c`. -/
def longestRun (c : Char) (cs : List Char) : Nat := longestRunFrom c 0 cs

/-- Whether a character can only be shown by an escape. -/
def needsEscape (c : Char) : Bool :=
  (c.toNat < 0x20 && c ≠ '\t' && c ≠ '\n') || c.toNat = 0x7F

/-- A hexadecimal digit in upper case. -/
def upperHexDigit (n : Nat) : Char :=
  Char.ofNat (if n < 10 then '0'.toNat + n else 'A'.toNat + (n - 10))

/-- The escape of a control character. -/
def escapeControl (c : Char) : List Char :=
  if c.toNat = 0x08 then ['\\', 'b']
  else if c = '\t' then ['\\', 't']
  else if c = '\n' then ['\\', 'n']
  else if c.toNat = 0x0C then ['\\', 'f']
  else if c = '\r' then ['\\', 'r']
  else ['\\', 'u', '0', '0', upperHexDigit (c.toNat / 16), upperHexDigit (c.toNat % 16)]

/-- The text of a string between double quotes.  After `quotes` double quotes in
    a row another one is escaped once there are `limit` of them; line feeds
    stand for themselves if `long` holds. -/
def escapeText (long : Bool) (limit : Nat) (quotes : Nat) : List Char → List Char
  | [] => []
  | c :: cs =>
    if c = '"' then
      if quotes < limit then c :: escapeText long limit (quotes + 1) cs
      else '\\' :: c :: escapeText long limit 0 cs
    else if c = '\\' then '\\' :: c :: escapeText long limit 0 cs
    else if c = '\n' && long then c :: escapeText long limit 0 cs
    else if c.toNat < 0x20 || c.toNat = 0x7F then escapeControl c ++ escapeText long limit 0 cs
    else c :: escapeText long limit 0 cs

/-- The written form of a string. -/
def quote (s : String) : String :=
  let cs := s.toList
  let escapes := cs.any needsEscape
  let backslash := '\\' ∈ cs
  let newLine := '\n' ∈ cs
  let start := if newLine then "\n" else ""
  let basic (long : Bool) : String :=
    if long then "\"\"\"" ++ start ++ String.ofList (escapeText true 2 0 cs) ++ "\"\"\""
    else "\"" ++ String.ofList (escapeText false 0 0 cs) ++ "\""
  if !escapes && !backslash && longestRun '"' cs = 0 && !newLine then basic false
  else if !escapes && longestRun '\'' cs = 0 && !newLine then "'" ++ s ++ "'"
  else if !escapes && !backslash && longestRun '"' cs ≤ 2 then basic true
  else if !escapes && longestRun '\'' cs ≤ 2 then "'''" ++ start ++ s ++ "'''"
  else basic newLine

end Deduction.Toml
