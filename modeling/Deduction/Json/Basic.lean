/-
  JSON values and how they are written.

  The fields of an object are kept in order.  A number is kept as it is
  written.  A string that is written with an unpaired surrogate is no text; the
  value in which it stands is well-formed, but `broken`.
-/

namespace Deduction

/-- A JSON value. -/
inductive Json where
  | null
  | bool (b : Bool)
  | number (text : String)
  | string (s : String)
  | array (items : List Json)
  | object (fields : List (String × Json))
  /-- A string, or an object with a key, that is no text. -/
  | broken

namespace Json

/-- The hexadecimal digit of a number below sixteen. -/
def hexDigit (n : Nat) : Char := Char.ofNat (if n < 10 then '0'.toNat + n else 'a'.toNat + (n - 10))

/-- A character of a string.  Quotes, backslashes and control characters are
    escaped, all else stands for itself. -/
def escapeChar (c : Char) : List Char :=
  if c = '"' then ['\\', '"']
  else if c = '\\' then ['\\', '\\']
  else if c = '\n' then ['\\', 'n']
  else if c = '\r' then ['\\', 'r']
  else if c = '\t' then ['\\', 't']
  else if c.toNat = 0x08 then ['\\', 'b']
  else if c.toNat = 0x0C then ['\\', 'f']
  else if c.toNat < 0x20 then
    ['\\', 'u', '0', '0', hexDigit (c.toNat / 16), hexDigit (c.toNat % 16)]
  else [c]

/-- A string in quotes. -/
def quote (s : String) : String :=
  "\"" ++ String.ofList (s.toList.flatMap escapeChar) ++ "\""

mutual

/-- The compact form of a value. -/
def compress : Json → String
  | null => "null"
  | bool b => if b then "true" else "false"
  | number text => text
  | string s => quote s
  | array items => "[" ++ ",".intercalate (compressItems items) ++ "]"
  | object fields => "\x7b" ++ ",".intercalate (compressFields fields) ++ "\x7d"
  | broken => "null"

/-- The compact forms of the items of an array. -/
def compressItems : List Json → List String
  | [] => []
  | v :: vs => v.compress :: compressItems vs

/-- The compact forms of the fields of an object. -/
def compressFields : List (String × Json) → List String
  | [] => []
  | (k, v) :: fs => (quote k ++ ":" ++ v.compress) :: compressFields fs

end

/-- The end of a line and the indentation of the next one. -/
def newLine (indent : Nat) : String := "\n" ++ String.ofList (List.replicate (2 * indent) ' ')

/-- Parts between brackets, one per line; without parts the brackets touch. -/
def block (indent : Nat) (opening closing : String) (parts : List String) : String :=
  if parts.isEmpty then opening ++ closing
  else opening ++ newLine (indent + 1) ++ ("," ++ newLine (indent + 1)).intercalate parts ++
    newLine indent ++ closing

mutual

/-- The form of a value with one item or field per line, indented by two
    spaces. -/
def prettyAt (indent : Nat) : Json → String
  | null => "null"
  | bool b => if b then "true" else "false"
  | number text => text
  | string s => quote s
  | array items => block indent "[" "]" (prettyItems (indent + 1) items)
  | object fields => block indent "\x7b" "\x7d" (prettyFields (indent + 1) fields)
  | broken => "null"

/-- The forms of the items of an array. -/
def prettyItems (indent : Nat) : List Json → List String
  | [] => []
  | v :: vs => v.prettyAt indent :: prettyItems indent vs

/-- The forms of the fields of an object. -/
def prettyFields (indent : Nat) : List (String × Json) → List String
  | [] => []
  | (k, v) :: fs => (quote k ++ ": " ++ v.prettyAt indent) :: prettyFields indent fs

end

/-- The form of a value with one item or field per line. -/
def pretty (v : Json) : String := v.prettyAt 0

end Json

end Deduction
