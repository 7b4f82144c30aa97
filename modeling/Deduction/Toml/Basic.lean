/-
  TOML values.

  Tables differ in how they came about, which decides what may still be added to
  them.  Numbers and moments are kept as they are written: no setting has such a
  value.
-/

namespace Deduction.Toml

/-- How a table came about. -/
inductive Origin where
  /-- By a header of its own, or as the whole document. -/
  | header
  /-- By the header of a table inside it. -/
  | implicit
  /-- By a dotted key. -/
  | dotted
  /-- As a value between braces. -/
  | inline
  deriving DecidableEq

/-- A TOML value. -/
inductive Value where
  | string (s : String)
  | boolean (b : Bool)
  /-- An integer or a float. -/
  | number (text : String)
  /-- A date, a time, or both. -/
  | moment (text : String)
  | array (items : List Value)
  | table (origin : Origin) (entries : List (String × Value))
  /-- An array of tables, each with a header of its own; the last one is
      first. -/
  | tables (items : List (List (String × Value)))

/-- The entries of a table, in order. -/
abbrev Entries := List (String × Value)

/-- Replaces the value of a key, or adds the key at the end. -/
def Entries.set (es : Entries) (key : String) (v : Value) : Entries :=
  if (es.lookup key).isSome then es.map fun e => if e.1 = key then (key, v) else e
  else es ++ [(key, v)]

end Deduction.Toml
