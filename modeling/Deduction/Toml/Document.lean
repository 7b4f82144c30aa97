/-
  TOML documents.

  A document is a list of statements.  A header opens a table, or adds a table
  to an array of tables; a pair sets a key of the table that is open, where a
  dotted key reaches into tables within it.  No key is set twice, and no table
  is defined twice.
-/
import Deduction.Toml.Basic

namespace Deduction.Toml

/-- A statement of a document. -/
inductive Statement where
  /-- `[a.b.c]` -/
  | table (outer : List String) (key : String)
  /-- `[[a.b.c]]` -/
  | arrayTable (outer : List String) (key : String)
  /-- `a.b.c = v` -/
  | pair (outer : List String) (key : String) (v : Value)

/-- Changes the table that is reached from `es` through the keys of a header.
    Missing tables on the way are created; in an array of tables the way leads
    through the last one. -/
def atHeader (f : Entries → Option Entries) : List String → Entries → Option Entries
  | [], es => f es
  | key :: keys, es =>
    match es.lookup key with
    | none => do return es.set key (.table .implicit (← atHeader f keys []))
    | some (.table .inline _) => none
    | some (.table origin inner) => do return es.set key (.table origin (← atHeader f keys inner))
    | some (.tables (last :: items)) => do
      return es.set key (.tables ((← atHeader f keys last) :: items))
    | some _ => none

/-- Sets a key that is not set yet. -/
def setNew (key : String) (v : Value) (es : Entries) : Option Entries :=
  if (es.lookup key).isSome then none else some (es.set key v)

/-- Sets a new key in the table that is reached from `es` through a dotted key.
    No table on the way has a header of its own, and the last one comes from a
    dotted key. -/
def atDotted (key : String) (v : Value) : List String → Entries → Option Entries
  | [], es => setNew key v es
  | k :: keys, es =>
    match es.lookup k with
    | none => do return es.set k (.table .dotted (← atDotted key v keys []))
    | some (.table .dotted inner) => do return es.set k (.table .dotted (← atDotted key v keys inner))
    | some (.table .implicit inner) =>
      if keys.isEmpty then none
      else do return es.set k (.table .implicit (← atDotted key v keys inner))
    | some (.tables (last :: items)) =>
      if keys.isEmpty then none
      else do return es.set k (.tables ((← atDotted key v keys last) :: items))
    | some _ => none

/-- Defines the table `key` by a header. -/
def openTable (key : String) (es : Entries) : Option Entries :=
  match es.lookup key with
  | none => some (es.set key (.table .header []))
  | some (.table .implicit inner) => some (es.set key (.table .header inner))
  | some _ => none

/-- Adds a table to the array of tables `key`. -/
def addTable (key : String) (es : Entries) : Option Entries :=
  match es.lookup key with
  | none => some (es.set key (.tables [[]]))
  | some (.tables items) => some (es.set key (.tables ([] :: items)))
  | some _ => none

/-- What has been read: the whole document and the path of the table that is
    open. -/
structure State where
  root : Entries
  path : List String

/-- Carries out a statement. -/
def State.step (s : State) : Statement → Option State
  | .table outer key => do
    return ⟨← atHeader (openTable key) outer s.root, outer ++ [key]⟩
  | .arrayTable outer key => do
    return ⟨← atHeader (addTable key) outer s.root, outer ++ [key]⟩
  | .pair outer key v => do
    return { s with root := ← atHeader (atDotted key v outer) s.path s.root }

/-- The table that a list of statements defines. -/
def build? (statements : List Statement) : Option Entries := do
  let s ← statements.foldlM State.step ⟨[], []⟩
  return s.root

/-- The table that pairs between braces define. -/
def inlineTable? (pairs : List (List String × String × Value)) : Option Value := do
  let es ← pairs.foldlM (fun es p => atDotted p.2.1 p.2.2 p.1 es) []
  return .table .inline es

end Deduction.Toml
