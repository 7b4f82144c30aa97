/-
  Catalogs of rules.

  A catalog registers rules under names, in the order in which the names were
  first registered.  `Catalog.standard` is the catalog of the usual rules of
  propositional logic and Boolean algebra.
-/
import Deduction.Rule.Basic

namespace Deduction

/-- Rules under their names, in the order of registration. -/
structure Catalog where
  entries : List (String × Rule)
  deriving DecidableEq

namespace Catalog

/-- The catalog without rules. -/
def empty : Catalog := ⟨[]⟩

/-- The rule registered under exactly this name. -/
def get? (c : Catalog) (name : String) : Option Rule := c.entries.lookup name

/-- The equivalence rule registered under this name. -/
def getEquivalence? (c : Catalog) (name : String) : Option EquivalenceRule :=
  match c.get? name with
  | some (.equivalence r) => some r
  | _ => none

/-- Whether a name is registered. -/
def contains (c : Catalog) (name : String) : Bool := (c.get? name).isSome

/-- The number of names. -/
def size (c : Catalog) : Nat := c.entries.length

/-- The names in the order of registration. -/
def names (c : Catalog) : List String := c.entries.map (·.1)

/-- Registers a rule.  A name that is registered already keeps its place. -/
def insert (c : Catalog) (name : String) (rule : Rule) : Catalog :=
  if c.contains name then
    ⟨c.entries.map fun e => if e.1 = name then (name, rule) else e⟩
  else ⟨c.entries ++ [(name, rule)]⟩

/-- Registers the rule of `target` under a further name, if there is such a
    rule. -/
def alias? (c : Catalog) (name target : String) : Option Catalog :=
  (c.get? target).map (c.insert name)

end Catalog

end Deduction
