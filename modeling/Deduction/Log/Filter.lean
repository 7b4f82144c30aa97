/-
  Which events are logged.

  A filter is a list of directives.  On an event decides the most specific of
  those that concern it.

  * `Filter.parse?`: directives between commas;
  * `Filter.allows`: the decision on an event;
  * `Logger`: a filter, and how lines are written.
-/
import Deduction.Log.Directive
import Deduction.Settings.Basic

namespace Deduction

/-- Which events are logged. -/
structure Filter where
  directives : List Directive
  deriving DecidableEq

namespace Filter

/-- Nothing is logged. -/
def silent : Filter := ⟨[]⟩

/-- Everything from a severity on is logged. -/
def atLeast (s : Severity) : Filter := ⟨[⟨none, none, false, some s⟩]⟩

/-- The filter of a log level. -/
def ofLogLevel : LogLevel → Filter
  | .quiet => atLeast .error
  | .normal => atLeast .warn
  | .verbose => atLeast .info
  | .debug => atLeast .debug

/-- The filter that a text writes.  A text without directives lets errors
    pass. -/
def parse? (s : String) : Option Filter := do
  let parts := (s.splitOn ",").filter (!·.isEmpty)
  let directives ← parts.mapM Directive.parse?
  return if directives.isEmpty then atLeast .error else ⟨directives⟩

/-- The directive that decides on an event: the most specific one, and of equally
    specific ones the last. -/
def deciding? (f : Filter) (e : Event) : Option Directive :=
  (f.directives.filter (·.concerns e)).foldl
    (fun best d => if best.all d.covers then some d else best)
    none

/-- Whether an event is logged. -/
def allows (f : Filter) (e : Event) : Bool :=
  match (f.deciding? e).bind (·.threshold) with
  | some least => least.rank ≤ e.severity.rank
  | none => false

end Filter

/-- Which events are logged and how they are written. -/
structure Logger where
  filter : Filter
  colored : Bool
  deriving DecidableEq

/-- Nothing is logged. -/
def Logger.silent : Logger := ⟨.silent, false⟩

/-- What is logged of an event. -/
def Logger.text (l : Logger) (e : Event) : String :=
  if l.filter.allows e then e.text l.colored else ""

end Deduction
