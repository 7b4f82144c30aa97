/-
  Directives of the log.

  A directive says from which severity on certain events are logged.  It is
  written as a target, a scope in brackets and a threshold, such as
  `proofc::checker[span{lines}]=debug`, where each part may be missing; without
  a threshold everything passes.  A threshold may also stand alone.

  The program opens no spans, so a directive with a span, or with a value that a
  field of a span has to have, concerns no event.
-/
import Deduction.Log.Event
import Deduction.Log.Pattern
import Deduction.Text.Alphanumeric

namespace Deduction

/-- From which severity on events are logged; without one, none is. -/
abbrev Threshold := Option Severity

namespace Threshold

/-- The threshold with a number, which counts how many severities pass. -/
def ofNumber? : Nat → Option Threshold
  | 0 => some none
  | 1 => some (some .error)
  | 2 => some (some .warn)
  | 3 => some (some .info)
  | 4 => some (some .debug)
  | 5 => some (some .trace)
  | _ => none

/-- The number that decimal digits write, possibly behind a plus sign. -/
def number? (s : List Char) : Option Nat :=
  let digits := match s with
    | '+' :: ds => ds
    | ds => ds
  if !digits.isEmpty && digits.all Char.isDigit then
    some (digits.foldl (fun n d => n * 10 + (d.toNat - '0'.toNat)) 0)
  else none

/-- The threshold that a text means: a number, or a word in any casing. -/
def read? (s : List Char) : Option Threshold :=
  match number? s with
  | some n => ofNumber? n
  | none =>
    match String.ofList (s.map Char.toLower) with
    | "off" => some none
    | "error" => some (some .error)
    | "warn" => some (some .warn)
    | "info" => some (some .info)
    | "debug" => some (some .debug)
    | "trace" => some (some .trace)
    | _ => none

/-- Everything passes. -/
def all : Threshold := some .trace

/-- The threshold behind an equals sign; nothing lets everything pass. -/
def readOrAll? (s : List Char) : Option Threshold := if s.isEmpty then some all else read? s

end Threshold

/-- A rule for some events. -/
structure Directive where
  /-- How the names of the components begin. -/
  target : Option String
  /-- A field that the events have. -/
  field : Option String
  /-- Whether only events in a span are meant. -/
  inSpan : Bool
  threshold : Threshold
  deriving DecidableEq

namespace Directive

/-- Whether a target may begin with a character. -/
def canBegin (c : Char) : Bool := Text.isAlphanumeric c || c ∈ ['-', ':', '_']

/-- A text without the blanks around it. -/
def trim (cs : List Char) : List Char :=
  (Text.trimStart (Text.trimStart cs).reverse).reverse

/-- The field that a text between braces names, and whether it asks for a value,
    which is a number or a regular expression. -/
def field? (s : List Char) : Option (String × Bool) :=
  if s.isEmpty then none
  else
    match (String.ofList s).splitOn "=" with
    | name :: value :: _ =>
      if Pattern.isNumeral value || Pattern.isPattern value then some (name, true) else none
    | _ => some (String.ofList s, false)

/-- How many characters come before the first one of the given ones. -/
def distance (stops : List Char) (cs : List Char) : Nat :=
  (cs.takeWhile (· ∉ stops)).length

/-- Reads the threshold, if the text goes on with an equals sign at `i`. -/
def readThreshold? (whole text : List Char) (i : Nat) (d : Directive) : Option Directive :=
  match text.drop i with
  | [] => some d
  | '=' :: _ => (Threshold.readOrAll? (whole.drop (i + 1))).map fun threshold => { d with threshold }
  | _ => none

/-- Reads the scope whose bracket opens at `i`, and what follows it. -/
def readScope? (whole text : List Char) (i : Nat) (target : Option String) : Option Directive :=
  let j := i + 1 + distance [']', '\x7b'] (text.drop (i + 1))
  match text.drop j with
  | ']' :: _ => readThreshold? whole text (j + 1) ⟨target, none, true, .all⟩
  | '\x7b' :: rest => do
    let k := j + 1 + distance ['\x7d'] rest
    let (name, hasValue) ← field? ((whole.drop (j + 1)).take (k - (j + 1)))
    match text.drop k with
    | '\x7d' :: ']' :: _ =>
      readThreshold? whole text (k + 2) ⟨target, some name, hasValue || i + 1 < j, .all⟩
    | _ => none
  | _ => none

/-- The directive that a text writes.  The places of its marks are counted
    without the blanks in front, but its parts are cut out of the whole text: so
    blanks in front shift all parts, and blanks at the end belong to the last
    one. -/
def parse? (s : String) : Option Directive :=
  let whole := s.toList
  let text := trim whole
  match text with
  | [] => none
  | '[' :: _ => readScope? whole text 0 none
  | c :: _ =>
    if canBegin c then
      let i := distance ['=', '['] text
      let target := String.ofList (whole.take i)
      match text.drop i with
      | [] =>
        match Threshold.read? whole with
        | some threshold => some ⟨none, none, false, threshold⟩
        | none => some ⟨some s, none, false, .all⟩
      | '[' :: _ => readScope? whole text i (some target)
      | _ => readThreshold? whole text i ⟨some target, none, false, .all⟩
    else none

/-- Whether a directive concerns an event. -/
def concerns (d : Directive) (e : Event) : Bool :=
  !d.inSpan &&
  d.target.all (fun t => t.toList.isPrefixOf e.component.name.toList) &&
  d.field.all e.hasField

/-- How specific a directive is: first by the length of its target, then by its
    field. -/
def specificity (d : Directive) : Nat × String :=
  (match d.target with
    | none => 0
    | some t => t.length + 1,
    d.field.getD "")

/-- Whether a directive is at least as specific as another one. -/
def covers (d d' : Directive) : Bool :=
  let (n, field) := d.specificity
  let (n', field') := d'.specificity
  n' < n || (n' = n && field' ≤ field)

end Directive

end Deduction
