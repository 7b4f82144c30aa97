/-
  Events that can be logged.

  A line of the log shows the severity and the component of an event, its
  message and its figures, possibly with colors.  Characters that a terminal
  would take for commands are shown by escapes.
-/

namespace Deduction

/-- How severe an event is. -/
inductive Severity where
  | trace
  | debug
  | info
  | warn
  | error
  deriving DecidableEq

namespace Severity

/-- The rank of a severity; a higher one is more severe. -/
def rank : Severity → Nat
  | trace => 0
  | debug => 1
  | info => 2
  | warn => 3
  | error => 4

/-- The mark of a severity at the beginning of a line, five columns wide. -/
def mark : Severity → String
  | trace => "TRACE"
  | debug => "DEBUG"
  | info => " INFO"
  | warn => " WARN"
  | error => "ERROR"

/-- The code of the color of a severity. -/
def color : Severity → String
  | trace => "35"
  | debug => "34"
  | info => "32"
  | warn => "33"
  | error => "31"

end Severity

/-- The part of the program in which an event occurs. -/
inductive Component where
  | commandLine
  | compiler
  | checker
  | optimizer
  deriving DecidableEq

/-- The name of a component in the log. -/
def Component.name : Component → String
  | commandLine => "proofc"
  | compiler => "proofc::compiler"
  | checker => "proofc::checker"
  | optimizer => "proofc::optimizer"

/-- An event: what happened where, and figures that belong to it. -/
structure Event where
  severity : Severity
  component : Component
  message : String
  figures : List (String × Nat) := []
  deriving DecidableEq

namespace Event

/-- Whether an event has a field: its message, or a figure. -/
def hasField (e : Event) (name : String) : Bool :=
  name = "message" || e.figures.any (·.1 = name)

/-! ## Lines of the log -/

/-- A hexadecimal number. -/
def hexText (n : Nat) : String := String.ofList (Nat.toDigits 16 n)

/-- A character of a message.  Of the control characters, those that move the
    cursor in or between lines stand for themselves. -/
def escapeChar (c : Char) : String :=
  if c.toNat ∈ [0x1B, 0x7F] then "\\x" ++ hexText c.toNat
  else if c.toNat ∈ [0x07, 0x08, 0x0C] then "\\x0" ++ hexText c.toNat
  else if 0x80 ≤ c.toNat && c.toNat ≤ 0x9F then "\\u\x7b" ++ hexText c.toNat ++ "\x7d"
  else String.ofList [c]

/-- A message without commands for the terminal. -/
def escape (message : String) : String := String.join (message.toList.map escapeChar)

/-- A text in a style, which is given by its code. -/
def paint (colored : Bool) (style text : String) : String :=
  if colored then "\x1b[" ++ style ++ "m" ++ text ++ "\x1b[0m" else text

/-- The style of names, which stand out less. -/
def dimmed : String := "2"

/-- The style of the names of figures. -/
def italic : String := "3"

/-- The line of an event. -/
def text (e : Event) (colored : Bool) : String :=
  let figure (f : String × Nat) : String :=
    " " ++ paint colored italic f.1 ++ paint colored dimmed "=" ++ toString f.2
  paint colored e.severity.color e.severity.mark ++ " " ++
  paint colored dimmed e.component.name ++ paint colored dimmed ":" ++ " " ++ escape e.message ++
  String.join (e.figures.map figure) ++ "\n"

end Event

end Deduction
