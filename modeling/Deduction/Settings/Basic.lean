/-
  Settings.

  The defaults can be changed by a file, by environment variables and, last, by
  the command line.

  * `Settings.ofToml?` and `Settings.toToml`: the file format;
  * `Settings.override`: the environment variables, in a fixed order, up to the
    first one with a value that is not understood.
-/
import Deduction.OutputFormat
import Deduction.Toml.Parser
import Deduction.Toml.Writer

namespace Deduction

/-- How much is logged. -/
inductive LogLevel where
  | quiet
  | normal
  | verbose
  | debug
  deriving DecidableEq

namespace LogLevel

/-- The name of a level. -/
def name : LogLevel → String
  | quiet => "quiet"
  | normal => "normal"
  | verbose => "verbose"
  | debug => "debug"

/-- The level with exactly this name. -/
def ofName? (s : String) : Option LogLevel :=
  [quiet, normal, verbose, debug].find? fun l => l.name = s

/-- The level that a user means, in any casing, by its name or its initial. -/
def read? (s : String) : Option LogLevel :=
  let s := String.ofList (Text.lower s.toList)
  if s ∈ ["quiet", "q"] then some quiet
  else if s ∈ ["normal", "n"] then some normal
  else if s ∈ ["verbose", "v"] then some verbose
  else if s ∈ ["debug", "d"] then some debug
  else none

/-- The least severity that is logged, by its name. -/
def filter : LogLevel → String
  | quiet => "error"
  | normal => "warn"
  | verbose => "info"
  | debug => "debug"

end LogLevel

/-- The settings. -/
structure Settings where
  /-- The format of the output. -/
  format : OutputFormat
  logLevel : LogLevel
  /-- Whether lines that are not needed are dropped. -/
  optimize : Bool
  /-- Whether every proof is checked as an equivalence proof. -/
  equivalenceOnly : Bool
  /-- Where output files go; otherwise they stand beside the input. -/
  directory : Option String
  /-- Whether LaTeX comes as an article of its own. -/
  latexDocument : Bool
  deriving DecidableEq

/-- Why settings could not be used. -/
inductive SettingsError where
  /-- The file could not be read. -/
  | unreadable (path message : String)
  /-- The text is not a document with settings. -/
  | malformed (path message : String)
  /-- The settings could not be written. -/
  | unwritable (message : String)
  /-- A variable has a value that is not understood. -/
  | invalidValue (key value : String)
  deriving DecidableEq

/-- The wording of a settings error. -/
def SettingsError.message : SettingsError → String
  | unreadable path message => "IO error reading " ++ path ++ ": " ++ message
  | malformed path message => "Parse error in " ++ path ++ ": " ++ message
  | unwritable message => "Serialization error: " ++ message
  | invalidValue key value => "Invalid value for " ++ key ++ ": '" ++ value ++ "'"

namespace Settings

/-- The default settings. -/
def default : Settings where
  format := .latex
  logLevel := .normal
  optimize := true
  equivalenceOnly := false
  directory := none
  latexDocument := true

/-! ## Files -/

/-- The values of the named fields of a section.  A section is a table, in which
    other keys are ignored, or an array that lists the values in order.  A date
    or time passes for a table without any of the fields. -/
def sectionFields? (names : List String) : Toml.Value → Option (List (Option Toml.Value))
  | .table _ entries => some (names.map fun name => entries.lookup name)
  | .array items => some ((List.range names.length).map fun i => items[i]?)
  | .tables items =>
    some ((List.range names.length).map fun i => (items.reverse.map (.table .header ·))[i]?)
  | .moment _ => some (names.map fun _ => none)
  | _ => none

/-- Whether a value has nothing in it. -/
def isEmptyValue : Toml.Value → Bool
  | .array items => items.isEmpty
  | .table _ entries => entries.isEmpty
  | .tables items => items.isEmpty
  | _ => false

/-- The name of a choice: a string, or a table whose only key is the name and has
    nothing in it. -/
def choiceName? : Toml.Value → Option String
  | .string s => some s
  | .table _ [(s, v)] => if isEmptyValue v then some s else none
  | _ => none

/-- A boolean. -/
def boolean? : Toml.Value → Option Bool
  | .boolean b => some b
  | _ => none

/-- A string. -/
def string? : Toml.Value → Option String
  | .string s => some s
  | _ => none

/-- The value of a field, or the default if the field is absent. -/
def fieldOr {α : Type} (read : Toml.Value → Option α) (default : α) : Option Toml.Value → Option α
  | none => some default
  | some v => read v

/-- Takes over the section on what is written and logged. -/
def readGeneral? (s : Settings) (v : Toml.Value) : Option Settings := do
  match ← sectionFields? ["format", "log_level"] v with
  | [format, logLevel] =>
    let format ← fieldOr (fun v => (choiceName? v).bind OutputFormat.ofName?) s.format format
    let logLevel ← fieldOr (fun v => (choiceName? v).bind LogLevel.ofName?) s.logLevel logLevel
    return { s with format, logLevel }
  | _ => none

/-- Takes over the section on checking. -/
def readChecker? (s : Settings) (v : Toml.Value) : Option Settings := do
  match ← sectionFields? ["optimize", "equivalence_rules_only"] v with
  | [optimize, equivalenceOnly] =>
    let optimize ← fieldOr boolean? s.optimize optimize
    let equivalenceOnly ← fieldOr boolean? s.equivalenceOnly equivalenceOnly
    return { s with optimize, equivalenceOnly }
  | _ => none

/-- Takes over the section on output files. -/
def readOutput? (s : Settings) (v : Toml.Value) : Option Settings := do
  match ← sectionFields? ["directory", "latex_document"] v with
  | [directory, latexDocument] =>
    let directory ← fieldOr (fun v => (string? v).map some) s.directory directory
    let latexDocument ← fieldOr boolean? s.latexDocument latexDocument
    return { s with directory, latexDocument }
  | _ => none

/-- The settings that a document writes; what it leaves out has its default. -/
def ofToml? (source : String) : Option Settings := do
  let entries ← Toml.parse? source
  let s := default
  let s ← fieldOr s.readGeneral? s (entries.lookup "general")
  let s ← fieldOr s.readChecker? s (entries.lookup "checker")
  fieldOr s.readOutput? s (entries.lookup "output")

/-- The spelling of a boolean. -/
def boolText (b : Bool) : String := if b then "true" else "false"

/-- The document of the settings. -/
def toToml (s : Settings) : String :=
  "[general]\nformat = " ++ Toml.quote s.format.name ++
  "\nlog_level = " ++ Toml.quote s.logLevel.name ++
  "\n\n[checker]\noptimize = " ++ boolText s.optimize ++
  "\nequivalence_rules_only = " ++ boolText s.equivalenceOnly ++
  "\n\n[output]\n" ++
  (match s.directory with
    | some d => "directory = " ++ Toml.quote d ++ "\n"
    | none => "") ++
  "latex_document = " ++ boolText s.latexDocument ++ "\n"

/-- Reads the settings of a document that came from `path`. -/
def load (path source : String) : Except SettingsError Settings :=
  match ofToml? source with
  | some s => .ok s
  | none => .error (.malformed path "TOML parse error")

/-- A settings file with comments, in which everything has its default. -/
def template : String :=
  "# proofc configuration file\n" ++
  "# Place this file at ./proofc.toml or ~/.config/proofc/config.toml\n" ++
  "\n" ++
  "[general]\n" ++
  "# Output format: text, latex, json\n" ++
  "format = \"latex\"\n" ++
  "# Logging level: quiet, normal, verbose, debug\n" ++
  "log_level = \"normal\"\n" ++
  "\n" ++
  "[checker]\n" ++
  "# Drop lines the conclusion does not depend on and renumber the rest\n" ++
  "optimize = true\n" ++
  "# Check every input as an equivalence proof\n" ++
  "equivalence_rules_only = false\n" ++
  "\n" ++
  "[output]\n" ++
  "# Directory for generated files (default: next to the input file)\n" ++
  "# directory = \"out\"\n" ++
  "# Wrap LaTeX output in a standalone article\n" ++
  "latex_document = true\n"

/-! ## Environment variables -/

/-- The boolean that a user means, in any casing. -/
def readBool? (s : String) : Option Bool :=
  let s := String.ofList (Text.lower s.toList)
  if s ∈ ["1", "true", "yes", "on"] then some true
  else if s ∈ ["0", "false", "no", "off"] then some false
  else none

/-- Takes over the value of a variable if it is set. -/
def overrideBy {α : Type} (env : String → Option String) (key : String) (read : String → Option α)
    (set : Settings → α → Settings) (s : Settings) : Settings × Except SettingsError Unit :=
  match env key with
  | none => (s, .ok ())
  | some value =>
    match read value with
    | some a => (set s a, .ok ())
    | none => (s, .error (.invalidValue key value))

/-- Takes over the environment variables, in order.  At a value that is not
    understood the remaining ones are left out. -/
def override (env : String → Option String) (s : Settings) : Settings × Except SettingsError Unit :=
  let steps : List (Settings → Settings × Except SettingsError Unit) := [
    overrideBy env "PROOFC_FORMAT" OutputFormat.read? fun s format => { s with format },
    overrideBy env "PROOFC_LOG_LEVEL" LogLevel.read? fun s logLevel => { s with logLevel },
    overrideBy env "PROOFC_OPTIMIZE" readBool? fun s optimize => { s with optimize },
    overrideBy env "PROOFC_OUTPUT_DIR" some fun s d =>
      { s with directory := if d.isEmpty then none else some d },
    overrideBy env "PROOFC_LATEX_DOCUMENT" readBool? fun s latexDocument =>
      { s with latexDocument }]
  steps.foldl
    (fun
      | (s, .ok ()), step => step s
      | (s, .error e), _ => (s, .error e))
    (s, .ok ())

end Settings

end Deduction
