/-
  The arguments of the command.

  Arguments are read from left to right.  A flag stands alone, a parameter has
  a value, and every other argument is an input file.  None of the flags and
  parameters may be repeated.

  * `Arguments.parse`: the arguments, or why there is nothing to run.
-/
import Deduction.OutputFormat

namespace Deduction

/-- The flags of the command. -/
inductive Flag where
  /-- Print the output instead of writing files. -/
  | stdout
  /-- Write nothing. -/
  | check
  /-- Keep all lines and their numbers. -/
  | noOptimize
  | verbose
  | quiet
  | listRules
  | initConfig
  deriving DecidableEq

/-- The parameters of the command. -/
inductive Parameter where
  | format
  | outputDirectory
  | settingsFile
  deriving DecidableEq

/-- What can stand after dashes. -/
inductive Switch where
  | flag (f : Flag)
  | parameter (p : Parameter)
  | help (detailed : Bool)
  | version
  deriving DecidableEq

namespace Switch

/-- The switch with the given long name. -/
def ofName? : String → Option Switch
  | "format" => some (.parameter .format)
  | "output-dir" => some (.parameter .outputDirectory)
  | "config" => some (.parameter .settingsFile)
  | "stdout" => some (.flag .stdout)
  | "check" => some (.flag .check)
  | "no-optimize" => some (.flag .noOptimize)
  | "verbose" => some (.flag .verbose)
  | "quiet" => some (.flag .quiet)
  | "list-rules" => some (.flag .listRules)
  | "init-config" => some (.flag .initConfig)
  | "help" => some (.help true)
  | "version" => some .version
  | _ => none

/-- The switch with the given letter. -/
def ofLetter? : Char → Option Switch
  | 'f' => some (.parameter .format)
  | 'o' => some (.parameter .outputDirectory)
  | 'c' => some (.parameter .settingsFile)
  | 'v' => some (.flag .verbose)
  | 'q' => some (.flag .quiet)
  | 'h' => some (.help false)
  | 'V' => some .version
  | _ => none

end Switch

/-- The arguments of a run. -/
structure Arguments where
  flags : List Flag
  values : List (Parameter × String)
  files : List String
  deriving DecidableEq

namespace Arguments

/-- Why there is nothing to run. -/
inductive Stop where
  | help (detailed : Bool)
  | version
  | misuse (reason : String)
  deriving DecidableEq

/-- No arguments. -/
def empty : Arguments := ⟨[], [], []⟩

/-- Whether a flag is given. -/
def has (a : Arguments) (f : Flag) : Bool := a.flags.contains f

/-- The value of a parameter. -/
def value? (a : Arguments) (p : Parameter) : Option String := a.values.lookup p

/-- The output format that is asked for. -/
def format? (a : Arguments) : Option OutputFormat := (a.value? .format).bind OutputFormat.ofName?

/-- Adds an input file, whose path is not empty. -/
def addFile (a : Arguments) (path : String) : Except Stop Arguments :=
  if path.isEmpty then .error (.misuse "a value is required for '[FILE]...' but none was supplied")
  else .ok { a with files := a.files ++ [path] }

/-- Gives a switch that has no value. -/
def turn (a : Arguments) : Switch → Except Stop Arguments
  | .flag f =>
    if a.has f then .error (.misuse "an argument cannot be used multiple times")
    else .ok { a with flags := f :: a.flags }
  | .parameter _ => .error (.misuse "a value is required but none was supplied")
  | .help detailed => .error (.help detailed)
  | .version => .error .version

/-- Whether a parameter can have a value. -/
def accepts (p : Parameter) (value : String) : Bool :=
  match p with
  | .format => (OutputFormat.ofName? value).isSome
  | .outputDirectory | .settingsFile => !value.isEmpty

/-- Gives a parameter its value. -/
def assign (a : Arguments) (p : Parameter) (value : String) : Except Stop Arguments :=
  if !accepts p value then .error (.misuse ("invalid value '" ++ value ++ "'"))
  else if (a.value? p).isSome then .error (.misuse "an argument cannot be used multiple times")
  else .ok { a with values := (p, value) :: a.values }

/-- Reads letters after a single dash.  A parameter takes the rest as its value,
    from which an equals sign is dropped; without a rest, it is returned and
    takes the next argument. -/
def readLetters (a : Arguments) : List Char → Except Stop (Arguments × Option Parameter)
  | [] => .ok (a, none)
  | c :: cs =>
    match Switch.ofLetter? c with
    | none => .error (.misuse ("unexpected argument '-" ++ String.ofList [c] ++ "' found"))
    | some (.parameter p) =>
      match cs with
      | [] => .ok (a, some p)
      | '=' :: value | value => do return (← a.assign p (String.ofList value), none)
    | some s => do (← a.turn s).readLetters cs

/-- Reads a long name with what follows an equals sign.  A parameter without a
    value is returned and takes the next argument. -/
def readName (a : Arguments) (cs : List Char) : Except Stop (Arguments × Option Parameter) :=
  let name := String.ofList (cs.takeWhile (· ≠ '='))
  match Switch.ofName? name, cs.dropWhile (· ≠ '=') with
  | some (.parameter p), [] => .ok (a, some p)
  | some (.parameter p), _ :: value => do return (← a.assign p (String.ofList value), none)
  | some s, [] => do return (← a.turn s, none)
  | some _, _ => .error (.misuse ("unexpected value for '--" ++ name ++ "' found"))
  | none, _ => .error (.misuse ("unexpected argument '--" ++ name ++ "' found"))

/-- Whether an argument begins with a dash and is more than that. -/
def isSwitch (arg : String) : Bool :=
  match arg.toList with
  | '-' :: _ :: _ => true
  | _ => false

/-- Reads what stands after a dash. -/
def readSwitch (a : Arguments) (arg : String) : Except Stop (Arguments × Option Parameter) :=
  match arg.toList with
  | '-' :: '-' :: cs => a.readName cs
  | cs => a.readLetters cs.tail

/-- Reads arguments; `awaiting` is a parameter that takes the next one as its
    value.  After two dashes all arguments are files. -/
def parseFrom (a : Arguments) : (awaiting : Option Parameter) → List String → Except Stop Arguments
  | none, [] => .ok a
  | some _, [] => .error (.misuse "a value is required but none was supplied")
  | some p, arg :: args =>
    if isSwitch arg then .error (.misuse "a value is required but none was supplied")
    else do (← a.assign p arg).parseFrom none args
  | none, arg :: args =>
    if arg = "--" then args.foldlM addFile a
    else if isSwitch arg then do
      let (a, awaiting) ← a.readSwitch arg
      a.parseFrom awaiting args
    else do (← a.addFile arg).parseFrom none args

/-- Reads the arguments of the command. -/
def parse (args : List String) : Except Stop Arguments := empty.parseFrom none args

/-! ## What the command tells about itself -/

/-- The name and version. -/
def versionText : String := "proofc 0.1.0\n"

/-- The form of a call. -/
def usage : String := "Usage: proofc [OPTIONS] [FILE]...\n"

/-- What is printed when arguments are misused. -/
def misuseText (reason : String) : String :=
  "error: " ++ reason ++ "\n\n" ++ usage ++ "\nFor more information, try '--help'.\n"

/-- An argument, as it is described: how it is written, what it does, and the
    values that it may have, each with a description. -/
structure Description where
  form : String
  purpose : String
  values : List (String × String) := []

/-- The descriptions of the flags and parameters. -/
def descriptions (detailed : Bool) : List Description := [
  ⟨"-f, --format <FORMAT>", "Output format (defaults to the configured format)",
    [("text", "Canonical proof text"), ("latex", "LaTeX proof environment"),
      ("json", "Nested JSON for MathJax")]⟩,
  ⟨"-o, --output-dir <DIR>", "Directory for generated files (defaults to beside each input)", []⟩,
  ⟨"    --stdout", "Print output instead of writing files", []⟩,
  ⟨"    --check", "Only check the proofs", []⟩,
  ⟨"    --no-optimize", "Keep every line and its original numbering", []⟩,
  ⟨"-c, --config <FILE>", "Configuration file", []⟩,
  ⟨"-v, --verbose", "Verbose output", []⟩,
  ⟨"-q, --quiet", "Quiet mode (errors only)", []⟩,
  ⟨"    --list-rules", "List the available rules and exit", []⟩,
  ⟨"    --init-config", "Write a commented proofc.toml to the current directory and exit", []⟩,
  ⟨"-h, --help", if detailed then "Print help (see a summary with '-h')"
    else "Print help (see more with '--help')", []⟩,
  ⟨"-V, --version", "Print version", []⟩]

/-- A text with blanks behind it, up to a width. -/
def padded (width : Nat) (s : String) : String :=
  s ++ String.ofList (List.replicate (width - s.length) ' ')

/-- A description in one line. -/
def Description.line (d : Description) : String :=
  let values := ", ".intercalate (d.values.map (·.1))
  "  " ++ padded 22 d.form ++ "  " ++ d.purpose ++
  (if d.values.isEmpty then "" else " [possible values: " ++ values ++ "]") ++ "\n"

/-- A description in a paragraph. -/
def Description.paragraph (d : Description) : String :=
  let values := d.values.map fun v => "          - " ++ padded 7 (v.1 ++ ":") ++ v.2 ++ "\n"
  "  " ++ d.form ++ "\n          " ++ d.purpose ++ "\n" ++
  (if d.values.isEmpty then "" else "\n          Possible values:\n" ++ String.join values)

/-- The description of all arguments, in short or in detail. -/
def helpText (detailed : Bool) : String :=
  "Check, compact and typeset propositional logic proofs\n\n" ++ usage ++ "\nArguments:\n" ++
  (if detailed then
    "  [FILE]...\n          Proof files to compile\n\nOptions:\n" ++
    "\n".intercalate ((descriptions true).map Description.paragraph)
  else
    "  [FILE]...  Proof files to compile\n\nOptions:\n" ++
    String.join ((descriptions false).map Description.line))

end Arguments

end Deduction
