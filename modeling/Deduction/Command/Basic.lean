/-
  The command.

  The settings come from a file, then from the environment, then from the
  arguments.  Each input file is compiled on its own; the exit status is that
  of the first error.

  * `loadSettings`: the settings of a directory and its user;
  * `compileToFile`: one input file;
  * `run`: the whole command.
-/
import Deduction.Command.Arguments
import Deduction.Command.Host
import Deduction.Compilation
import Deduction.Layout.Basic
import Deduction.Log.Filter
import Deduction.Rule.Standard
import Deduction.Settings.Location

namespace Deduction.Command

variable {m : Type → Type} [Monad m] [Host m]

/-- Logs an event. -/
def log (l : Logger) (e : Event) : m Unit := Host.printError (l.text e)

/-! ## Settings -/

/-- Reads a settings file. -/
def readSettings (path : String) : ExceptT SettingsError m Settings := do
  match ← Host.readText (m := m) path with
  | .ok source => Settings.load path source
  | .error e => throw (.unreadable path e.message)

/-- Takes over the environment variables. -/
def applyEnvironment (env : Environment) (s : Settings) : ExceptT SettingsError m Settings :=
  match s.override env.value? with
  | (s, .ok ()) => return s
  | (_, .error e) => throw e

/-- The settings of the first settings file that exists, with the environment
    variables. -/
def loadSettings (env : Environment) : ExceptT SettingsError m Settings := do
  match ← (Settings.locations env).findM? (m := m) Host.fileExists with
  | some path => applyEnvironment env (← readSettings path)
  | none => applyEnvironment env .default

/-- The settings with what the arguments ask for.  Silence wins over talk. -/
def applyArguments (a : Arguments) (s : Settings) : Settings where
  format := a.format?.getD s.format
  logLevel :=
    if a.has .quiet then .quiet else if a.has .verbose then .verbose else s.logLevel
  optimize := s.optimize && !a.has .noOptimize
  equivalenceOnly := s.equivalenceOnly
  directory := (a.value? .outputDirectory).or s.directory
  latexDocument := s.latexDocument

/-- The logger of a run.  The filter of the environment, if it has one that can
    be read, takes the place of the log level.  Lines are colored unless a
    variable with a value forbids it. -/
def loggerOf (env : Environment) (s : Settings) : Logger where
  filter := ((env.value? "RUST_LOG").bind Filter.parse?).getD (.ofLogLevel s.logLevel)
  colored := (env.value? "NO_COLOR").all (·.isEmpty)

/-! ## Input files -/

/-- How input files are compiled. -/
structure Compiler where
  catalog : Catalog
  settings : Settings
  logger : Logger

namespace Compiler

/-- Logs what the compiler does. -/
def info (c : Compiler) (message : String) : m Unit := log c.logger ⟨.info, .compiler, message, []⟩

/-- Turns a file error into a report with its place. -/
def located {α : Type} (path : String) (result : m (Except FileError α)) : ExceptT Report m α := do
  match ← (result : m _) with
  | .ok a => return a
  | .error e => throw ((Report.ofFileError e).located path)

/-- Reads and compiles a file. -/
def compileFile (c : Compiler) (path : String) : ExceptT Report m Compilation := do
  c.info (m := m) ("compiling '" ++ path ++ "'...")
  let source ← located path (Host.readText (m := m) path)
  for e in journal c.catalog c.settings source do log (m := m) c.logger e
  match compile c.catalog c.settings source with
  | .error r => throw (r.located path)
  | .ok compilation =>
    c.info (m := m) ("'" ++ path ++ "' compilation complete")
    return compilation

/-- Writes a compiled proof in the format of the settings. -/
def render (c : Compiler) (compilation : Compilation) : String :=
  compilation.proof.render c.settings.format c.settings.latexDocument

/-- Compiles a file and writes the result to a file, whose path is returned. -/
def compileToFile (c : Compiler) (input : String) : ExceptT Report m String := do
  let text := c.render (← c.compileFile input)
  let path := outputPath c.settings input c.settings.format
  match Path.parent? path with
  | some parent =>
    unless parent.isEmpty do located parent (Host.createDirectories (m := m) parent)
  | none => pure ()
  located path (Host.writeText (m := m) path text)
  c.info (m := m) ("wrote '" ++ path ++ "'")
  return path

/-- Checks a file. -/
def checkFile (c : Compiler) (path : String) : ExceptT Report m Unit := do
  let compilation ← c.compileFile path
  let needed := toString compilation.proof.lines.length
  let total := toString compilation.sourceLines
  log (m := m) c.logger ⟨.info, .commandLine,
    "'" ++ path ++ "' is valid (" ++ needed ++ " of " ++ total ++ " lines needed)", []⟩

/-- Does with a file what the arguments ask for. -/
def processFile (c : Compiler) (a : Arguments) (path : String) : ExceptT Report m Unit := do
  if a.has .check then c.checkFile path
  else if a.has .stdout then Host.print (m := m) (c.render (← c.compileFile path))
  else discard (c.compileToFile path)

/-- Processes files one after the other and reports their errors.  The result is
    the exit status. -/
def processFiles (c : Compiler) (a : Arguments) : (status : Nat) → (paths : List String) → m Nat
  | status, [] => return status
  | status, path :: paths => do
    match ← (c.processFile a path).run with
    | .ok () => c.processFiles a status paths
    | .error r =>
      log c.logger ⟨.debug, .commandLine, r.toJson.compress, []⟩
      Host.printError (r.code.category ++ ": " ++ r.text ++ "\n")
      c.processFiles a (if status = 0 then r.code.exitStatus else status) paths

end Compiler

/-! ## The command -/

/-- Why the command could not go on. -/
structure Failure where
  /-- What was being done. -/
  context : Option String
  message : String
  deriving DecidableEq

/-- What is printed of a failure.  Under a context, all lines of the message are
    indented. -/
def Failure.text (f : Failure) : String :=
  match f.context with
  | some c =>
    "Error: " ++ c ++ "\n\nCaused by:\n    " ++ "\n    ".intercalate (f.message.splitOn "\n") ++ "\n"
  | none => "Error: " ++ f.message ++ "\n"

/-- Turns a settings error into a failure. -/
def orFail {α : Type} (context : Option String) (act : ExceptT SettingsError m α) :
    ExceptT Failure m α :=
  act.adapt fun e => ⟨context, e.message⟩

/-- The settings of a run: those of the file that the arguments name, or else of
    the first one that exists. -/
def runSettings (env : Environment) (a : Arguments) : ExceptT Failure m Settings := do
  let s ← match a.value? .settingsFile with
    | some path =>
      let s ← orFail (some ("Failed to load config: " ++ path)) (readSettings path)
      orFail none (applyEnvironment env s)
    | none => orFail (some "Failed to load configuration") (loadSettings env)
  return applyArguments a s

/-- Writes a commented settings file, unless there is one. -/
def writeTemplate : ExceptT Failure m Unit := do
  let path := Settings.localFile
  if ← Host.fileExists (m := m) path then throw ⟨none, path ++ " already exists"⟩
  match ← Host.writeText (m := m) path Settings.template with
  | .ok () => Host.print (m := m) ("Wrote " ++ path ++ "\n")
  | .error e => throw ⟨some ("Failed to write " ++ path), e.message⟩

/-- The list of the rules of a catalog. -/
def ruleList (c : Catalog) : String :=
  let names (equivalence : Bool) : String :=
    String.join ((c.entries.filter fun e => e.2.isEquivalence = equivalence).map fun e =>
      "  " ++ RuleName.titleCase e.1 ++ "\n")
  "Inference rules:\n" ++ names false ++ "Equivalence rules:\n" ++ names true

/-- Does what the arguments ask for.  The result is the exit status. -/
def execute (env : Environment) (a : Arguments) : ExceptT Failure m Nat := do
  let s ← runSettings env a
  let c : Compiler := ⟨.standard, s, loggerOf env s⟩
  log (m := m) c.logger ⟨.debug, .commandLine, "effective configuration:\n" ++ s.toToml, []⟩
  if a.has .initConfig then
    writeTemplate
    return 0
  else if a.has .listRules then
    Host.print (m := m) (ruleList c.catalog)
    return 0
  else if a.files.isEmpty then throw ⟨none, "no input files"⟩
  else c.processFiles (m := m) a 0 a.files

/-- Runs the command.  The result is the exit status. -/
def run (env : Environment) (args : List String) : m Nat := do
  match Arguments.parse args with
  | .error (.help detailed) => Host.print (Arguments.helpText detailed); return 0
  | .error .version => Host.print Arguments.versionText; return 0
  | .error (.misuse reason) => Host.printError (Arguments.misuseText reason); return 2
  | .ok a =>
    match ← (execute env a).run with
    | .ok status => return status
    | .error f => Host.printError f.text; return 1

end Deduction.Command
