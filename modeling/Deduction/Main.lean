/-
  The program.

  The command is run on the files of the system.
-/
import Deduction.Command.Basic

namespace Deduction

/-- The file error that the system has raised. -/
def FileError.ofSystem : IO.Error → FileError
  | .noFileOrDirectory .. => .missing
  | .permissionDenied .. => .denied
  | .alreadyExists .. => .alreadyExists
  | .inappropriateType _ code _ => if code = 20 then .notADirectory else .isADirectory
  | e => ⟨.other, toString e⟩

/-- Runs an operation on files. -/
def attempt {α : Type} (act : IO α) : IO (Except FileError α) := do
  try return .ok (← act)
  catch e => return .error (.ofSystem e)

instance : Host IO where
  fileExists path := return (← attempt (IO.FS.realPath path)).isOk
  readText path := do
    match ← attempt (IO.FS.readBinFile path) with
    | .error e => return .error e
    | .ok bytes =>
      match String.fromUTF8? bytes with
      | some s => return .ok s
      | none => return .error .notText
  writeText path text := attempt (IO.FS.writeFile path text)
  createDirectories path := attempt (IO.FS.createDirAll path)
  print text := do
    let out ← IO.getStdout
    out.putStr text
    out.flush
  printError text := do (← IO.getStderr).putStr text

/-- The environment variables that the command looks at. -/
def Command.variables : List String :=
  ["HOME", "XDG_CONFIG_HOME", "RUST_LOG", "NO_COLOR", "PROOFC_FORMAT", "PROOFC_LOG_LEVEL", "PROOFC_OPTIMIZE",
    "PROOFC_OUTPUT_DIR", "PROOFC_LATEX_DOCUMENT"]

end Deduction

open Deduction in
/-- Runs the command with the arguments and the environment of the process. -/
def main (args : List String) : IO UInt32 := do
  let values ← Command.variables.mapM fun x => return (x, ← IO.getEnv x)
  let status ← Command.run ⟨fun x => (values.lookup x).join, none⟩ args
  return status.toUInt32
