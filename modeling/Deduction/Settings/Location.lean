/-
  Where settings files are looked for.
-/
import Deduction.Files.Path

namespace Deduction

/-- What a process is told by its surroundings. -/
structure Environment where
  /-- The value of a variable. -/
  value? : String → Option String
  /-- The directory of the account that runs the process. -/
  accountHome : Option String

namespace Environment

/-- The user's directory: the one that a variable names, or else that of the
    account. -/
def home? (e : Environment) : Option String :=
  ((e.value? "HOME").filter (!·.isEmpty)).or e.accountHome

/-- The directory for settings of all programs.  A path that does not start at
    the root is ignored. -/
def settingsDirectory? (e : Environment) : Option String :=
  match (e.value? "XDG_CONFIG_HOME").filter Path.isAbsolute with
  | some d => some d
  | none => e.home?.map (Path.join · ".config")

end Environment

namespace Settings

/-- The name of the settings file of a directory. -/
def localFile : String := "proofc.toml"

/-- The settings files that may exist, in the order in which they are tried. -/
def locations (e : Environment) : List String :=
  [localFile] ++
  (e.settingsDirectory?.map fun d => Path.join (Path.join d "proofc") "config.toml").toList ++
  (e.home?.map fun d => Path.join (Path.join d ".proofc") "config.toml").toList ++
  ["/etc/proofc/config.toml"]

end Settings

end Deduction
