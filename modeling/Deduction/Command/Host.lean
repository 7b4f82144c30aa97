/-
  What the command needs from its surroundings.

  * `Host`: files and the two output channels, in any monad;
  * `Workspace`: the surroundings as a value.
-/
import Deduction.Files.Tree

namespace Deduction

/-- Operations on files and output channels. -/
class Host (m : Type → Type) where
  fileExists (path : String) : m Bool
  readText (path : String) : m (Except FileError String)
  writeText (path text : String) : m (Except FileError Unit)
  createDirectories (path : String) : m (Except FileError Unit)
  print (text : String) : m Unit
  printError (text : String) : m Unit

/-- Files, and what has been printed so far. -/
structure Workspace where
  files : FileTree
  output : String
  errors : String

/-- Operations on a workspace. -/
abbrev WorkspaceM := StateM Workspace

instance : Host WorkspaceM where
  fileExists path := return (← get).files.contains path
  readText path := return (← get).files.readText path
  writeText path text := do
    match (← get).files.writeText path text with
    | .ok files => modify fun w => { w with files }; return .ok ()
    | .error e => return .error e
  createDirectories path := do
    let (files, result) := (← get).files.createDirectories path
    modify fun w => { w with files }
    return result
  print text := modify fun w => { w with output := w.output ++ text }
  printError text := modify fun w => { w with errors := w.errors ++ text }

end Deduction
