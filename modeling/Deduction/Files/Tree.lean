/-
  File trees.

  A file tree maps places to files and directories.  A place is the list of
  names that lead to it from the root.  A path is followed name by name, and
  every name but the last has to lead to a directory.

  * `FileTree.resolve`: the place to which a path leads;
  * `readText`, `writeText`, `createDirectories`: the operations on files.
-/
import Deduction.Files.Error
import Deduction.Files.Path

namespace Deduction

/-- What stands at a place. -/
inductive FileNode where
  | file (bytes : ByteArray)
  | directory

instance : DecidableEq FileNode
  | .file a, .file b =>
    match ByteArray.instDecidableEq a b with
    | isTrue h => isTrue (congrArg FileNode.file h)
    | isFalse h => isFalse fun heq => h (FileNode.file.inj heq)
  | .directory, .directory => isTrue rfl
  | .file _, .directory | .directory, .file _ => isFalse nofun

/-- A file tree, and the place from which relative paths start. -/
structure FileTree where
  current : List String
  nodes : List (List String × FileNode)

namespace FileTree

/-- What stands at a place.  The root is a directory. -/
def node? (t : FileTree) (place : List String) : Option FileNode :=
  if place.isEmpty then some .directory else t.nodes.lookup place

/-- Puts something at a place. -/
def put (t : FileTree) (place : List String) (n : FileNode) : FileTree :=
  { t with nodes := (place, n) :: t.nodes.filter (·.1 ≠ place) }

/-- Puts something at a place, in directories that are made where nothing
    stands. -/
def plant (t : FileTree) (place : List String) (n : FileNode) : FileTree :=
  let parents := (List.range place.length).map place.take
  let t := parents.foldl (fun t p => if (t.node? p).isNone then t.put p .directory else t) t
  t.put place n

/-- The most bytes that a name may have. -/
def maxNameSize : Nat := 255

/-- The most bytes that a path may have. -/
def maxPathSize : Nat := 4095

/-- Follows names from a place.  Nothing needs to stand where the last one
    leads. -/
def walk (t : FileTree) (place : List String) : List String → Except FileError (List String)
  | [] => .ok place
  | name :: names =>
    match t.node? place with
    | none => .error .missing
    | some (.file _) => .error .notADirectory
    | some .directory =>
      if name = "" || name = "." then t.walk place names
      else if name = ".." then t.walk place.dropLast names
      else if maxNameSize < name.utf8ByteSize then .error .nameTooLong
      else t.walk (place ++ [name]) names

/-- The place to which a path leads. -/
def resolve (t : FileTree) (path : String) : Except FileError (List String) :=
  if '\x00' ∈ path.toList then .error .nulInPath
  else if path.isEmpty then .error .missing
  else if maxPathSize < path.utf8ByteSize then .error .nameTooLong
  else t.walk (if Path.isAbsolute path then [] else t.current) (Path.names path)

/-- What stands where a path leads. -/
def find (t : FileTree) (path : String) : Except FileError FileNode := do
  match t.node? (← t.resolve path) with
  | some n => .ok n
  | none => .error .missing

/-- Whether a path leads to a file or directory. -/
def contains (t : FileTree) (path : String) : Bool := (t.find path).isOk

/-- Whether a path leads to a directory. -/
def isDirectory (t : FileTree) (path : String) : Bool :=
  match t.find path with
  | .ok .directory => true
  | _ => false

/-- The text of a file. -/
def readText (t : FileTree) (path : String) : Except FileError String := do
  match ← t.find path with
  | .directory => .error .isADirectory
  | .file bytes =>
    match String.fromUTF8? bytes with
    | some s => .ok s
    | none => .error .notText

/-- Writes a file. -/
def writeText (t : FileTree) (path text : String) : Except FileError FileTree := do
  let place ← t.resolve path
  match t.node? place with
  | some .directory => .error .isADirectory
  | _ => .ok (t.put place (.file text.toUTF8))

/-- Makes a directory in one that exists. -/
def createDirectory (t : FileTree) (path : String) : Except FileError FileTree := do
  let place ← t.resolve path
  match t.node? place with
  | some _ => .error .alreadyExists
  | none => .ok (t.put place .directory)

/-- Makes a directory unless it exists. -/
def ensureDirectory (t : FileTree) (path : String) : FileTree × Except FileError Unit :=
  match t.createDirectory path with
  | .ok t => (t, .ok ())
  | .error e => (t, if t.isDirectory path then .ok () else .error e)

/-- Makes a directory and, if they are missing, the ones that lead to it. -/
def createDirectoriesFrom (t : FileTree) : (rounds : Nat) → (path : String) →
    FileTree × Except FileError Unit
  | 0, path => t.ensureDirectory path
  | rounds + 1, path =>
    match t.ensureDirectory path, (Path.parent? path).filter (!·.isEmpty) with
    | (_, .error e), some parent =>
      if e.kind = .notFound then
        match t.createDirectoriesFrom rounds parent with
        | (t, .ok ()) => t.ensureDirectory path
        | (t, .error e) => (t, .error e)
      else (t, .error e)
    | result, _ => result

/-- Makes a directory and, if they are missing, the ones that lead to it. -/
def createDirectories (t : FileTree) (path : String) : FileTree × Except FileError Unit :=
  t.createDirectoriesFrom path.length path

end FileTree

end Deduction
