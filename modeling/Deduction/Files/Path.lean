/-
  Paths of files.

  A path is a text with components between slashes.  Empty components count for
  nothing, and neither does a single dot unless the path begins with it.
-/

namespace Deduction.Path

/-- Whether a path starts at the root. -/
def isAbsolute (path : String) : Bool := path.toList.head? = some '/'

/-- The names between the slashes of a path, those that count for nothing
    included. -/
def names (path : String) : List String := (path.toList.splitOn '/').map String.ofList

/-- Drops, from the end of a path read backwards, slashes and single dots that
    count for nothing. -/
def trimEndFrom : (rounds : Nat) → List Char → List Char
  | 0, cs => cs
  | rounds + 1, cs =>
    match cs with
    | '/' :: c :: cs => trimEndFrom rounds (c :: cs)
    | '.' :: '/' :: c :: cs => trimEndFrom rounds ('/' :: c :: cs)
    | '.' :: ['/'] => ['/']
    | cs => cs

/-- A path, read backwards, without slashes and single dots at its end that
    count for nothing. -/
def trimmedEnd (path : String) : List Char :=
  trimEndFrom path.toList.length path.toList.reverse

/-- The last component, read backwards, and what stands before it. -/
def splitLast (path : String) : List Char × List Char :=
  let cs := trimmedEnd path
  (cs.takeWhile (· ≠ '/'), cs.dropWhile (· ≠ '/'))

/-- The name of the file: the last component, unless it is a dot or two. -/
def fileName? (path : String) : Option String :=
  match (splitLast path).1 with
  | [] | ['.'] | ['.', '.'] => none
  | name => some (String.ofList name.reverse)

/-- The path without its last component.  The root and the empty path have
    none. -/
def parent? (path : String) : Option String :=
  match splitLast path with
  | ([], _) => none
  | (_, before) =>
    some (String.ofList (trimEndFrom before.length before).reverse)

/-- Adds components to a path; an absolute path replaces it. -/
def join (path other : String) : String :=
  if isAbsolute other then other
  else
    match path.toList.getLast? with
    | none | some '/' => path ++ other
    | some _ => path ++ "/" ++ other

/-- A name up to its last dot; a dot at the beginning does not count, and a name
    of two dots has no other part. -/
def stem (name : String) : String :=
  let cs := name.toList.reverse
  match cs.dropWhile (· ≠ '.') with
  | '.' :: before =>
    if before.isEmpty || name = ".." then name else String.ofList before.reverse
  | _ => name

/-- The path with another file name; without a file name, one is added. -/
def withFileName (path name : String) : String :=
  match fileName? path with
  | none => join path name
  | some _ => join ((parent? path).getD path) name

/-- The name with another extension, in place of what follows its last dot.  A
    name that is no file name stays as it is. -/
def withExtension (name extension : String) : String :=
  if (fileName? name).isSome then stem name ++ "." ++ extension else name

end Deduction.Path
