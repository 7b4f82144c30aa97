/-
  Why a file could not be read or written.
-/

namespace Deduction

/-- The kinds of file errors that are told apart. -/
inductive FileErrorKind where
  | notFound
  | permissionDenied
  | other
  deriving DecidableEq

/-- A file error and its wording. -/
structure FileError where
  kind : FileErrorKind
  message : String
  deriving DecidableEq

namespace FileError

/-- There is no such file or directory. -/
def missing : FileError := ⟨.notFound, "No such file or directory (os error 2)"⟩

/-- Access is not allowed. -/
def denied : FileError := ⟨.permissionDenied, "Permission denied (os error 13)"⟩

/-- A file stands where a directory is to be made. -/
def alreadyExists : FileError := ⟨.other, "File exists (os error 17)"⟩

/-- A file stands where a directory is needed. -/
def notADirectory : FileError := ⟨.other, "Not a directory (os error 20)"⟩

/-- A directory stands where a file is needed. -/
def isADirectory : FileError := ⟨.other, "Is a directory (os error 21)"⟩

/-- A path or a name in it has too many bytes. -/
def nameTooLong : FileError := ⟨.other, "File name too long (os error 36)"⟩

/-- A path holds the character that ends it for the system. -/
def nulInPath : FileError := ⟨.other, "file name contained an unexpected NUL byte"⟩

/-- The bytes of a file are not a text. -/
def notText : FileError := ⟨.other, "stream did not contain valid UTF-8"⟩

end FileError

end Deduction
