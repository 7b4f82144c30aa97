/-
  Codes of errors.

  Every error has a code.  Its thousands tell the area of the error, from which
  the category and the exit status follow.
-/

namespace Deduction

/-- The codes of errors. -/
inductive ErrorCode where
  | invalidSource
  | unexpectedEnd
  | undefinedAtom
  | wrongNumber
  | missingReference
  | inaccessibleReference
  | subproofMisuse
  | unknownRule
  | unclosedSubproof
  | emptyProof
  | dependencyCount
  | directProofMismatch
  | notGiven
  | inferenceMismatch
  | equivalenceMismatch
  | file
  | fileNotFound
  | fileAccessDenied
  | invalidJson
  | settings
  | invalidSettings
  | invalidSettingValue
  | internal
  deriving DecidableEq

namespace ErrorCode

/-- All codes. -/
def all : List ErrorCode :=
  [invalidSource, unexpectedEnd, undefinedAtom, wrongNumber, missingReference,
    inaccessibleReference, subproofMisuse, unknownRule, unclosedSubproof, emptyProof,
    dependencyCount, directProofMismatch, notGiven, inferenceMismatch, equivalenceMismatch,
    file, fileNotFound, fileAccessDenied, invalidJson, settings, invalidSettings,
    invalidSettingValue, internal]

/-- The number of a code. -/
def number : ErrorCode → Nat
  | invalidSource => 1001
  | unexpectedEnd => 1002
  | undefinedAtom => 2001
  | wrongNumber => 2002
  | missingReference => 2003
  | inaccessibleReference => 2004
  | subproofMisuse => 2005
  | unknownRule => 2006
  | unclosedSubproof => 2007
  | emptyProof => 2008
  | dependencyCount => 3001
  | directProofMismatch => 3002
  | notGiven => 3003
  | inferenceMismatch => 3004
  | equivalenceMismatch => 3005
  | file => 4000
  | fileNotFound => 4001
  | fileAccessDenied => 4002
  | invalidJson => 4003
  | settings => 7000
  | invalidSettings => 7001
  | invalidSettingValue => 7002
  | internal => 9000

/-- The name of a code in a JSON report. -/
def name : ErrorCode → String
  | invalidSource => "INVALID_SYNTAX"
  | unexpectedEnd => "UNEXPECTED_EOF"
  | undefinedAtom => "UNDEFINED_ATOMIC"
  | wrongNumber => "INCORRECT_LINE_NUMBER"
  | missingReference => "MISSING_REFERENCE"
  | inaccessibleReference => "INACCESSIBLE_REFERENCE"
  | subproofMisuse => "SUBPROOF_MISUSE"
  | unknownRule => "UNKNOWN_RULE"
  | unclosedSubproof => "UNCLOSED_SUBPROOF"
  | emptyProof => "EMPTY_PROOF"
  | dependencyCount => "INVALID_DEPENDENCIES"
  | directProofMismatch => "DIRECT_PROOF_RULE_MISMATCH"
  | notGiven => "NOT_GIVEN"
  | inferenceMismatch => "INFERENCE_MISMATCH"
  | equivalenceMismatch => "EQUIVALENCE_MISMATCH"
  | file => "IO_ERROR"
  | fileNotFound => "FILE_NOT_FOUND"
  | fileAccessDenied => "FILE_ACCESS_DENIED"
  | invalidJson => "INVALID_JSON"
  | settings => "CONFIG_ERROR"
  | invalidSettings => "INVALID_CONFIG_SYNTAX"
  | invalidSettingValue => "INVALID_CONFIG_VALUE"
  | internal => "INTERNAL_ERROR"

/-- The code with the given name. -/
def ofName? (s : String) : Option ErrorCode := all.find? fun c => c.name = s

/-- A short description of a code. -/
def description : ErrorCode → String
  | invalidSource => "Invalid proof syntax"
  | unexpectedEnd => "Unexpected end of input"
  | undefinedAtom => "Undefined atomic proposition"
  | wrongNumber => "Incorrect line number"
  | missingReference => "Referred line does not exist"
  | inaccessibleReference => "Referred line is not accessible"
  | subproofMisuse => "Sub-proof misuse"
  | unknownRule => "Unknown rule"
  | unclosedSubproof => "Proof ends in a sub-proof"
  | emptyProof => "Proof is empty"
  | dependencyCount => "Wrong number of dependencies"
  | directProofMismatch => "Invalid use of Direct Proof Rule"
  | notGiven => "Proposition is not given"
  | inferenceMismatch => "Inference rule does not match"
  | equivalenceMismatch => "Equivalence rule does not match"
  | file => "I/O error"
  | fileNotFound => "File not found"
  | fileAccessDenied => "File access denied"
  | invalidJson => "Invalid JSON"
  | settings => "Configuration error"
  | invalidSettings => "Invalid configuration syntax"
  | invalidSettingValue => "Invalid configuration value"
  | internal => "Internal error"

/-- The category under which an error is reported. -/
def category (c : ErrorCode) : String :=
  match c.number / 1000 with
  | 1 => "Parser Error"
  | 2 => "Format Error"
  | 3 => "Rule Error"
  | 4 => "IO Error"
  | 7 => "Config Error"
  | _ => "Internal Error"

/-- The exit status of a run that ends with this error. -/
def exitStatus (c : ErrorCode) : Nat :=
  match c.number / 1000 with
  | 1 => 2
  | 2 | 3 => 1
  | 4 => 3
  | 7 => 4
  | _ => 70

end ErrorCode

end Deduction
