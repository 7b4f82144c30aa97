/-
  Reports of errors.

  A report is what the user sees of an error: its code and wording, possibly
  with details in named fields, the place where it happened, and a hint.  It can
  be written as JSON and read back.

  * `Report.text`: the wording with place and hint;
  * `Report.toJson` and `Report.ofJson?`;
  * `Report.ofParseError`, `ofCheckError`, `ofCompactionError`, `ofFileError`,
    `ofSettingsError`: the reports of the errors of each area.
-/
import Deduction.Checker.Error
import Deduction.Compaction
import Deduction.Files.Error
import Deduction.Json.Parser
import Deduction.Report.Code
import Deduction.Settings.Basic
import Deduction.Source.Error

namespace Deduction

/-- Where an error happened and with what. -/
structure Report.Context where
  fields : List (String × String)
  location : Option String
  deriving DecidableEq

/-- No details. -/
def Report.Context.empty : Report.Context := ⟨[], none⟩

/-- The report of an error. -/
structure Report where
  code : ErrorCode
  message : String
  context : Option Report.Context
  hint : Option String
  deriving DecidableEq

namespace Report

/-- A report without details. -/
def new (code : ErrorCode) (message : String) : Report := ⟨code, message, none, none⟩

/-- A report of an error of the program itself. -/
def internal (message : String) : Report := new .internal message

/-- Sets a value of an association list; a new key goes to the end. -/
def setField (fields : List (String × String)) (key value : String) : List (String × String) :=
  if (fields.lookup key).isSome then fields.map fun f => if f.1 = key then (key, value) else f
  else fields ++ [(key, value)]

/-- The report with a detail. -/
def withField (r : Report) (key value : String) : Report :=
  let c := r.context.getD .empty
  { r with context := some { c with fields := setField c.fields key value } }

/-- The report with the place of the error. -/
def located (r : Report) (location : String) : Report :=
  { r with context := some { r.context.getD .empty with location := some location } }

/-- The report with a hint. -/
def withHint (r : Report) (hint : String) : Report := { r with hint := some hint }

/-- A detail of the report. -/
def field? (r : Report) (key : String) : Option String :=
  r.context.bind fun c => c.fields.lookup key

/-- The wording with the place and the hint. -/
def text (r : Report) : String :=
  let location := match r.context.bind (·.location) with
    | some l => " (in " ++ l ++ ")"
    | none => ""
  let hint := match r.hint with
    | some h => "\nHint: " ++ h
    | none => ""
  r.message ++ location ++ hint

/-! ## JSON -/

/-- The object of a context; what is absent is left out. -/
def Context.toJson (c : Context) : Json :=
  .object <|
    (if c.fields.isEmpty then []
      else [("fields", .object (c.fields.map fun f => (f.1, .string f.2)))]) ++
    (c.location.map fun l => ("location", Json.string l)).toList

/-- The object of a report; what is absent is left out. -/
def toJson (r : Report) : Json :=
  .object <|
    [("code", .string r.code.name), ("message", .string r.message)] ++
    (r.context.map fun c => ("context", c.toJson)).toList ++
    (r.hint.map fun h => ("hint", Json.string h)).toList

/-- The values of the named fields of a record.  A record is an object, where
    no named field occurs twice and others are ignored, or an array that lists
    the fields in order and may lack the last ones. -/
def recordFields? (names : List String) : Json → Option (List (Option Json))
  | .object fields =>
    names.mapM fun name =>
      match fields.filter (·.1 = name) with
      | [] => some none
      | [f] => some (some f.2)
      | _ => none
  | .array items =>
    if items.length ≤ names.length then
      some (items.map some ++ List.replicate (names.length - items.length) none)
    else none
  | _ => none

/-- A string. -/
def string? : Json → Option String
  | .string s => some s
  | _ => none

/-- A string that may be absent or null. -/
def optionalString? : Option Json → Option (Option String)
  | none | some .null => some none
  | some v => (string? v).map some

/-- A code: its name, or an object with its name as the only key. -/
def code? : Json → Option ErrorCode
  | .string s => ErrorCode.ofName? s
  | .object [(s, .null)] => ErrorCode.ofName? s
  | _ => none

/-- The details of a context.  Of a key that occurs twice the last value
    counts. -/
def detailFields? : Option Json → Option (List (String × String))
  | none => some []
  | some (.object fields) => do
    let fields ← fields.mapM fun f => (string? f.2).map fun s => (f.1, s)
    return fields.foldl (fun acc f => setField acc f.1 f.2) []
  | some _ => none

/-- The context that a value writes. -/
def Context.ofJson? (v : Json) : Option Context := do
  match ← recordFields? ["fields", "location"] v with
  | [fields, location] => return ⟨← detailFields? fields, ← optionalString? location⟩
  | _ => none

/-- The report that a value writes. -/
def ofJson? (v : Json) : Option Report := do
  match ← recordFields? ["code", "message", "context", "hint"] v with
  | [some code, some message, context, hint] =>
    let context ← match context with
      | none | some .null => some none
      | some c => (Context.ofJson? c).map some
    return ⟨← code? code, ← string? message, context, ← optionalString? hint⟩
  | _ => none

/-! ## The errors of each area -/

/-- The report of a text that is not a proof. -/
def ofParseError (e : Source.ParseError) : Report :=
  match e with
  | .malformed line column _ =>
    ((new .invalidSource e.message).withField "line" (toString line)).withField "column"
      (toString column)
  | .missingHeader => new .unexpectedEnd e.message

/-- The code of a fault of a line. -/
def codeOfFault : Fault → ErrorCode
  | .format f => match f with
    | .undefinedAtom _ => .undefinedAtom
    | .wrongNumber _ => .wrongNumber
    | .numbersExhausted => .internal
    | .missingReference _ => .missingReference
    | .inaccessibleReference _ => .inaccessibleReference
    | .missingAssumption | .missingDirectProof | .subproofInEquivalence => .subproofMisuse
    | .unknownRule _ | .notAnEquivalenceRule _ => .unknownRule
    | .unclosedSubproof => .unclosedSubproof
    | .emptyProof => .emptyProof
  | .rule f => match f with
    | .dependencyCount .. => .dependencyCount
    | .directProof => .directProofMismatch
    | .notGiven => .notGiven
    | .inferenceMismatch => .inferenceMismatch
    | .equivalenceMismatch => .equivalenceMismatch

/-- The hint for a fault of a line. -/
def hintForFault : Fault → Option String
  | .format (.unknownRule _) => some "run `proofc --list-rules` to see the available rules"
  | .format (.wrongNumber expected) =>
    some ("the line at this position should be numbered " ++ expected.text)
  | _ => none

/-- The report of a rejected proof. -/
def ofCheckError (e : CheckError) : Report :=
  { ((new (codeOfFault e.fault) e.message).withField "line" e.number.text).withField "proposition"
      e.formula.text with hint := hintForFault e.fault }

/-- The report of a failed compaction. -/
def ofCompactionError : CompactionError → Report
  | .unplacedDependency n =>
    (internal ("line " ++ n.text ++ " was scheduled before one of its dependencies")).withField
      "line" n.text
  | .numbersExhausted => internal "line numbers are exhausted"
  | .miscounted => internal "the dependencies were miscounted"

/-- The report of a file error. -/
def ofFileError (e : FileError) : Report :=
  match e.kind with
  | .notFound => new .fileNotFound e.message
  | .permissionDenied => new .fileAccessDenied e.message
  | .other => new .file e.message

/-- The report of settings that could not be used. -/
def ofSettingsError (e : SettingsError) : Report :=
  match e with
  | .unreadable .. | .unwritable _ => new .settings e.message
  | .malformed .. => new .invalidSettings e.message
  | .invalidValue .. => new .invalidSettingValue e.message

end Report

end Deduction
