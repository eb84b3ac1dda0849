/-!
# Diagnostics of a run

Every stage of a run adds records to one list, in the order they arise. At the end the records become
messages, sorted by severity into errors, warnings and information.
-/
namespace SpaMigration

/-- How grave a record is. -/
inductive Severity where
  | info
  | warning
  | critical
  deriving DecidableEq, Repr

namespace Severity

/-- The label in the text of a record. -/
def label : Severity → String
  | .info => "INFO"
  | .warning => "WARNING"
  | .critical => "CRITICAL"

end Severity

/-- One remark about the run or about a file of the project. -/
structure Diagnostic where
  code : String
  severity : Severity
  message : String
  file : Option String := none
  deriving DecidableEq, Repr

namespace Diagnostic

/-- A warning about a file. -/
def warningIn (file code message : String) : Diagnostic := ⟨code, .warning, message, some file⟩

/-- A warning about the run. -/
def warning (code message : String) : Diagnostic := ⟨code, .warning, message, none⟩

/-- The record on one line. -/
def describe (d : Diagnostic) : String :=
  match d.file with
  | some file => "[" ++ d.severity.label ++ "] " ++ d.code ++ " (" ++ file ++ "): " ++ d.message
  | none => "[" ++ d.severity.label ++ "] " ++ d.code ++ ": " ++ d.message

/-- The message for the reader: the file in front, unless the message starts with it already. -/
def report (d : Diagnostic) : String :=
  match d.file with
  | some file => if file.toList.isPrefixOf d.message.toList then d.message else file ++ ": " ++ d.message
  | none => d.message

/-- The records of one severity. -/
def ofSeverity (severity : Severity) (records : List Diagnostic) : List Diagnostic :=
  records.filter (·.severity == severity)

/-- The messages of one severity. -/
def reports (severity : Severity) (records : List Diagnostic) : List String :=
  (ofSeverity severity records).map report

end Diagnostic

end SpaMigration
