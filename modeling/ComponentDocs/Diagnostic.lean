/-!
# Diagnostics

What is reported about a file beside its documentation.
-/

namespace ComponentDocs

/-- How serious a diagnostic is. -/
inductive Severity where
  | info
  | warning
  | error
  deriving DecidableEq, Repr

/-- The name of a severity. -/
def Severity.name : Severity → String
  | .info => "info"
  | .warning => "warning"
  | .error => "error"

/-- A remark on a file. -/
structure Diagnostic where
  file : String
  severity : Severity
  message : String
  deriving DecidableEq, Repr

end ComponentDocs
