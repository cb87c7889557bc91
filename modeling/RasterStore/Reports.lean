/-!
# Reports

A dataset reports what a user should know but what did not stop it: anomalies that a codec
recovered from, each kind of them once, and blocks that could not be written back. Reports are
values: the journal holds all of them in the order in which they were made, and only grows.
-/

namespace RasterStore

/-- How serious a report is. -/
inductive Severity where
  | warning
  | error
deriving DecidableEq

/-- One entry of the journal. -/
structure Notice where
  severity : Severity
  text : String
deriving DecidableEq

/-- The entry as one line. -/
def Notice.line (notice : Notice) : String :=
  match notice.severity with
  | .warning => "WARN " ++ notice.text
  | .error => "ERROR " ++ notice.text

/-- Something unusual that a codec found in a block and recovered from. Anomalies of one kind are
    reported once for a dataset. -/
structure Anomaly where
  kind : String
  text : String
deriving DecidableEq

/-- The reports of one dataset. -/
structure Reports where
  /-- Kinds of anomaly that have been reported. -/
  reported : List String := []
  /-- The texts of the reported anomalies, oldest first. -/
  warnings : Array String := #[]
  /-- Everything reported, oldest first. -/
  journal : Array Notice := #[]

namespace Reports

/-- Anomalies of this kind have been reported. -/
def hasReported (reports : Reports) (kind : String) : Bool :=
  reports.reported.contains kind

/-- Adds an entry to the journal. -/
def note (reports : Reports) (notice : Notice) : Reports :=
  { reports with journal := reports.journal.push notice }

/-- Reports an anomaly unless one of its kind has been reported before. -/
def warn (reports : Reports) (anomaly : Anomaly) : Reports :=
  if reports.hasReported anomaly.kind then reports
  else
    { reported := anomaly.kind :: reports.reported
      warnings := reports.warnings.push anomaly.text
      journal := reports.journal.push ⟨.warning, anomaly.text⟩ }

/-- Reports anomalies in order. -/
def warnAll (reports : Reports) (anomalies : List Anomaly) : Reports :=
  anomalies.foldl warn reports

/-- An anomaly that has just been passed to `warn` counts as reported. -/
@[simp] theorem hasReported_warn (reports : Reports) (anomaly : Anomaly) :
    (reports.warn anomaly).hasReported anomaly.kind = true := by
  unfold warn
  split
  · assumption
  · simp [hasReported]

end Reports

end RasterStore
