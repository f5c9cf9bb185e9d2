import ContractAudit.Finding
import ContractAudit.Score.CategoryScores

/-!
# Reports

The result of an audit: category scores, findings in order, and general suggestions of which no two
have the same content. The overall score and the counts by severity are derived and never stored.
-/

namespace ContractAudit

open Json

/-- The result of an audit. -/
structure Report where
  scores : CategoryScores
  findings : List Finding
  suggestions : List Value

namespace Report

/-- The report of the given parts, with each suggestion once. -/
def make (scores : CategoryScores) (findings : List Finding) (suggestions : List Value) : Report :=
  ⟨scores, findings, Value.dedup suggestions⟩

/-- The overall score. -/
def overall (r : Report) : Binary64 := r.scores.overall

/-- How many findings have a severity. -/
def count (r : Report) (s : Severity) : Nat :=
  r.findings.countP (·.severity == s)

/-- The counts by severity as data. -/
def severityCounts (r : Report) : Value :=
  .record (Severity.all.map fun s => (s.name, .int (r.count s)))

/-- The report in one line. -/
def summary (r : Report) : String :=
  "<Report overall=" ++ Binary64.plainLayout.write r.overall ++ " findings=" ++
    toString r.findings.length ++ ">"

/-- The members of a report as data. -/
def members (r : Report) : List (String × Value) := [
  ("overallScore", .real r.overall),
  ("scores", r.scores.toValue),
  ("severityCounts", r.severityCounts),
  ("findings", .list (r.findings.map Finding.toValue)),
  ("suggestions", .list r.suggestions)]

/-- The report as data. -/
def toValue (r : Report) : Value := .record r.members

/-- Whether two lists of findings have the same content. -/
def sameFindings : List Finding → List Finding → Bool
  | [], [] => true
  | f :: fs, g :: gs => f.same g && sameFindings fs gs
  | _, _ => false

/-- Whether two reports have the same content. -/
def same (r t : Report) : Bool :=
  decide (r.scores = t.scores) && sameFindings r.findings t.findings &&
    Value.sameItems r.suggestions t.suggestions

end Report

end ContractAudit
