import ContractAudit.Category
import ContractAudit.Json.Literal
import ContractAudit.Severity

/-!
# Findings

One issue at one line. A finding that comes from a detector holds texts; one that is read from data
keeps the values of its untyped members whatever they are.
-/

namespace ContractAudit

open Json

/-- An issue at a line, counted from one. -/
structure Finding where
  id : Value
  title : Value
  severity : Severity
  line : Int
  description : Value
  snippet : Value
  suggestions : List Value
  categories : List Category
  detector : Value
deriving Inhabited

namespace Finding

/-- The finding in one line. -/
def summary (f : Finding) : String :=
  "<Finding [" ++ f.severity.name ++ "] " ++ f.title.display ++ " line=" ++ toString f.line ++ ">"

/-- The finding as data. -/
def toValue (f : Finding) : Value :=
  .record [
    ("id", f.id),
    ("title", f.title),
    ("severity", .text f.severity.name),
    ("line", .int f.line),
    ("description", f.description),
    ("snippet", f.snippet),
    ("suggestions", .list f.suggestions),
    ("categories", .list (f.categories.map fun c => .text c.name)),
    ("detector", f.detector)]

/-- Whether two findings have the same content. -/
def same (f g : Finding) : Bool :=
  f.id.same g.id && f.title.same g.title && decide (f.severity = g.severity) &&
    decide (f.line = g.line) && f.description.same g.description && f.snippet.same g.snippet &&
    Value.sameItems f.suggestions g.suggestions && decide (f.categories = g.categories) &&
    f.detector.same g.detector

end Finding

end ContractAudit
