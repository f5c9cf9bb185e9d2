import ContractAudit.Json.Value

/-!
# Severities

The severity of a finding, and the weight with which it is charged in the scores.
-/

namespace ContractAudit

/-- How grave a finding is. -/
inductive Severity where
  | critical
  | high
  | medium
  | low
  | info
deriving DecidableEq, Repr, Inhabited

namespace Severity

/-- Every severity, the gravest first. -/
def all : List Severity := [.critical, .high, .medium, .low, .info]

/-- The name of the severity. -/
def name : Severity → String
  | .critical => "Critical"
  | .high => "High"
  | .medium => "Medium"
  | .low => "Low"
  | .info => "Info"

/-- The penalty that a finding of the severity charges. -/
def weight : Severity → Nat
  | .critical => 10
  | .high => 7
  | .medium => 5
  | .low => 3
  | .info => 1

theorem mem_all (s : Severity) : s ∈ all := by cases s <;> decide

/-- The severity that a value names exactly. -/
def ofValue? : Json.Value → Option Severity
  | .string (.text s) => all.find? (·.name == s)
  | _ => none

@[simp] theorem ofValue?_name (s : Severity) : ofValue? (.text s.name) = some s := by
  cases s <;> rfl

end Severity

end ContractAudit
